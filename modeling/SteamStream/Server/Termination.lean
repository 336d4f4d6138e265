import SteamStream.Rest.Clients
import SteamStream.Rest.ServerInfo
import SteamStream.Server.Orphans

/-!
# Termination and cancel

A client can end its session over HTTPS, with `/cancel`, or over the control connection, with an
encrypted `TERMINATION`. The control server says that the second is the same teardown as the
first. Both run `stop_session`; but only a cancel takes the session out of the registry, so after
a `TERMINATION` the server still reports itself busy, and the next launch of the client is taken
for a resume.

The two leave the same state only where there is nothing to tear down: no session is registered
under the client's address, and the media in the holder are not those of the session
(`termination_matches_cancel_iff`).
-/

namespace SteamStream.Server

open Wire Session Control Rest Runs X509

/-! ### The packet -/

/-- The packet is encrypted, and its plaintext under the key is a `TERMINATION`. -/
structure IsTermination (machine : Machine) (pkt : Buffer) (key : Bytes) : Prop where
  encrypted : packetType pkt = some .encrypted
  decrypted : ∃ plaintext, (decryptPacket machine.evp pkt key).result = .ok plaintext ∧
    packetType (stringBuffer plaintext machine.afterPlaintext) = some .termination

section Packet

variable {machine : Machine} {srv : ControlServer} {reg : SessionRegistry}
  {media : Option MediaRef} {peer : ENetPeer} {pkt : Buffer} {sess : SessionRef}

/-- Nothing but a stop asks for one. -/
theorem stopRequest_append {effects : List Effect} {sid : ℕ}
    (h : ∀ e ∈ effects, e.NotDispatched) : stopRequest (effects ++ [.stop sid]) = some sid := by
  induction effects with
  | nil => rfl
  | cons e effects ih =>
    obtain ⟨he, hrest⟩ := List.forall_mem_cons.mp h
    rw [List.cons_append, stopRequest, List.findSome?_cons]
    cases e with
    | stop => exact he.elim
    | _ => exact ih hrest

variable (media) in
/-- A plaintext that is a `TERMINATION` runs the stop callback. -/
theorem dispatch_termination (dev : StreamSession) {decrypted : Buffer}
    (hterm : packetType decrypted = some .termination) (hstop : srv.hasStopCallback = true) :
    (dispatch srv dev decrypted media).result = .ok () ∧
      (dispatch srv dev decrypted media).log =
        (decrypted.loadLE ControlPacket.type).log ++ [.stop dev.sessionId] := by
  have hload := Buffer.result_loadLE decrypted ControlPacket.type
  constructor
  · rw [dispatch, Traced.result_bind_ok hload, ← packetType, hterm]
    simp only [hstop, if_true, Traced.result_emit]
  · rw [dispatch, Traced.log_bind_ok hload, ← packetType, hterm]
    simp only [hstop, if_true]
    rfl

variable (media) in
/-- A `TERMINATION` of a connected peer asks for a stop of its session. -/
theorem stopRequest_receive (hpeer : srv.session? peer = some sess)
    (hpkt : IsTermination machine pkt (reg.object sess).aesKey)
    (hstop : srv.hasStopCallback = true) :
    (receive machine srv reg media peer pkt).result = .ok () ∧
      stopRequest (receive machine srv reg media peer pkt).log =
        some (reg.object sess).sessionId := by
  obtain ⟨htype, plaintext, hplain, hterm⟩ := hpkt
  obtain ⟨hok, hlog⟩ := dispatch_termination media (reg.object sess) hterm hstop
  have hload := Buffer.result_loadLE pkt ControlPacket.type
  have hencrypted : (receiveEncrypted machine srv (reg.object sess) media pkt).result = .ok () :=
    (Traced.result_bind_ok hplain).trans hok
  constructor
  · rw [receive, hpeer]
    dsimp only
    rw [Traced.result_bind_ok hload, ← packetType, if_pos htype, Traced.handle_of_ok hencrypted,
      hencrypted]
  · rw [receive, hpeer]
    dsimp only
    rw [Traced.log_bind_ok hload, ← packetType, if_pos htype, Traced.handle_of_ok hencrypted,
      receiveEncrypted, Traced.log_bind_ok hplain, hlog, ← List.append_assoc, ← List.append_assoc]
    refine stopRequest_append fun e he => ?_
    -- everything before it is reading and decrypting
    rcases List.mem_append.mp he with he | he
    · rcases List.mem_append.mp he with he | he
      · exact (Buffer.all_loadLE ..).mpr trivial e he
      · exact decryptPacket_notDispatched e he
    · exact (Buffer.all_loadLE ..).mpr trivial e he

end Packet

/-! ### To the end of `stop_session` -/

section Handling

open ServerState

variable {Cert : Type} (ssl : OpenSSL Cert) {st st' : ServerState} {event : ServerEvent Cert}
  {thread : StopThread}

/-- The thread runs its `stop_session` to the end, if it is in one. -/
def finishStop (st : ServerState) (thread : StopThread) : ServerState :=
  let locked := (serverStep ssl st (.stopLock thread)).getD st
  (serverStep ssl locked (.stopDone thread)).getD locked

/-- A request or a packet is handled to the end on its thread. -/
def handled (st : ServerState) (event : ServerEvent Cert) (thread : StopThread) :
    Option ServerState :=
  (serverStep ssl st event).map fun st => finishStop ssl st thread

/-- What a `stop_session` for that id leaves in the holder. -/
def ServerState.holderWithout (st : ServerState) (sid : ℕ) : Option MediaRef :=
  st.holder.filter fun ms => st.mediaId ms ≠ sid

variable {ssl}

/-- It is a run of the server. -/
theorem run_of_handled {app : AppState} (h : handled ssl st event thread = some st') :
    ∃ events, (serverSystem ssl app).run st (event :: events) = some st' := by
  obtain ⟨st₁, hstep, rfl⟩ := Option.map_eq_some_iff.mp h
  obtain ⟨locks, hlocks⟩ :=
    System.exists_run_getD (S := serverSystem ssl app) st₁ (.stopLock thread)
  obtain ⟨stops, hstops⟩ := System.exists_run_getD (S := serverSystem ssl app)
    ((serverStep ssl st₁ (.stopLock thread)).getD st₁) (.stopDone thread)
  refine ⟨locks ++ stops, ?_⟩
  rw [System.run_cons_of_step (S := serverSystem ssl app) hstep, System.run_append, hlocks]
  exact hstops

/-- `stop_session` does not touch the registry. -/
theorem app_finishStop : (finishStop ssl st thread).app = st.app := by
  have hlock : ((serverStep ssl st (.stopLock thread)).getD st).app = st.app := by
    cases hstep : serverStep ssl st (.stopLock thread) with
    | none => rfl
    | some st₁ =>
      obtain ⟨sid, -, ⟨victim, -, -, rfl⟩ | ⟨-, rfl⟩⟩ := serverStep_stopLock hstep
      · exact app_setStopPc
      · exact app_setStopPc
  unfold finishStop
  dsimp only
  generalize (serverStep ssl st (.stopLock thread)).getD st = locked at hlock ⊢
  cases hstep : serverStep ssl locked (.stopDone thread) with
  | none => exact hlock
  | some st₂ =>
    obtain ⟨victim, -, rfl⟩ := serverStep_stopDone hstep
    exact app_setStopPc.trans hlock

theorem finishStop_idle (h : st.stopPc thread = .idle) : finishStop ssl st thread = st := by
  simp only [finishStop, serverStep, h, Option.getD_none]

/-- The media session in the holder is taken out and stopped if it has that id. -/
theorem finishStop_locking {sid : ℕ} (h : st.stopPc thread = .locking sid) :
    (finishStop ssl st thread).holder = st.holderWithout sid := by
  have hlock : ∃ st₁, serverStep ssl st (.stopLock thread) = some st₁ := by
    simp only [serverStep, h]
    exact ⟨_, rfl⟩
  obtain ⟨st₁, hlock⟩ := hlock
  rw [finishStop, hlock, Option.getD_some, holderWithout]
  obtain ⟨sid', hpc, ⟨victim, hvictim, hid, rfl⟩ | ⟨hnone, rfl⟩⟩ := serverStep_stopLock hlock
  · obtain rfl := StopPc.locking.inj (h.symm.trans hpc)
    have hdone : serverStep ssl
        (({ st with holder := none } : ServerState).setStopPc (.stopping victim) thread)
        (.stopDone thread) =
        some (((({ st with holder := none } : ServerState).setStopPc (.stopping victim)
          thread).stopMedia victim).setStopPc .idle thread) := by
      simp only [serverStep, stopPc_setStopPc_self]
    rw [hdone, Option.getD_some, holder_setStopPc, hvictim]
    refine holder_setStopPc.trans ?_
    simp [Option.filter, hid]
  · obtain rfl := StopPc.locking.inj (h.symm.trans hpc)
    have hdone : serverStep ssl (st.setStopPc .idle thread) (.stopDone thread) = none := by
      simp only [serverStep, stopPc_setStopPc_self]
    rw [hdone, Option.getD_none, holder_setStopPc]
    cases hholder : st.holder with
    | none => rfl
    | some ms => simp [Option.filter, hnone ms hholder]

/-- After a `TERMINATION` the registry is as before, and the media of its session are gone. -/
theorem handled_termination {machine : Machine} {peer : ENetPeer} {pkt : Buffer}
    {sess : SessionRef} (hstop : st.control.hasStopCallback = true)
    (hpeer : st.control.session? peer = some sess)
    (hpkt : IsTermination machine pkt (st.sessions.object sess).aesKey)
    (h : handled ssl st (.receive machine peer pkt) .control = some st') :
    st'.app = st.app ∧ st'.holder = st.holderWithout (st.idOf sess) := by
  obtain ⟨st₁, hstep, rfl⟩ := Option.map_eq_some_iff.mp h
  obtain ⟨hok, hrequest⟩ := stopRequest_receive (mediaAccessor st) hpeer hpkt hstop
  simp only [serverStep, packetEffects, hok, hrequest] at hstep
  split_ifs at hstep
  obtain rfl := Option.some.inj hstep
  exact ⟨app_finishStop, finishStop_locking rfl⟩

/-- A cancel that finds no session does nothing, and one that finds a session drops it. -/
theorem handled_cancel {req : Request Cert} (hpaired : (clientIfPaired ssl st.app req).isSome)
    (h : handled ssl st (.https (.cancel req)) .https = some st') :
    (st.sessions.getByClientIp req.clientIp = none ∧ st'.app = st.app ∧ st'.holder = st.holder) ∨
      ∃ sess, st.sessions.getByClientIp req.clientIp = some sess ∧
        st'.sessions = st.sessions.remove (st.idOf sess) := by
  obtain ⟨st₁, hstep, rfl⟩ := Option.map_eq_some_iff.mp h
  obtain ⟨client, hclient⟩ := Option.isSome_iff_exists.mp hpaired
  simp only [serverStep, handle, cancel, hclient] at hstep
  by_cases hidle : st.httpsPc = .idle
  swap
  · rw [if_neg hidle] at hstep
    cases hstep
  rw [if_pos hidle] at hstep
  cases hfind : st.sessions.getByClientIp req.clientIp with
  | none =>
    left
    change st.app.sessions.getByClientIp req.clientIp = none at hfind
    rw [hfind] at hstep
    obtain rfl := Option.some.inj hstep
    rw [finishStop_idle rfl]
    exact ⟨rfl, rfl, rfl⟩
  | some sess =>
    right
    change st.app.sessions.getByClientIp req.clientIp = some sess at hfind
    rw [hfind] at hstep
    obtain rfl := Option.some.inj hstep
    exact ⟨sess, rfl, congrArg AppState.sessions app_finishStop⟩

/-! ### What every run keeps -/

/-- `main` has installed the stop callback. -/
theorem serverStep_hasStopCallback (h : serverStep ssl st event = some st') :
    st'.control.hasStopCallback = st.control.hasStopCallback := by
  rcases serverStep_cases h with ⟨-, hsame⟩ | ⟨-, ms, -, -, hsame⟩ |
    ⟨peer, connectData, ip, -, -, hconnect⟩ | ⟨peer, -, -, hdisconnect⟩
  · rw [hsame]
  · rw [hsame]
  · rw [hconnect, ControlServer.connect]
    split <;> rfl
  · rw [hdisconnect]
    rfl

/-- No two registered sessions share an id or a client address. -/
theorem serverStep_distinct (hst : st.sessions.Distinct)
    (h : serverStep ssl st event = some st') : st'.sessions.Distinct := by
  rcases serverStep_registry h with ⟨request, -, hsessions⟩ | ⟨r, f, hf, hsessions⟩ | hsessions
  · rw [hsessions]
    exact handle_distinct hst
  · rw [hsessions]
    exact hst.modify (fun s => (hf s).1) fun s => (hf s).2
  · rwa [hsessions]

variable (ssl)

theorem connected_isInvariant (app : AppState) :
    (serverSystem ssl app.fresh).IsInvariant fun st =>
      st.control.hasStopCallback = true ∧ st.sessions.Distinct where
  init := ⟨rfl, SessionRegistry.distinct_initial⟩
  step hst hstep :=
    ⟨(serverStep_hasStopCallback hstep).trans hst.1, serverStep_distinct hst.2 hstep⟩

/-! ### Termination against cancel -/

/-- The registry, the holder and what `/serverinfo` answers are the same. -/
structure SameTeardown (st st' : ServerState) : Prop where
  sessions : st'.sessions = st.sessions
  holder : st'.holder = st.holder
  serverinfo : serverinfo st'.app = serverinfo st.app

/-- A cancel by the client of the session: its certificate is paired, and it comes from the
session's address. -/
structure CancelsSession (st : ServerState) (sess : SessionRef) (req : Request Cert) : Prop where
  paired : (clientIfPaired ssl st.app req).isSome
  clientIp : req.clientIp = (st.sessions.object sess).clientIp

/-- Nothing is left to tear down for the session: no session is registered under its address, and
the media in the holder are not its own. -/
structure TornDown (st : ServerState) (sess : SessionRef) : Prop where
  getByClientIp : st.sessions.getByClientIp (st.sessions.object sess).clientIp = none
  holder : ∀ ms, st.holder = some ms → st.mediaId ms ≠ st.idOf sess

theorem holderWithout_eq_self_iff {sid : ℕ} :
    st.holderWithout sid = st.holder ↔ ∀ ms, st.holder = some ms → st.mediaId ms ≠ sid := by
  unfold holderWithout
  cases st.holder with
  | none => exact iff_of_true rfl nofun
  | some ms =>
    by_cases hid : st.mediaId ms = sid <;> simp [Option.filter, hid]

/-- **When a termination is a cancel.** In every state a server can get into, an encrypted
`TERMINATION` from the peer of a session and a `/cancel` from its client, each handled to the
end, leave the same registry, holder and `/serverinfo` if and only if there is nothing left to
tear down for the session. A registered session is the one such a cancel is about. -/
theorem termination_matches_cancel_iff (app : AppState) (events : List (ServerEvent Cert))
    {st : ServerState}
    (hrun : (serverSystem ssl app.fresh).run (serverSystem ssl app.fresh).init events = some st)
    {peer : ENetPeer} {sess : SessionRef} (hpeer : st.control.session? peer = some sess)
    {machine : Machine} {pkt : Buffer}
    (hpkt : IsTermination machine pkt (st.sessions.object sess).aesKey) {req : Request Cert}
    (hreq : CancelsSession ssl st sess req) {terminated cancelled : ServerState}
    (hterminated : handled ssl st (.receive machine peer pkt) .control = some terminated)
    (hcancelled : handled ssl st (.https (.cancel req)) .https = some cancelled) :
    (SameTeardown terminated cancelled ↔ TornDown st sess) ∧
      (sess ∈ st.sessions.sessions → st.sessions.getByClientIp req.clientIp = some sess) := by
  obtain ⟨hstop, hdistinct⟩ :=
    (connected_isInvariant ssl app).run (connected_isInvariant ssl app).init hrun
  obtain ⟨happ, hholder⟩ := handled_termination hstop hpeer hpkt hterminated
  have hsessions : terminated.sessions = st.sessions := congrArg AppState.sessions happ
  refine ⟨?_, fun hsess => ?_⟩
  swap
  · rw [hreq.clientIp]
    exact hdistinct.getByClientIp_clientIp hsess
  rcases handled_cancel hreq.paired hcancelled with ⟨hnone, happ', hholder'⟩ | ⟨s, hs, hremoved⟩
  · rw [hreq.clientIp] at hnone
    constructor
    · intro hsame
      refine ⟨hnone, holderWithout_eq_self_iff.mp ?_⟩
      rw [← hholder, ← hsame.holder, hholder']
    · intro htorn
      refine ⟨congrArg AppState.sessions (happ'.trans happ.symm), ?_, by rw [happ', happ]⟩
      rw [hholder', hholder, holderWithout_eq_self_iff.mpr htorn.holder]
  · -- the session found is dropped by the cancel alone
    refine iff_of_false (fun hsame => ?_) fun htorn => ?_
    · have hmem : s ∈ (st.sessions.remove (st.idOf s)).sessions := by
        rw [← hremoved, hsame.sessions, hsessions]
        exact SessionRegistry.mem_of_getByClientIp hs
      exact absurd rfl (of_decide_eq_true (List.mem_filter.mp hmem).2)
    · rw [hreq.clientIp, htorn.getByClientIp] at hs
      cases hs

end Handling

/-! ### A client that leaves -/

/-- An encrypted packet with the two bytes of a termination. -/
def terminationPacket : Buffer where
  bytes := [1, 0, 22, 0, 1, 0, 0, 0] ++ List.replicate 16 1 ++ [0x09, 0x01]
  beyond _ := 0

/-- It is one under every key. -/
theorem isTermination_terminationPacket (key : Bytes) :
    IsTermination idrMachine terminationPacket key := by
  refine ⟨by decide, [0x09, 0x01], ?_, by decide⟩
  rw [decryptPacket_result, if_pos (by decide)]
  change Except.ok (terminationPacket.load (ciphertextField terminationPacket)) = _
  exact congrArg _ (by decide)

/-- The client of the first session cancels. -/
def cancelRequest : Request LeafCert where
  path := ascii "/cancel"
  clientCert := some ⟨1, 1⟩
  clientIp := ascii "192.168.1.20"
  localIp := ascii "192.168.1.2"
  headers := []

/-- While its media are running only the cancel gives the session up. -/
theorem not_sameTeardown_connected :
    ∃ st terminated cancelled, (serverSystem leafSsl pairedStart.fresh).run
        (serverSystem leafSsl pairedStart.fresh).init
        (launchedPlay ++ [.connect 0 7 (ascii "192.168.1.20")]) = some st ∧
      st.control.session? 0 = some 0 ∧
      IsTermination idrMachine terminationPacket (st.sessions.object 0).aesKey ∧
      CancelsSession leafSsl st 0 cancelRequest ∧
      handled leafSsl st (.receive idrMachine 0 terminationPacket) .control = some terminated ∧
      handled leafSsl st (.https (.cancel cancelRequest)) .https = some cancelled ∧
      ¬ SameTeardown terminated cancelled := by
  refine ⟨_, _, _, rfl, rfl, isTermination_terminationPacket _, ⟨rfl, rfl⟩, rfl, rfl,
    fun hsame => ?_⟩
  exact absurd (congrArg SessionRegistry.sessions hsame.sessions) (by decide)

/-- A client that has cancelled may still send a termination: it changes nothing, and neither does
a second cancel. -/
theorem sameTeardown_cancelled :
    ∃ st terminated cancelled, (serverSystem leafSsl pairedStart.fresh).run
        (serverSystem leafSsl pairedStart.fresh).init
        [launchFrom "192.168.1.20" 7, .connect 0 7 (ascii "192.168.1.20"),
          .https (.cancel cancelRequest), .stopLock .https] = some st ∧
      handled leafSsl st (.receive idrMachine 0 terminationPacket) .control = some terminated ∧
      handled leafSsl st (.https (.cancel cancelRequest)) .https = some cancelled ∧
      SameTeardown terminated cancelled := by
  refine ⟨_, _, _, rfl, rfl, rfl, ?_⟩
  have hmatches := @termination_matches_cancel_iff _ leafSsl pairedStart
    [launchFrom "192.168.1.20" 7, .connect 0 7 (ascii "192.168.1.20"),
      .https (.cancel cancelRequest), .stopLock .https] _ rfl 0 0 rfl idrMachine
    terminationPacket (isTermination_terminationPacket _) cancelRequest ⟨rfl, rfl⟩ _ _ rfl rfl
  exact hmatches.1.mpr ⟨rfl, nofun⟩

end SteamStream.Server
