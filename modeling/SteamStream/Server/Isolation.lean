import SteamStream.Server.System

/-!
# Input stays with its session

A peer is bound to a session when it connects, and its packets are decrypted with the key of
that session. Input then goes to the media session in the holder, whichever session that one
belongs to, and so does an IDR request: neither the accessor nor the IDR callback looks at the
id, while `stop_session` does.

`Isolated` says that whatever a connected peer sends reaches only media of its own session. It
comes down to `Matched`, a fact about the holder and the connections alone
(`isolated_iff_matched`), and two kinds of steps can break that: a connect to a session other
than the one being streamed, and a `PLAY` that publishes a session while peers of another one
are connected. `isolated_along_iff` says that these are all.
-/

namespace SteamStream.Server

open Wire Session Control Rest Runs X509

namespace ServerState

/-- The effect reaches no media session but those of `sess`. -/
def ReachesOwn (st : ServerState) (sess : SessionRef) : Effect → Prop
  | .input ms _ => st.mediaId ms = st.idOf sess
  | .idr sid => ∀ ms, idrTarget st sid = some ms → st.mediaId ms = st.idOf sess
  | _ => True

/-- Whatever a connected peer sends, on whatever machine, reaches only media of the session the
peer is bound to. -/
def Isolated (st : ServerState) : Prop :=
  ∀ machine peer sess pkt, st.control.session? peer = some sess →
    (packetEffects st machine peer pkt).All (st.ReachesOwn sess)

/-- The media session in the holder belongs to the session of every connected peer. -/
def Matched (st : ServerState) : Prop :=
  ∀ peer sess ms, st.control.session? peer = some sess → st.holder = some ms →
    st.mediaId ms = st.idOf sess

end ServerState

open ServerState

/-! ### Isolation is a match of holder and connections -/

/-- OpenSSL accepts the packet, and the keystream is zero. -/
def idrMachine : Machine where
  evp := .passThrough fun _ => 1
  afterPlaintext _ := 0

/-- An encrypted packet with the two bytes of an IDR request. -/
def idrPacket : Buffer where
  bytes := [1, 0, 22, 0, 1, 0, 0, 0] ++ List.replicate 16 1 ++ [0x02, 0x03]
  beyond _ := 0

/-- Its plaintext has the type of an IDR request, under every key. -/
private theorem packetType_idrPacket (key : Bytes) :
    packetType (stringBuffer (unauthenticatedPlaintext idrMachine.evp idrPacket key)
      idrMachine.afterPlaintext) = some .idrFrame := by
  have hplain : unauthenticatedPlaintext idrMachine.evp idrPacket key = [0x02, 0x03] := by
    change idrPacket.load (ciphertextField idrPacket) = [0x02, 0x03]
    decide
  rw [hplain]
  decide

theorem isolated_iff_matched {st : ServerState} (hidr : st.control.hasIdrCallback = true) :
    st.Isolated ↔ st.Matched := by
  constructor
  · intro h peer sess ms hpeer hholder
    -- an IDR request of the peer goes to the holder
    have hall := h idrMachine peer sess idrPacket hpeer
    rw [packetEffects, receive_all hpeer, receiveEncrypted_all] at hall
    obtain ⟨-, hencrypted⟩ := hall
    obtain ⟨-, hdispatch⟩ := hencrypted (by decide)
    exact dispatch_idr (packetType_idrPacket _) hidr (hdispatch (by decide)) ms hholder
  · intro h machine peer sess pkt hpeer
    rw [packetEffects, receive_all hpeer, receiveEncrypted_all]
    refine ⟨trivial, fun _ => ⟨?_, fun _ => ?_⟩⟩
    · refine (decryptPacket_all (fun _ => ?_) machine.evp pkt _).mpr ⟨?_, ?_, ?_, ?_, fun _ => ?_⟩
        <;> exact trivial
    · refine dispatch_all (fun _ => trivial) trivial (fun ms _ hms => ?_) (fun ms hms => ?_) trivial
      · exact h peer sess ms hpeer hms
      · exact h peer sess ms hpeer hms

/-! ### The steps that can break the match -/

/-- A connect binds the peer to the session being streamed, if there is one, and a `PLAY`
publishes media of the session every connected peer is bound to. -/
def KeepsBinding {Cert : Type} (st : ServerState) : ServerEvent Cert → Prop
  | .connect _ connectData ip =>
    st.controlPc = .idle → ∀ sess ms, matchSession st.sessions connectData ip = some sess →
      st.holder = some ms → st.mediaId ms = st.idOf sess
  | .playPublish =>
    ∀ ms, st.playPc = .publish ms → ∀ peer sess, st.control.session? peer = some sess →
      st.mediaId ms = st.idOf sess
  | _ => True

section Step

variable {Cert : Type} {ssl : OpenSSL Cert} {st st' : ServerState} {event : ServerEvent Cert}

/-- A step that leaves the holder or empties it, and keeps connections or drops some. -/
private theorem matched_of_frame (hwf : st.WellFormed) (hmatched : st.Matched)
    (hext : st.Extends st') (hholder : st'.holder = st.holder ∨ st'.holder = none)
    (hcontrol : ∀ peer sess, st'.control.session? peer = some sess →
      st.control.session? peer = some sess) : st'.Matched := by
  intro peer sess ms hpeer hms
  rcases hholder with hsame | hnone
  · rw [hsame] at hms
    have hpeer := hcontrol peer sess hpeer
    have hlt : ms < st.media.length := hwf.mediaRefs_lt ms (by simp [mediaRefs, hms])
    have hsess : sess < st.sessions.objects.length := by
      refine hwf.sessionRefs_lt sess ?_
      exact List.mem_append_left _
        (List.mem_append_left _ (ControlServer.mem_clients_of_session? hpeer))
    rw [hext.mediaId_eq hwf hlt, hext.idOf_eq hsess]
    exact hmatched peer sess ms hpeer hms
  · rw [hnone] at hms
    cases hms

/-- A connect keeps the match exactly when it binds the peer to the session being streamed. -/
private theorem matched_connect_iff {peer : ENetPeer} {connectData : UInt32} {ip : Bytes}
    (hmatched : st.Matched) :
    ({ st with control := st.control.connect st.sessions peer connectData ip } :
      ServerState).Matched ↔
      ∀ sess ms, matchSession st.sessions connectData ip = some sess → st.holder = some ms →
        st.mediaId ms = st.idOf sess := by
  cases hmatch : matchSession st.sessions connectData ip with
  | none =>
    rw [ControlServer.connect_of_none hmatch]
    exact iff_of_true hmatched fun sess ms h => nomatch h
  | some s =>
    constructor
    · intro h sess ms hsess hms
      obtain rfl := Option.some.inj hsess
      refine h peer s ms ?_ hms
      rw [ControlServer.session?_connect_of_some hmatch, if_pos rfl]
    · intro h p sess ms hp hms
      rw [ControlServer.session?_connect_of_some hmatch] at hp
      split_ifs at hp with heq
      · obtain rfl := Option.some.inj hp
        exact h s ms rfl hms
      · exact hmatched p sess ms hp hms

/-- A step keeps the match exactly when it meets the condition. -/
theorem matched_step_iff (hwf : st.WellFormed) (hmatched : st.Matched)
    (h : serverStep ssl st event = some st') : st'.Matched ↔ KeepsBinding st event := by
  have hext := serverStep_extends h
  cases event with
  | connect peer connectData ip =>
    simp only [serverStep] at h
    split_ifs at h with hpc
    obtain rfl := Option.some.inj h
    rw [matched_connect_iff hmatched]
    exact ⟨fun hall _ => hall, fun hall => hall hpc⟩
  | playPublish =>
    simp only [serverStep] at h
    split at h
    · rename_i ms hpc
      obtain rfl := Option.some.inj h
      constructor
      · intro hall ms' hms' peer sess hpeer
        obtain rfl : ms = ms' := PlayPc.publish.inj (hpc.symm.trans hms')
        exact hall peer sess ms hpeer rfl
      · intro hall peer sess ms' hpeer hms'
        obtain rfl := Option.some.inj hms'
        exact hall ms hpc peer sess hpeer
    · cases h
  | _ =>
    refine iff_of_true ?_ trivial
    rcases serverStep_cases h with ⟨hholder, hcontrol⟩ | ⟨hevent, -⟩ | ⟨_, _, _, hevent, -⟩ |
      ⟨gone, hevent, hholder, hcontrol⟩
    · exact matched_of_frame hwf hmatched hext hholder fun _ _ hp => hcontrol ▸ hp
    · cases hevent
    · cases hevent
    · refine matched_of_frame hwf hmatched hext (.inl hholder) fun p sess hp => ?_
      rw [hcontrol] at hp
      by_cases hgone : p = gone
      · rw [hgone, ControlServer.session?_disconnect_self] at hp
        cases hp
      · rwa [ControlServer.session?_disconnect_of_ne hgone] at hp

/-- A step that is not enabled meets the condition. -/
private theorem keepsBinding_of_none (h : serverStep ssl st event = none) :
    KeepsBinding st event := by
  cases event with
  | connect peer connectData ip =>
    intro hpc
    simp only [serverStep, if_pos hpc] at h
    cases h
  | playPublish =>
    intro ms hpc
    simp only [serverStep, hpc] at h
    cases h
  | _ => trivial

end Step

/-! ### Runs -/

section Runs

variable {Cert : Type} (ssl : OpenSSL Cert) (app : AppState)

/-- The steps that meet the condition keep references good and holder and connections
matched. -/
theorem matched_isInvariantUnder :
    System.IsInvariantUnder (serverSystem ssl app) KeepsBinding
      fun st => st.WellFormed ∧ st.Matched where
  init := by
    refine ⟨⟨?_, ?_, rfl⟩, ?_⟩
    · intro r hr
      cases hr
    · intro ms hms
      cases hms
    · intro peer sess ms hpeer
      cases hpeer
  step hst hkeeps hstep :=
    ⟨serverStep_wellFormed hst.1 hstep, (matched_step_iff hst.1 hst.2 hstep).mpr hkeeps⟩

/-- **When input stays with its session.** In a run of the server every state it reaches hands
what a connected peer sends only to media of the peer's own session, if and only if no step of
the run connects a peer to another session than the one being streamed, or publishes a session
while a peer of another one is connected. -/
theorem isolated_along_iff (events : List (ServerEvent Cert)) :
    (serverSystem ssl app).Along KeepsBinding (serverSystem ssl app).init events ↔
      (serverSystem ssl app).Along
        (fun st event => ∀ st', (serverSystem ssl app).step st event = some st' → st'.Isolated)
        (serverSystem ssl app).init events := by
  refine (matched_isInvariantUnder ssl app).along_iff (fun st event hst => ?_)
    (matched_isInvariantUnder ssl app).init
  constructor
  · intro hkeeps st' hstep
    have hwf := serverStep_wellFormed hst.1 hstep
    exact (isolated_iff_matched hwf.hasIdrCallback).mpr
      ((matched_step_iff hst.1 hst.2 hstep).mpr hkeeps)
  · intro hisolated
    cases hstep : serverStep ssl st event with
    | none => exact keepsBinding_of_none hstep
    | some st' =>
      have hwf := serverStep_wellFormed hst.1 hstep
      exact (matched_step_iff hst.1 hst.2 hstep).mp
        ((isolated_iff_matched hwf.hasIdrCallback).mp (hisolated st' hstep))

/-! ### A second client takes the stream over -/

/-- A paired client launches from an address, and draws `n`. -/
def launchFrom (ip : String) (n : ℕ) : ServerEvent LeafCert :=
  .https (.launch {
    path := ascii "/launch"
    clientCert := some ⟨1, 1⟩
    clientIp := ascii ip
    localIp := ascii "192.168.1.2"
    headers := [(ascii "rikey", ascii "9d804e9d3a7d8f1b2c3d4e5f60718293"),
      (ascii "rikeyid", ascii "16909060")] } (drawn n))

/-- Two clients launch, the first one connects, and the second one plays. -/
def takeover : List (ServerEvent LeafCert) :=
  [launchFrom "192.168.1.20" 7, launchFrom "192.168.1.21" 8,
    .connect 0 7 (ascii "192.168.1.20"),
    .play (ascii "8.8.8.8") (ascii "8.8.8.8") (ascii "192.168.1.21"),
    .playLookup, .playRead, .playCheck, .playSwap, .playStarted true, .playPublish]

/-- The first client's packets now reach the second client's media. -/
theorem not_isolated_takeover :
    ¬ (serverSystem leafSsl pairedStart).Along
      (fun st event =>
        ∀ st', (serverSystem leafSsl pairedStart).step st event = some st' → st'.Isolated)
      (serverSystem leafSsl pairedStart).init takeover := by
  intro h
  have hinit : (serverSystem leafSsl pairedStart).init.Isolated :=
    fun _ _ _ _ hpeer => nomatch hpeer
  have hisolated := h.run hinit rfl
  -- peer 0 is bound to the first session, the media in the holder is of the second
  have hids := (isolated_iff_matched rfl).mp hisolated 0 0 0 rfl rfl
  exact absurd hids (by decide)

end Runs

end SteamStream.Server
