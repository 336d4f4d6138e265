import SteamStream.Control.Server
import SteamStream.Rest.Clients

/-!
# Which session a connect finds

Every launch draws a secret, and `SETUP` hands it to the client, which connects to the control
server with it. `match_session` is made for a single session: it compares the secret and the
address with those of the session registered first. A client whose session is registered behind
another one is thrown out (`matchSession_own`).
-/

namespace SteamStream.Server

open Wire Session Control Rest Runs X509

/-- Registered sessions have drawn different secrets. -/
def DistinctSecrets (reg : SessionRegistry) : Prop :=
  ∀ r ∈ reg.sessions, ∀ r' ∈ reg.sessions,
    (reg.object r).enetSecretPayload = (reg.object r').enetSecretPayload → r = r'

/-- A client that connects with the secret of a session, from its address. -/
def connectOwn (reg : SessionRegistry) (srv : ControlServer) (peer : ENetPeer) (s : SessionRef) :
    ControlServer :=
  srv.connect reg peer (reg.object s).enetSecretPayload (reg.object s).clientIp

/-- Such a client is matched with its session if that one is registered first, and with none
otherwise. -/
theorem matchSession_own {reg : SessionRegistry} (h : reg.Distinct)
    (hsecrets : DistinctSecrets reg) {s : SessionRef} (hs : s ∈ reg.sessions) :
    matchSession reg (reg.object s).enetSecretPayload (reg.object s).clientIp =
      if reg.getRunning = some s then some s else none := by
  unfold matchSession
  cases hrunning : reg.getRunning with
  | none => rfl
  | some r =>
    have hr := SessionRegistry.mem_of_getRunning hrunning
    by_cases heq : r = s
    · subst heq
      exact (if_pos (.inl rfl)).trans (if_pos rfl).symm
    · refine (if_neg ?_).trans (if_neg fun hsame => heq (Option.some.inj hsame)).symm
      rintro (hsecret | hip)
      · exact heq (hsecrets r hr s hs hsecret)
      · exact heq (h.eq_of_clientIp hr hs hip)

section Runs

variable {Cert : Type*} (ssl : OpenSSL Cert)

/-- **Which connects are bound.** In every registry that requests can build, a connect with the
secret of a session and from its address binds the peer to that session if it is registered
first, and is rejected otherwise; to another session it is never bound. -/
theorem connectOwn_binds_running (start : AppState) (events : List (Event Cert))
    {state : AppState}
    (hrun : (launchSystem ssl start.fresh).run start.fresh events = some state)
    (hsecrets : DistinctSecrets state.sessions) {s : SessionRef}
    (hs : s ∈ state.sessions.sessions) (srv : ControlServer) (peer : ENetPeer) :
    (state.sessions.getRunning = some s →
        (connectOwn state.sessions srv peer s).session? peer = some s) ∧
      (state.sessions.getRunning ≠ some s → connectOwn state.sessions srv peer s = srv) := by
  have hdistinct := (distinct_isInvariant ssl start).run (distinct_isInvariant ssl start).init hrun
  have hmatch := matchSession_own hdistinct hsecrets hs
  constructor
  · intro hrunning
    rw [if_pos hrunning] at hmatch
    rw [connectOwn, ControlServer.session?_connect_of_some hmatch, if_pos rfl]
  · intro hrunning
    rw [if_neg hrunning] at hmatch
    exact ControlServer.connect_of_none hmatch

/-! ### Two clients -/

/-- A paired client launches from an address, and draws `n`. -/
def launchAt (ip : String) (n : ℕ) : Event LeafCert :=
  .launch {
    path := ascii "/launch"
    clientCert := some ⟨1, 1⟩
    clientIp := ascii ip
    localIp := ascii "192.168.1.2"
    headers := [(ascii "rikey", ascii "9d804e9d3a7d8f1b2c3d4e5f60718293"),
      (ascii "rikeyid", ascii "16909060")] } (drawn n)

/-- The registry after two launches. -/
def afterTwoLaunches : AppState :=
  (handle leafSsl
    (handle leafSsl pairedStart.fresh (launchAt "192.168.1.20" 7)).state
    (launchAt "192.168.1.21" 8)).state

theorem run_twoLaunches :
    (launchSystem leafSsl pairedStart.fresh).run pairedStart.fresh
      [launchAt "192.168.1.20" 7, launchAt "192.168.1.21" 8] = some afterTwoLaunches := rfl

theorem distinctSecrets_afterTwoLaunches : DistinctSecrets afterTwoLaunches.sessions := by
  change ∀ r ∈ [0, 1], ∀ r' ∈ [0, 1], _
  decide

/-- The second one is registered, and does not get through with its own secret. -/
theorem not_bound_secondLaunch :
    ∃ state, (launchSystem leafSsl pairedStart.fresh).run pairedStart.fresh
        [launchAt "192.168.1.20" 7, launchAt "192.168.1.21" 8] = some state ∧
      DistinctSecrets state.sessions ∧ 1 ∈ state.sessions.sessions ∧
      (connectOwn state.sessions {} 0 1).session? 0 = none :=
  ⟨afterTwoLaunches, run_twoLaunches, distinctSecrets_afterTwoLaunches, by decide, by decide⟩

/-- The first one does. -/
theorem bound_firstLaunch :
    ((0 : SessionRef) ∈ afterTwoLaunches.sessions.sessions) ∧
      (connectOwn afterTwoLaunches.sessions {} 0 0).session? 0 = some 0 :=
  have hmem : (0 : SessionRef) ∈ afterTwoLaunches.sessions.sessions := by decide
  ⟨hmem, (connectOwn_binds_running leafSsl pairedStart
    [launchAt "192.168.1.20" 7, launchAt "192.168.1.21" 8] run_twoLaunches
    distinctSecrets_afterTwoLaunches hmem {} 0).1 rfl⟩

end Runs

end SteamStream.Server
