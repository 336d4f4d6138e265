import SteamStream.Server.Steps
import SteamStream.Server.Isolation

/-!
# Media without a session

`/cancel` takes its session out of the registry first, and stops the media in the holder
afterwards. A `PLAY` looks the session up, and publishes its media much later: when the whole
cancel falls in between, it finds nothing to stop, and the media that are published then belong
to a session that no request can name any more.

That is the only way (`registered_of_along`). As long as a `PLAY` publishes while its session is
registered, or while a `stop_session` for it is still to come, whatever is in the holder is
`Covered` in the same sense, and once no handler runs its session is registered. Conversely a
`PLAY` that publishes otherwise has left media behind as soon as the other threads are done
(`orphaned_of_not_publishesRegistered`).
-/

namespace SteamStream.Server

open Wire Session Control Rest Runs X509

namespace ServerState

/-- A session of that id is in the registry. -/
def Registered (st : ServerState) (sid : ℕ) : Prop :=
  ∃ r ∈ st.sessions.sessions, st.idOf r = sid

/-- No handler is running. -/
structure Quiescent (st : ServerState) : Prop where
  stopPc : ∀ thread, st.stopPc thread = .idle
  playPc : st.playPc = .idle

/-- The session of a media session is registered, or a `stop_session` is about to look for it. -/
def CoveredMedia (st : ServerState) (ms : MediaRef) : Prop :=
  st.Registered (st.mediaId ms) ∨ ∃ thread, st.stopPc thread = .locking (st.mediaId ms)

/-- That is so for what is in the holder, and `main` has installed the callback. -/
structure Covered (st : ServerState) : Prop where
  holder : ∀ ms, st.holder = some ms → st.CoveredMedia ms
  hasStopSession : st.app.hasStopSession = true

theorem registered_congr {st st' : ServerState} {sid : ℕ} (happ : st'.app = st.app) :
    st'.Registered sid ↔ st.Registered sid := by
  simp only [Registered, idOf, sessions, happ]

end ServerState

open ServerState

/-- A `PLAY` publishes the media of a session that is registered, or that a `stop_session` is
about to look for. -/
def PublishesRegistered {Cert : Type} (st : ServerState) : ServerEvent Cert → Prop
  | .playPublish => ∀ ms, st.playPc = .publish ms → st.CoveredMedia ms
  | _ => True

section Step

variable {Cert : Type} {ssl : OpenSSL Cert} {st st' : ServerState} {event : ServerEvent Cert}
  {ms : MediaRef}

/-- The callback stays. -/
theorem serverStep_hasStopSession (h : serverStep ssl st event = some st') :
    st'.app.hasStopSession = st.app.hasStopSession := by
  cases event with
  | https request =>
    simp only [serverStep] at h
    split_ifs at h
    obtain rfl := Option.some.inj h
    exact handle_hasStopSession
  | stopLock thread =>
    obtain ⟨sid, -, ⟨victim, -, -, rfl⟩ | ⟨-, rfl⟩⟩ := serverStep_stopLock h
    · rw [app_setStopPc]
    · rw [app_setStopPc]
  | stopDone thread =>
    obtain ⟨victim, -, rfl⟩ := serverStep_stopDone h
    rw [app_setStopPc]
    rfl
  | _ =>
    simp only [serverStep] at h
    repeat' split at h
    all_goals cases h
    all_goals rfl

/-- A registered session stays, unless a cancel drops it and goes on to stop its media. -/
theorem registered_or_locking {sid : ℕ} (hstop : st.app.hasStopSession = true)
    (h : serverStep ssl st event = some st') (hsid : st.Registered sid) :
    st'.Registered sid ∨ st'.stopPc .https = .locking sid := by
  obtain ⟨r, hr, hid⟩ := hsid
  have hid' : st'.idOf r = sid :=
    ((serverStep_extends h).idOf_eq (st.sessions.sessions_lt r hr)).trans hid
  by_cases hhttps : ∃ request, event = .https request
  · obtain ⟨request, rfl⟩ := hhttps
    simp only [serverStep] at h
    split_ifs at h
    obtain rfl := Option.some.inj h
    have hcases : r ∈ (handle ssl st.app request).state.sessions.sessions ∨
        (handle ssl st.app request).stopped = some (st.idOf r) := mem_handle_or_stopped hstop hr
    rcases hcases with hmem | hstopped
    · exact .inl ⟨r, hmem, hid'⟩
    · right
      simp only [stopPc, hstopped]
      exact congrArg _ hid
  · left
    have hsame := serverStep_sessions h fun request heq => hhttps ⟨request, heq⟩
    exact ⟨r, hsame.symm ▸ hr, hid'⟩

/-- What is in the holder before and after a step stays covered. -/
theorem coveredMedia_step (hwf : st.WellFormed) (hcovered : st.Covered)
    (h : serverStep ssl st event = some st') (hms : st.holder = some ms)
    (hms' : st'.holder = some ms) : st'.CoveredMedia ms := by
  have hid : st'.mediaId ms = st.mediaId ms := by
    refine (serverStep_extends h).mediaId_eq hwf (hwf.mediaRefs_lt ms ?_)
    simp [mediaRefs, hms]
  rcases hcovered.holder ms hms with hregistered | ⟨thread, hlocking⟩
  · rcases registered_or_locking hcovered.hasStopSession h hregistered with hsid | hsid
    · exact .inl (hid.symm ▸ hsid)
    · exact .inr ⟨.https, hid.symm ▸ hsid⟩
  · rcases serverStep_stopPc h thread with heq | ⟨hidle, -⟩ | rfl | rfl
    · exact .inr ⟨thread, (heq.trans hlocking).trans (hid.symm ▸ rfl)⟩
    · cases hlocking.symm.trans hidle
    · -- the critical section takes it out
      obtain ⟨sid, hpc, ⟨victim, -, -, rfl⟩ | ⟨hnone, -⟩⟩ := serverStep_stopLock h
      · rw [holder_setStopPc] at hms'
        cases hms'
      · exact absurd (StopPc.locking.inj (hlocking.symm.trans hpc)) (hnone ms hms)
    · obtain ⟨victim, hpc, -⟩ := serverStep_stopDone h
      cases hlocking.symm.trans hpc

/-- A step that meets the condition keeps the holder covered. -/
theorem serverStep_covered (hwf : st.WellFormed) (hcovered : st.Covered)
    (hpublishes : PublishesRegistered st event) (h : serverStep ssl st event = some st') :
    st'.Covered where
  hasStopSession := (serverStep_hasStopSession h).trans hcovered.hasStopSession
  holder ms hms := by
    rcases serverStep_cases h with ⟨hsame | hnone, -⟩ | ⟨rfl, ms', hpc, hholder, -⟩ |
      ⟨_, _, _, -, hsame, -⟩ | ⟨_, -, hsame, -⟩
    · exact coveredMedia_step hwf hcovered h (hsame ▸ hms) hms
    · cases hnone.symm.trans hms
    · -- what was just published
      obtain rfl := Option.some.inj (hholder.symm.trans hms)
      obtain ⟨ms'', hpc', rfl⟩ := serverStep_playPublish h
      rcases hpublishes ms' hpc with hregistered | ⟨thread, hlocking⟩
      · exact .inl hregistered
      · exact .inr ⟨thread, by cases thread <;> exact hlocking⟩
    · exact coveredMedia_step hwf hcovered h (hsame ▸ hms) hms
    · exact coveredMedia_step hwf hcovered h (hsame ▸ hms) hms

end Step

section Runs

variable {Cert : Type} (ssl : OpenSSL Cert) (app : AppState)

theorem covered_isInvariantUnder (happ : app.hasStopSession = true) :
    System.IsInvariantUnder (serverSystem ssl app) PublishesRegistered
      fun st => st.WellFormed ∧ st.Covered where
  init := ⟨(wellFormed_isInvariant app).init, nofun, happ⟩
  step hst hpublishes hstep :=
    ⟨serverStep_wellFormed hst.1 hstep, serverStep_covered hst.1 hst.2 hpublishes hstep⟩

/-- **When media have a session.** In a run in which every `PLAY` publishes while its session is
registered, or while a `stop_session` for it is still to come: whenever no handler runs, the
session of the media in the holder is in the registry. -/
theorem registered_of_along (happ : app.hasStopSession = true)
    (events : List (ServerEvent Cert)) {st : ServerState} {ms : MediaRef}
    (halong : (serverSystem ssl app).Along PublishesRegistered (serverSystem ssl app).init events)
    (hrun : (serverSystem ssl app).run (serverSystem ssl app).init events = some st)
    (hquiescent : st.Quiescent) (hms : st.holder = some ms) :
    st.Registered (st.mediaId ms) := by
  have hinv := covered_isInvariantUnder ssl app happ
  obtain ⟨-, hcovered⟩ := hinv.run hinv.init halong hrun
  rcases hcovered.holder ms hms with hregistered | ⟨thread, hlocking⟩
  · exact hregistered
  · cases (hquiescent.stopPc thread).symm.trans hlocking

/-! ### Every other publish leaves media behind -/

variable {st st' : ServerState} {ms : MediaRef}

/-- A thread that is not looking for the media in the holder can come to rest and leaves them
there. -/
theorem exists_idle (hwf : st.WellFormed) (hms : st.holder = some ms) (thread : StopThread)
    (hlocking : st.stopPc thread ≠ .locking (st.mediaId ms)) :
    ∃ events st', (serverSystem ssl app).run st events = some st' ∧ st'.stopPc thread = .idle ∧
      (∀ other, other ≠ thread → st'.stopPc other = st.stopPc other) ∧
      st'.playPc = st.playPc ∧ st'.holder = some ms ∧ st'.app = st.app ∧
      st'.mediaId ms = st.mediaId ms := by
  cases hpc : st.stopPc thread with
  | idle => exact ⟨[], st, rfl, hpc, fun _ _ => rfl, rfl, hms, rfl, rfl⟩
  | locking sid =>
    have hsid : st.mediaId ms ≠ sid := fun heq => hlocking (heq.symm ▸ hpc)
    have hstep : serverStep ssl st (.stopLock thread) = some (st.setStopPc .idle thread) := by
      simp only [serverStep, hpc, stopSessionLock, hms, if_neg hsid]
    refine ⟨[.stopLock thread], st.setStopPc .idle thread, ?_, stopPc_setStopPc_self,
      fun other hne => ?_,
      playPc_setStopPc, holder_setStopPc.trans hms, app_setStopPc, ?_⟩
    · exact Option.bind_eq_some_iff.mpr ⟨_, hstep, rfl⟩
    · exact stopPc_setStopPc_of_ne hne
    · refine (serverStep_extends hstep).mediaId_eq hwf (hwf.mediaRefs_lt ms ?_)
      simp [mediaRefs, hms]
  | stopping victim =>
    have hstep : serverStep ssl st (.stopDone thread) =
        some ((st.stopMedia victim).setStopPc .idle thread) := by
      simp only [serverStep, hpc]
    refine ⟨[.stopDone thread], (st.stopMedia victim).setStopPc .idle thread, ?_,
      stopPc_setStopPc_self, fun other hne => ?_,
      playPc_setStopPc, holder_setStopPc.trans hms, app_setStopPc, ?_⟩
    · exact Option.bind_eq_some_iff.mpr ⟨_, hstep, rfl⟩
    · rw [stopPc_setStopPc_of_ne hne]
      cases other <;> rfl
    · refine (serverStep_extends hstep).mediaId_eq hwf (hwf.mediaRefs_lt ms ?_)
      simp [mediaRefs, hms]

/-- A step that does not meet the condition leads to media without a session as soon as the
other threads have come to rest. -/
theorem orphaned_of_not_publishesRegistered {event : ServerEvent Cert} (hwf : st.WellFormed)
    (h : serverStep ssl st event = some st') (hnot : ¬ PublishesRegistered st event) :
    ∃ events st'', (serverSystem ssl app).run st' events = some st'' ∧ st''.Quiescent ∧
      ∃ ms, st''.holder = some ms ∧ ¬ st''.Registered (st''.mediaId ms) := by
  cases event with
  | playPublish =>
    obtain ⟨ms, hpc, rfl⟩ := serverStep_playPublish h
    have huncovered : ¬ st.CoveredMedia ms := by
      refine fun hcovered => hnot fun ms' hms' => ?_
      exact PlayPc.publish.inj (hpc.symm.trans hms') ▸ hcovered
    have hwf' := serverStep_wellFormed hwf h
    obtain ⟨events₁, st₁, hrun₁, hhttps, hother₁, hplay₁, hms₁, happ₁, hid₁⟩ :=
      exists_idle ssl app hwf' rfl .https
        fun hlocking => huncovered (.inr ⟨.https, hlocking⟩)
    obtain ⟨events₂, st₂, hrun₂, hcontrol, hother₂, hplay₂, hms₂, happ₂, hid₂⟩ :=
      exists_idle ssl app ((wellFormed_isInvariant app).run hwf' hrun₁) hms₁
        .control fun hlocking => by
          rw [hother₁ .control nofun, hid₁] at hlocking
          exact huncovered (.inr ⟨.control, hlocking⟩)
    refine ⟨events₁ ++ events₂, st₂, ?_, ⟨fun thread => ?_, ?_⟩, ms, hms₂, ?_⟩
    · rw [System.run_append, hrun₁]
      exact hrun₂
    · cases thread with
      | https => exact (hother₂ .https nofun).trans hhttps
      | control => exact hcontrol
    · exact hplay₂.trans hplay₁
    · rw [hid₂, hid₁, registered_congr (happ₂.trans happ₁)]
      exact fun hregistered => huncovered (.inl hregistered)
  | _ => exact absurd trivial hnot

/-! ### A cancel in between -/

/-- The client of `launchFrom` cancels. -/
def cancelFrom (ip : String) : ServerEvent LeafCert :=
  .https (.cancel {
    path := ascii "/cancel"
    clientCert := some ⟨1, 1⟩
    clientIp := ascii ip
    localIp := ascii "192.168.1.2"
    headers := [] })

/-- A client launches and plays, and cancels before its `PLAY` publishes. -/
def cancelledPlay : List (ServerEvent LeafCert) :=
  [launchFrom "192.168.1.20" 7,
    .play (ascii "7.7.7.7") (ascii "7.7.7.7") (ascii "192.168.1.20"), .playLookup,
    cancelFrom "192.168.1.20", .stopLock .https,
    .playRead, .playCheck, .playSwap, .playStarted true, .playPublish]

/-- The media are then left without a session. -/
theorem orphaned_cancelledPlay :
    ∃ st, (serverSystem leafSsl pairedStart).run (serverSystem leafSsl pairedStart).init
        cancelledPlay = some st ∧
      st.Quiescent ∧ ∃ ms, st.holder = some ms ∧ ¬ st.Registered (st.mediaId ms) := by
  refine ⟨_, rfl, ⟨fun thread => ?_, rfl⟩, 0, rfl, ?_⟩
  · cases thread <;> rfl
  · rintro ⟨r, hr, -⟩
    exact absurd hr List.not_mem_nil

/-- A client launches and plays to the end: no handler runs, and its session is registered. -/
def launchedPlay : List (ServerEvent LeafCert) :=
  [launchFrom "192.168.1.20" 7,
    .play (ascii "7.7.7.7") (ascii "7.7.7.7") (ascii "192.168.1.20"), .playLookup,
    .playRead, .playCheck, .playSwap, .playStarted true, .playPublish]

theorem registered_launchedPlay :
    ∃ st, (serverSystem leafSsl pairedStart).run (serverSystem leafSsl pairedStart).init
        launchedPlay = some st ∧ st.holder = some 0 ∧ st.Registered (st.mediaId 0) := by
  have halong : (serverSystem leafSsl pairedStart).Along PublishesRegistered
      (serverSystem leafSsl pairedStart).init launchedPlay := by
    -- only the last step publishes
    have hfront : ∀ event ∈ launchedPlay.dropLast, ∀ st, PublishesRegistered st event := by
      simp [launchedPlay, launchFrom, PublishesRegistered]
    have hsplit : launchedPlay = launchedPlay.dropLast ++ [.playPublish] := rfl
    rw [hsplit]
    refine System.along_append_iff.mpr
      ⟨System.along_of_forall hfront, fun st hst => ⟨fun ms hms => ?_, ?_⟩⟩
    · obtain rfl := Option.some.inj hst
      obtain rfl := PlayPc.publish.inj hms
      exact .inl ⟨0, List.mem_singleton_self 0, rfl⟩
    · exact fun _ _ => trivial
  refine ⟨_, rfl, rfl, registered_of_along leafSsl pairedStart rfl launchedPlay halong rfl ?_ rfl⟩
  exact ⟨fun thread => by cases thread <;> rfl, rfl⟩

end Runs

end SteamStream.Server
