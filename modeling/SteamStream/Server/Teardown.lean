import SteamStream.Server.Threads

/-!
# Teardown before launch

`stop_session` takes a media session out of the holder and stops it when it has released the
mutex; the control thread keeps a reference to what is in the holder for the length of an input
packet. A `PLAY` that launches looks only at the holder: what other threads still have to stop or
to destroy does not keep it from starting its app next to the other one.

`startsAlone_along` says that this is the only way to a launch during a teardown: a `PLAY` has to
run its swap while another thread has a `shared_ptr` to a media session. Conversely such a swap
can be followed by the launch (`start_during_stop_of_not_swapsAfterTeardown`).
-/

namespace SteamStream.Server

open Wire Session Control Rest Runs X509

/-- A step that begins `MediaSession::start` does so while no media session is being stopped. -/
def StartsAlone {Cert : Type} (ssl : OpenSSL Cert) (p : Process) (event : ThreadEvent Cert) :
    Prop :=
  ∀ sess, event = .call .rtsp → p.server.playPc = .start sess →
    (threadStep ssl p event).isSome → ∀ victim, ¬ p.InStop victim

/-- The thread has a `shared_ptr` to a media session: it works with it or is about to destroy
it. -/
def Process.Owns (p : Process) (thread : Thread) : Prop :=
  (p.server.held thread).isSome ∨ (p.expiring thread).isSome

/-- No `PLAY` runs its swap while another thread has a media session. -/
def SwapsAfterTeardown {Cert : Type} (p : Process) : ThreadEvent Cert → Prop
  | .server .playSwap => ∀ thread : StopThread, ¬ p.Owns (.stop thread)
  | _ => True

/-- While something is launched, no other thread has a media session. -/
def Process.TeardownFirst (p : Process) : Prop :=
  p.server.playPc.Launching → ∀ thread : StopThread, ¬ p.Owns (.stop thread)

section Step

open ServerState

variable {Cert : Type} {ssl : OpenSSL Cert} {st st' : ServerState} {event : ServerEvent Cert}
  {p p' : Process}

theorem Process.not_owns_iff {thread : Thread} :
    ¬ p.Owns thread ↔ p.server.held thread = none ∧ p.expiring thread = none := by
  simp only [Process.Owns, not_or, Option.not_isSome_iff_eq_none]

/-- A launch goes on, or begins with the swap. -/
theorem serverStep_launching (h : serverStep ssl st event = some st')
    (hlaunching : st'.playPc.Launching) : st.playPc.Launching ∨ event = .playSwap := by
  rcases serverStep_playPc h with hsame | hnext
  · exact .inl (hsame ▸ hlaunching)
  · cases event with
    | playSwap => exact .inr rfl
    | playStopped =>
      obtain ⟨sess, previous, hpc, -⟩ := serverStep_playStopped h
      exact .inl (hpc ▸ trivial)
    | playStarted video =>
      obtain ⟨sess, hpc, -⟩ := serverStep_playStarted h
      exact .inl (hpc ▸ trivial)
    | play uriIp hostOpt peerIp =>
      obtain ⟨-, rfl | ⟨s, rfl⟩⟩ := serverStep_play h
      · exact .inl hlaunching
      · exact hlaunching.elim
    | playLookup =>
      obtain ⟨s, -, ⟨-, rfl⟩ | ⟨sess, -, rfl⟩⟩ := serverStep_playLookup h
      · exact hlaunching.elim
      · exact hlaunching.elim
    | playRead =>
      obtain ⟨s, sess, -, rfl⟩ := serverStep_playRead h
      exact hlaunching.elim
    | playCheck =>
      obtain ⟨s, sess, found, -, ⟨existing, -, -, rfl⟩ | ⟨-, rfl⟩⟩ := serverStep_playCheck h
      · exact hlaunching.elim
      · exact hlaunching.elim
    | playPublish =>
      obtain ⟨ms, -, rfl⟩ := serverStep_playPublish h
      exact hlaunching.elim
    | _ => cases hpc : st.playPc <;> rw [hpc] at hnext <;> exact hnext.elim

/-- Another thread gets hold of a media session out of the holder only. -/
theorem serverStep_held (h : serverStep ssl st event = some st') (hnone : st.holder = none)
    {thread : StopThread} (hheld : st.held (.stop thread) = none) :
    st'.held (.stop thread) = none := by
  change (st'.stopPc thread).held = none
  rcases serverStep_stopPc h thread with hsame | ⟨-, sid, hlocking⟩ | rfl | rfl
  · rw [hsame]
    exact hheld
  · rw [hlocking]
    rfl
  · obtain ⟨sid, -, ⟨victim, hholder, -⟩ | ⟨-, rfl⟩⟩ := serverStep_stopLock h
    · cases hnone.symm.trans hholder
    · rw [stopPc_setStopPc_self]
      rfl
  · obtain ⟨victim, -, rfl⟩ := serverStep_stopDone h
    rw [stopPc_setStopPc_self]
    rfl

/-- What another thread lets go of it had, or it has just copied the holder. -/
theorem dropped_eq_none (hnone : st.holder = none) {thread : StopThread}
    (hthread : event.thread = .stop thread) (hheld : st.held (.stop thread) = none) :
    st.dropped event = none := by
  cases event with
  | stopDone other =>
    obtain rfl := Thread.stop.inj hthread
    exact hheld
  | receive machine peer pkt =>
    simp only [ServerState.dropped, mediaAccessor]
    split_ifs
    · exact hnone
    · rfl
  | playCheck => cases hthread
  | playStopped => cases hthread
  | playPublish => cases hthread
  | _ => rfl

/-- A step of the process that meets the condition keeps the other threads out of a launch. -/
theorem threadStep_teardownFirst {event : ThreadEvent Cert} (hhandover : p.server.Handover)
    (hp : p.TeardownFirst) (hswaps : SwapsAfterTeardown p event)
    (h : threadStep ssl p event = some p') : p'.TeardownFirst := by
  intro hlaunching thread
  cases event with
  | server event =>
    obtain ⟨hstep, -, -, -, hexpiring, -⟩ := threadStep_server_cases h
    have hbefore : ¬ p.Owns (.stop thread) := by
      rcases serverStep_launching hstep hlaunching with hbefore | rfl
      · exact hp hbefore thread
      · exact hswaps thread
    obtain ⟨hheld, hnone⟩ := Process.not_owns_iff.mp hbefore
    rw [Process.not_owns_iff, hexpiring]
    rcases serverStep_launching hstep hlaunching with hlaunched | rfl
    · have hholder := hhandover.launching hlaunched
      refine ⟨serverStep_held hstep hholder hheld, ?_⟩
      by_cases hthread : event.thread = .stop thread
      · rw [hthread, Function.update_self]
        exact dropped_eq_none hholder hthread hheld
      · rw [Function.update_of_ne (Ne.symm hthread)]
        exact hnone
    · -- the swap itself is on the RTSP thread
      have hother : Thread.stop thread ≠ (ServerEvent.playSwap : ServerEvent Cert).thread := nofun
      refine ⟨?_, (Function.update_of_ne hother ..).trans hnone⟩
      obtain ⟨sess, -, ⟨-, heq⟩ | ⟨previous, -, heq⟩⟩ := serverStep_playSwap hstep
      · rw [heq]
        cases thread <;> exact hheld
      · rw [heq]
        cases thread <;> exact hheld
  | release other =>
    obtain ⟨-, rfl | rfl⟩ := threadStep_release h
    · exact hp hlaunching thread
    · obtain ⟨hheld, hnone⟩ := Process.not_owns_iff.mp (hp hlaunching thread)
      refine Process.not_owns_iff.mpr ⟨hheld, ?_⟩
      exact (Function.update_apply ..).trans (by rw [hnone, ite_self])
  | destroyed other =>
    obtain ⟨-, rfl⟩ := threadStep_destroyed h
    obtain ⟨hheld, hnone⟩ := Process.not_owns_iff.mp (hp hlaunching thread)
    refine Process.not_owns_iff.mpr ⟨hheld, ?_⟩
    exact (Function.update_apply ..).trans (by rw [hnone, ite_self])
  | lock other =>
    obtain rfl := threadStep_lock h
    exact hp hlaunching thread
  | unlock other =>
    obtain rfl := threadStep_unlock h
    exact hp hlaunching thread
  | call other =>
    obtain ⟨-, -, rfl⟩ := threadStep_call h
    exact hp hlaunching thread

end Step

section Runs

variable {Cert : Type} (ssl : OpenSSL Cert) (app : AppState)

theorem teardownFirst_isInvariantUnder :
    System.IsInvariantUnder (threadSystem ssl app) SwapsAfterTeardown
      fun p => p.server.Handover ∧ p.TeardownFirst where
  init := ⟨(process_handover_isInvariant ssl app).init, fun hlaunching => hlaunching.elim⟩
  step hp hswaps hstep :=
    ⟨(process_handover_isInvariant ssl app).step hp.1 hstep,
      threadStep_teardownFirst hp.1 hp.2 hswaps hstep⟩

/-- **When a launch waits for the teardown.** In a run in which no `PLAY` runs its swap while
another thread has a `shared_ptr` to a media session, no `MediaSession::start` begins while the
`stop()` of a media session is in progress, be it one that a thread has called or that of a
destructor. -/
theorem startsAlone_along (events : List (ThreadEvent Cert))
    (h : (threadSystem ssl app).Along SwapsAfterTeardown (threadSystem ssl app).init events) :
    (threadSystem ssl app).Along (StartsAlone ssl) (threadSystem ssl app).init events := by
  have hinv := teardownFirst_isInvariantUnder ssl app
  refine hinv.along (fun p event hp _ => ?_) hinv.init h
  rintro sess rfl hstart henabled victim hin
  have hothers := hp.2 (hstart ▸ trivial)
  rcases hin with (⟨thread, hstop, -⟩ | ⟨sess', hstop, -⟩) | ⟨thread, hexpiring, -⟩
  · have hheld : p.server.held (.stop thread) = some victim := congrArg StopPc.held hstop
    exact hothers thread (.inl (by rw [hheld]; rfl))
  · cases hstart.symm.trans hstop
  · cases thread with
    | stop thread => exact hothers thread (.inr (by rw [hexpiring]; rfl))
    | rtsp =>
      obtain ⟨p', hcall⟩ := Option.isSome_iff_exists.mp henabled
      cases (expiring_of_call hcall).symm.trans hexpiring

/-! ### A swap that does not wait -/

/-- A thread that is about to destroy a reference works with no other one. -/
def Process.Tidy (p : Process) : Prop :=
  ∀ thread : StopThread, (p.expiring (.stop thread)).isSome → p.server.held (.stop thread) = none

private theorem isSome_of_update {f : Thread → Option MediaRef} {thread other : Thread}
    (h : (Function.update f other none thread).isSome) : (f thread).isSome := by
  by_cases heq : thread = other
  · rw [heq, Function.update_self] at h
    cases h
  · rwa [Function.update_of_ne heq] at h

private theorem tidy_of_server {ssl : OpenSSL Cert} {p p' : Process} {event : ServerEvent Cert}
    (hp : p.Tidy) (h : threadStep ssl p (.server event) = some p') : p'.Tidy := by
  obtain ⟨hstep, -, -, -, heq, -⟩ := threadStep_server_cases h
  intro thread hexpiring
  rw [heq] at hexpiring
  by_cases hthread : event.thread = .stop thread
  · rw [hthread, Function.update_self] at hexpiring
    cases event with
    | stopDone other =>
      obtain rfl := Thread.stop.inj hthread
      obtain ⟨victim, -, hserver⟩ := serverStep_stopDone hstep
      change (p'.server.stopPc other).held = none
      rw [hserver, ServerState.stopPc_setStopPc_self]
      rfl
    | receive machine peer pkt =>
      obtain rfl := Thread.stop.inj hthread
      change (p'.server.stopPc .control).held = none
      have hidle : p.server.stopPc .control = .idle := by
        simp only [serverStep] at hstep
        split_ifs at hstep with hidle
        exact hidle
      rcases (serverStep_passive hstep trivial).2 .control with hsame | ⟨-, sid, hlocking⟩
      · rw [hsame, hidle]
        rfl
      · rw [hlocking]
        rfl
    | playCheck => cases hthread
    | playStopped => cases hthread
    | playPublish => cases hthread
    | _ => cases hexpiring
  · rw [Function.update_of_ne (Ne.symm hthread)] at hexpiring
    have hheld := hp thread hexpiring
    change (p'.server.stopPc thread).held = none
    rcases serverStep_stopPc hstep thread with hsame | ⟨-, sid, hlocking⟩ | rfl | rfl
    · rw [hsame]
      exact hheld
    · rw [hlocking]
      rfl
    · exact absurd rfl hthread
    · exact absurd rfl hthread

theorem tidy_isInvariant : (threadSystem ssl app).IsInvariant Process.Tidy where
  init thread h := nomatch h
  step {p p' event} hp h := by
    change threadStep ssl p event = some p' at h
    cases event with
    | server event => exact tidy_of_server hp h
    | release other =>
      obtain ⟨-, rfl | rfl⟩ := threadStep_release h
      · exact hp
      · exact fun thread hexpiring => hp thread (isSome_of_update hexpiring)
    | destroyed other =>
      obtain ⟨-, rfl⟩ := threadStep_destroyed h
      exact fun thread hexpiring => hp thread (isSome_of_update hexpiring)
    | lock other =>
      obtain rfl := threadStep_lock h
      exact hp
    | unlock other =>
      obtain rfl := threadStep_unlock h
      exact hp
    | call other =>
      obtain ⟨-, -, rfl⟩ := threadStep_call h
      exact hp

theorem callsBegun_isInvariant : (threadSystem ssl app).IsInvariant Process.CallsBegun where
  init _ h := absurd h Bool.false_ne_true
  step hp h := threadStep_callsBegun hp h

/-- The RTSP thread is in front of the call of `MediaSession::start`. -/
structure Process.AboutToStart (p : Process) : Prop where
  mediaMtx : p.mediaMtx = .free
  start : ∃ sess, p.server.playPc = .start sess
  begun : p.begun .rtsp = false
  expiring : p.expiring .rtsp = none
  holder : p.server.holder = none

variable {ssl app} {p p' : Process} {thread : StopThread} {ms : MediaRef}

theorem Mutex.ne_leaving {mtx : Mutex} (h : mtx = .free) (thread : Thread) :
    mtx ≠ .leaving thread := by
  simp [h]

theorem stop_ne_rtsp (thread : StopThread) : Thread.stop thread ≠ .rtsp := by simp

/-- If it is quick enough, it starts during a `stop()`. -/
theorem Process.AboutToStart.not_startsAlone (hp : p.AboutToStart) (hin : p.InStop ms) :
    ¬ StartsAlone ssl p (.call .rtsp) := by
  intro halone
  obtain ⟨sess, hstart⟩ := hp.start
  refine halone sess rfl hstart ?_ ms hin
  have hcall : p.server.atCall .rtsp = true := by
    rw [ServerState.atCall, hstart]
    rfl
  have hmtx : p.mediaMtx ≠ .leaving .rtsp := Mutex.ne_leaving hp.mediaMtx _
  rw [threadStep, if_pos ⟨hcall, hp.begun, hmtx, hp.expiring⟩]
  rfl

/-- The other thread calls `stop()`. -/
theorem Process.AboutToStart.exists_call (hp : p.AboutToStart)
    (hstop : p.server.stopPc thread = .stopping ms) (hexpiring : p.expiring (.stop thread) = none) :
    ∃ events q, (threadSystem ssl app).run p events = some q ∧
      ¬ StartsAlone ssl q (.call .rtsp) := by
  cases hbegun : p.begun (.stop thread) with
  | true => exact ⟨[], p, rfl, hp.not_startsAlone (.inl (.inl ⟨thread, hstop, hbegun⟩))⟩
  | false =>
    let q : Process := { p with begun := Function.update p.begun (.stop thread) true }
    have hcall : p.server.atCall (.stop thread) = true := by
      rw [ServerState.atCall, hstop]
      rfl
    have hmtx : p.mediaMtx ≠ .leaving (.stop thread) := Mutex.ne_leaving hp.mediaMtx _
    have hstep : threadStep ssl p (.call (.stop thread)) = some q :=
      if_pos ⟨hcall, hbegun, hmtx, hexpiring⟩
    have hne : Thread.rtsp ≠ .stop thread := (stop_ne_rtsp thread).symm
    have hrtsp : q.begun .rtsp = p.begun .rtsp := Function.update_of_ne hne true p.begun
    have hq : q.AboutToStart := { hp with begun := hrtsp.trans hp.begun }
    exact ⟨[.call (.stop thread)], q, System.run_cons_of_step hstep,
      hq.not_startsAlone (.inl (.inl ⟨thread, hstop, Function.update_self ..⟩))⟩

/-- Who still has a reference: the other threads that are about to destroy one. -/
theorem Process.AboutToStart.useCount_eq (hp : p.AboutToStart)
    (hheld : ∀ thread : StopThread, p.server.held (.stop thread) = none) :
    p.useCount ms =
      [p.expiring (.stop .https), p.expiring (.stop .control)].count (some ms) := by
  obtain ⟨sess, hstart⟩ := hp.start
  have hrtsp : p.server.held .rtsp = none := congrArg PlayPc.held hstart
  simp [Process.useCount, Thread.all, hp.holder, hheld, hrtsp, hp.expiring, List.count_cons]

/-- The last one destroys it. -/
theorem Process.AboutToStart.exists_release (hp : p.AboutToStart)
    (hexpiring : p.expiring (.stop thread) = some ms)
    (hdestroying : p.destroying (.stop thread) = false) (hlast : p.useCount ms = 1) :
    ∃ events q, (threadSystem ssl app).run p events = some q ∧
      ¬ StartsAlone ssl q (.call .rtsp) := by
  let q : Process := { p with destroying := Function.update p.destroying (.stop thread) true }
  have hmtx : p.mediaMtx ≠ .leaving (.stop thread) := Mutex.ne_leaving hp.mediaMtx _
  have hstep : threadStep ssl p (.release (.stop thread)) = some q := by
    simp only [threadStep, hexpiring]
    rw [if_pos ⟨hdestroying, hmtx⟩, if_pos hlast]
  have hq : q.AboutToStart := { hp with }
  exact ⟨[.release (.stop thread)], q, System.run_cons_of_step hstep,
    hq.not_startsAlone (.inr ⟨.stop thread, hexpiring, Function.update_self ..⟩)⟩

/-- As long as another thread has a media session, the start can come while it is stopped. -/
theorem Process.AboutToStart.exists_start (hp : p.AboutToStart) (htidy : p.Tidy)
    (howns : p.Owns (.stop thread)) :
    ∃ events q, (threadSystem ssl app).run p events = some q ∧
      ¬ StartsAlone ssl q (.call .rtsp) := by
  by_cases hheld : ∀ thread : StopThread, p.server.held (.stop thread) = none
  · by_cases hdestroying : ∃ thread victim,
        p.expiring (.stop thread) = some victim ∧ p.destroying (.stop thread) = true
    · obtain ⟨thread, victim, hexpiring, hdestroying⟩ := hdestroying
      exact ⟨[], p, rfl, hp.not_startsAlone (.inr ⟨.stop thread, hexpiring, hdestroying⟩)⟩
    · simp only [not_exists, not_and, Bool.not_eq_true] at hdestroying
      have hsome : (p.expiring (.stop thread)).isSome := by
        rcases howns with hsome | hsome
        · rw [hheld thread] at hsome
          cases hsome
        · exact hsome
      obtain ⟨ms, hexpiring⟩ := Option.isSome_iff_exists.mp hsome
      by_cases hlast : p.useCount ms = 1
      · exact hp.exists_release hexpiring (hdestroying thread ms hexpiring) hlast
      · -- both threads have it, so the second one to let go of it destroys it
        have hcount := @Process.AboutToStart.useCount_eq _ ms hp hheld
        have hboth : p.expiring (.stop .https) = some ms ∧
            p.expiring (.stop .control) = some ms := by
          rw [hcount] at hlast
          cases thread <;>
            simpa [List.count_cons, hexpiring] using hlast
        let q : Process := { p with expiring := Function.update p.expiring (.stop .https) none }
        have hmtx : p.mediaMtx ≠ .leaving (.stop .https) := Mutex.ne_leaving hp.mediaMtx _
        have hstep : threadStep ssl p (.release (.stop .https)) = some q := by
          simp only [threadStep, hboth.1]
          rw [if_pos ⟨hdestroying _ _ hboth.1, hmtx⟩, if_neg hlast]
        have hother : ∀ thread, thread ≠ .stop .https → q.expiring thread = p.expiring thread :=
          fun thread hne => Function.update_of_ne hne ..
        have hq : q.AboutToStart := {
          hp with expiring := (hother .rtsp (by decide)).trans hp.expiring }
        have hcontrol : q.expiring (.stop .control) = some ms :=
          (hother _ (by decide)).trans hboth.2
        have hhttps : q.expiring (.stop .https) = none :=
          Function.update_self (Thread.stop .https) none p.expiring
        have hone : q.useCount ms = 1 := by
          rw [hq.useCount_eq hheld, hhttps, hcontrol]
          simp
        obtain ⟨events, r, hrun, hnot⟩ := @Process.AboutToStart.exists_release
          _ ssl app _ _ _ hq hcontrol (hdestroying _ _ hboth.2) hone
        exact ⟨.release (.stop .https) :: events, r,
          (System.run_cons_of_step hstep).trans hrun, hnot⟩
  · simp only [not_forall] at hheld
    obtain ⟨thread, hheld⟩ := hheld
    have hnone : p.expiring (.stop thread) = none := by
      by_contra hsome
      exact hheld (htidy thread (Option.isSome_iff_ne_none.mpr hsome))
    cases hpc : p.server.stopPc thread with
    | stopping victim => exact hp.exists_call hpc hnone
    | idle => exact absurd (congrArg StopPc.held hpc) hheld
    | locking sid => exact absurd (congrArg StopPc.held hpc) hheld

/-- A thread that has something to destroy gets done with it. -/
theorem exists_expired (hexpiring : p.expiring .rtsp = some ms) (hmtx : p.mediaMtx = .free) :
    ∃ events q, (threadSystem ssl app).run p events = some q ∧ q.server = p.server ∧
      q.mediaMtx = .free ∧ q.begun = p.begun ∧
        q.expiring = Function.update p.expiring .rtsp none := by
  have hend : ∀ q : Process, q.destroying .rtsp = true → threadStep ssl q (.destroyed .rtsp) =
      some { q with
        expiring := Function.update q.expiring .rtsp none
        destroying := Function.update q.destroying .rtsp false } := fun q hq => if_pos hq
  cases hdestroying : p.destroying .rtsp with
  | true =>
    exact ⟨[.destroyed .rtsp], _, System.run_cons_of_step (hend p hdestroying), rfl, hmtx, rfl, rfl⟩
  | false =>
    have hfree : p.mediaMtx ≠ .leaving .rtsp := Mutex.ne_leaving hmtx _
    by_cases hlast : p.useCount ms = 1
    · let q : Process := { p with destroying := Function.update p.destroying .rtsp true }
      have hstep : threadStep ssl p (.release .rtsp) = some q := by
        simp only [threadStep, hexpiring]
        rw [if_pos ⟨hdestroying, hfree⟩, if_pos hlast]
      have hin : q.destroying .rtsp = true := Function.update_self Thread.rtsp true p.destroying
      let r : Process := { q with
        expiring := Function.update p.expiring .rtsp none
        destroying := Function.update q.destroying .rtsp false }
      have hrun : (threadSystem ssl app).run p [.release .rtsp, .destroyed .rtsp] = some r :=
        (System.run_cons_of_step (t := q) hstep).trans (System.run_cons_of_step (hend q hin))
      exact ⟨_, r, hrun, rfl, hmtx, rfl, rfl⟩
    · have hstep : threadStep ssl p (.release .rtsp) =
          some { p with expiring := Function.update p.expiring .rtsp none } := by
        simp only [threadStep, hexpiring]
        rw [if_pos ⟨hdestroying, hfree⟩, if_neg hlast]
      exact ⟨[.release .rtsp], _, System.run_cons_of_step hstep, rfl, hmtx, rfl, rfl⟩

/-- The other threads have what they had. -/
def Process.SameOthers (p q : Process) : Prop :=
  ∀ thread : StopThread, q.server.held (.stop thread) = p.server.held (.stop thread) ∧
    q.expiring (.stop thread) = p.expiring (.stop thread)

/-- A `PLAY` that has taken something out of the holder stops and destroys it. -/
theorem exists_stopped {sess : SessionRef} {previous : MediaRef}
    (hpc : p.server.playPc = .stopping sess previous) (hholder : p.server.holder = none)
    (hmtx : p.mediaMtx = .free) (hbegun : p.begun .rtsp = false)
    (hexpiring : p.expiring .rtsp = none) :
    ∃ events q, (threadSystem ssl app).run p events = some q ∧ q.AboutToStart ∧
      p.SameOthers q := by
  let q₁ : Process := { p with begun := Function.update p.begun .rtsp true }
  let q₂ : Process := { q₁ with
    server := { p.server.stopMedia previous with playPc := .start sess }
    begun := Function.update q₁.begun .rtsp false
    expiring := Function.update p.expiring .rtsp (some previous) }
  have hatCall : p.server.atCall .rtsp = true := by
    rw [ServerState.atCall, hpc]
    rfl
  have hcall : threadStep ssl p (.call .rtsp) = some q₁ :=
    if_pos ⟨hatCall, hbegun, Mutex.ne_leaving hmtx _, hexpiring⟩
  have hstopped : serverStep ssl q₁.server .playStopped = some q₂.server := by
    change serverStep ssl p.server .playStopped = _
    simp only [serverStep, hpc]
    rfl
  have hdropped : q₁.server.dropped (.playStopped : ServerEvent Cert) = some previous :=
    congrArg PlayPc.held hpc
  have hreturn : threadStep ssl q₁ (.server .playStopped) = some q₂ := by
    have hleft : q₁.expiring (ServerEvent.playStopped : ServerEvent Cert).thread = none :=
      hexpiring
    have hin : q₁.begun (ServerEvent.playStopped : ServerEvent Cert).thread = true :=
      Function.update_self Thread.rtsp true p.begun
    have hsection : ¬ (ServerEvent.playStopped : ServerEvent Cert).isSection = true :=
      Bool.false_ne_true
    have hret : (ServerEvent.playStopped : ServerEvent Cert).isReturn = true := rfl
    simp only [threadStep]
    rw [if_pos hleft, if_neg hsection, if_pos hret, if_pos hin, hstopped, hdropped]
    rfl
  have hprevious : q₂.expiring .rtsp = some previous :=
    Function.update_self Thread.rtsp (some previous) p.expiring
  obtain ⟨events, q, hrun, hserver, hfree, hbegun', hexpired⟩ :=
    @exists_expired _ ssl app _ _ hprevious hmtx
  refine ⟨.call .rtsp :: .server .playStopped :: events, q, ?_, ?_, fun thread => ⟨?_, ?_⟩⟩
  · rw [System.run_cons_of_step hcall, System.run_cons_of_step hreturn]
    exact hrun
  · refine ⟨hfree, ⟨sess, by rw [hserver]⟩, ?_, ?_, by rw [hserver]; exact hholder⟩
    · rw [hbegun']
      exact Function.update_self Thread.rtsp false q₁.begun
    · rw [hexpired]
      exact Function.update_self ..
  · rw [hserver]
    cases thread <;> rfl
  · rw [hexpired, Function.update_of_ne (stop_ne_rtsp thread)]
    exact Function.update_of_ne (stop_ne_rtsp thread) (some previous) p.expiring

/-- The swap leads to the start: with an empty holder at once, otherwise after the `stop()` of
what was in there. The other threads need not move. -/
theorem exists_aboutToStart (hcalls : p.CallsBegun)
    (h : threadStep ssl p (.server .playSwap) = some p') :
    ∃ events q, (threadSystem ssl app).run p' events = some q ∧ q.AboutToStart ∧
      p.SameOthers q := by
  simp only [threadStep, ServerEvent.isSection, if_true] at h
  split_ifs at h with hexpiring hmtx
  obtain ⟨server, hstep, rfl⟩ := Option.map_eq_some_iff.mp h
  obtain ⟨sess, hpc, hcases⟩ := serverStep_playSwap hstep
  have hrtsp : p.begun .rtsp = false := by
    by_contra hbegun
    have hcall := hcalls .rtsp (Bool.not_eq_false _ ▸ hbegun)
    rw [ServerState.atCall, hpc] at hcall
    cases hcall
  have hkept : ∀ thread : StopThread,
      Function.update p.expiring .rtsp none (.stop thread) = p.expiring (.stop thread) :=
    fun thread => Function.update_of_ne (stop_ne_rtsp thread) none p.expiring
  have hleft : Function.update p.expiring .rtsp none .rtsp = none := Function.update_self ..
  let q (server : ServerState) : Process := {
    server := server
    begun := p.begun
    expiring := Function.update p.expiring .rtsp none
    destroying := p.destroying }
  rcases hcases with ⟨hnone, rfl⟩ | ⟨previous, hprevious, rfl⟩
  · refine ⟨[.unlock .rtsp], q { p.server with playPc := .start sess },
      System.run_cons_of_step rfl, ?_, fun thread => ⟨?_, hkept thread⟩⟩
    · exact ⟨rfl, ⟨sess, rfl⟩, hrtsp, hleft, hnone⟩
    · cases thread <;> rfl
  · let q₁ := q { p.server with holder := none, playPc := .stopping sess previous }
    obtain ⟨events, q₂, hrun, hstart, hsame⟩ :=
      @exists_stopped _ ssl app q₁ sess previous rfl rfl rfl hrtsp hleft
    refine ⟨.unlock .rtsp :: events, q₂, ?_, hstart, fun thread => ⟨?_, ?_⟩⟩
    · rw [System.run_cons_of_step (t := q₁) rfl]
      exact hrun
    · refine (hsame thread).1.trans ?_
      cases thread <;> rfl
    · exact (hsame thread).2.trans (hkept thread)

/-- A step of a run that does not meet the condition can be continued to a launch during a
teardown. -/
theorem start_during_stop_of_not_swapsAfterTeardown {events : List (ThreadEvent Cert)}
    {event : ThreadEvent Cert}
    (hrun : (threadSystem ssl app).run (threadSystem ssl app).init events = some p)
    (h : threadStep ssl p event = some p') (hnot : ¬ SwapsAfterTeardown p event) :
    ∃ after q, (threadSystem ssl app).run p' after = some q ∧
      ¬ StartsAlone ssl q (.call .rtsp) := by
  have hcalls := (callsBegun_isInvariant ssl app).run (callsBegun_isInvariant ssl app).init hrun
  have htidy := (tidy_isInvariant ssl app).run (tidy_isInvariant ssl app).init hrun
  unfold SwapsAfterTeardown at hnot
  split at hnot
  · simp only [not_forall, not_not] at hnot
    obtain ⟨thread, howns⟩ := hnot
    obtain ⟨before, q, hbefore, hstart, hsame⟩ :=
      @exists_aboutToStart _ ssl app _ _ hcalls h
    have hq : q.Tidy := fun thread hexpiring => by
      rw [(hsame thread).1]
      rw [(hsame thread).2] at hexpiring
      exact htidy thread hexpiring
    have howns' : q.Owns (.stop thread) := by
      rw [Process.Owns, (hsame thread).1, (hsame thread).2]
      exact howns
    obtain ⟨after, r, hafter, hnot⟩ :=
      @Process.AboutToStart.exists_start _ ssl app _ _ hstart hq howns'
    refine ⟨before ++ after, r, ?_, hnot⟩
    rw [System.run_append, hbefore]
    exact hafter
  · exact absurd trivial hnot

/-! ### Two clients -/

/-- A `PLAY` of the session with that fake address, up to its start. -/
def playToStart (fakeIp : String) : List (ThreadEvent LeafCert) :=
  [.server (.play (ascii fakeIp) (ascii fakeIp) (ascii "192.168.1.20")), .server .playLookup,
    .lock .rtsp, .server .playRead, .unlock .rtsp, .server .playCheck,
    .lock .rtsp, .server .playSwap, .unlock .rtsp, .call .rtsp]

/-- The rest of it. -/
def playToEnd : List (ThreadEvent LeafCert) :=
  [.server (.playStarted true), .lock .rtsp, .server .playPublish, .unlock .rtsp, .release .rtsp]

/-- The steps of a `stop_session`, up to the `stop()` of what it has found. -/
def stopToCall (thread : StopThread) : List (ThreadEvent LeafCert) :=
  [.lock (.stop thread), .server (.stopLock thread), .unlock (.stop thread), .call (.stop thread)]

/-- A `PLAY` that finds media of another session in the holder: it stops and destroys them and
comes to its start. -/
def playOver (fakeIp : String) : List (ThreadEvent LeafCert) :=
  (playToStart fakeIp).take 6 ++ [.release .rtsp] ++ (playToStart fakeIp).drop 6 ++
    [.server .playStopped, .release .rtsp, .destroyed .rtsp, .call .rtsp]

/-- Two clients launch and play, one after the other. -/
def twoPlays : List (ThreadEvent LeafCert) :=
  [.server (launchFrom "192.168.1.20" 7), .server (launchFrom "192.168.1.21" 8)] ++
    playToStart "7.7.7.7" ++ playToEnd ++ playOver "8.8.8.8"

/-- The second one waits until the media of the first one are stopped and destroyed. -/
theorem startsAlone_twoPlays :
    (threadSystem leafSsl pairedStart).Along (StartsAlone leafSsl)
      (threadSystem leafSsl pairedStart).init twoPlays ∧
    ((threadSystem leafSsl pairedStart).run (threadSystem leafSsl pairedStart).init
      twoPlays).isSome := by
  refine ⟨startsAlone_along leafSsl pairedStart twoPlays ?_, rfl⟩
  let middle := (twoPlays.drop 10).take 15
  have hsplit : twoPlays = twoPlays.take 9 ++
      .server .playSwap :: (middle ++ .server .playSwap :: twoPlays.drop 26) := rfl
  have hother : ∀ event ∈ twoPlays.take 9 ++ (middle ++ twoPlays.drop 26), ∀ p,
      SwapsAfterTeardown p event := by
    simp [middle, twoPlays, playOver, playToStart, playToEnd, launchFrom, SwapsAfterTeardown]
  obtain ⟨hfront, hrest⟩ := List.forall_mem_append.mp hother
  obtain ⟨hmiddle, hback⟩ := List.forall_mem_append.mp hrest
  rw [hsplit]
  -- at either swap the other threads have nothing
  refine System.along_append_iff.mpr ⟨System.along_of_forall hfront, fun p hp => ⟨?_, ?_⟩⟩
  · obtain rfl := Option.some.inj hp
    intro thread
    cases thread <;> simp [Process.not_owns_iff] <;> exact ⟨rfl, rfl⟩
  · intro p' hp'
    refine System.along_append_iff.mpr ⟨System.along_of_forall hmiddle, fun q hq => ⟨?_, ?_⟩⟩
    · obtain rfl := Option.some.inj hp
      obtain rfl := Option.some.inj hp'
      obtain rfl := Option.some.inj hq
      intro thread
      cases thread <;> simp [Process.not_owns_iff] <;> exact ⟨rfl, rfl⟩
    · exact fun _ _ => System.along_of_forall hback

/-- Two clients launch and the first one plays. While its cancel is in the `stop()` of its
media, the second one plays. -/
def playDuringCancel : List (ThreadEvent LeafCert) :=
  [.server (launchFrom "192.168.1.20" 7), .server (launchFrom "192.168.1.21" 8)] ++
    playToStart "7.7.7.7" ++ playToEnd ++
    .server (cancelFrom "192.168.1.20") :: stopToCall .https ++ playToStart "8.8.8.8"

/-- The app of the second one is launched while that of the first is still there. -/
theorem not_startsAlone_playDuringCancel :
    ¬ (threadSystem leafSsl pairedStart).Along (StartsAlone leafSsl)
      (threadSystem leafSsl pairedStart).init playDuringCancel := by
  intro h
  have hsplit : playDuringCancel = playDuringCancel.dropLast ++ [.call .rtsp] := rfl
  rw [hsplit] at h
  have hstart := ((System.along_append_iff.mp h).2 _ rfl).1
  exact hstart 1 rfl rfl rfl 0 (.inl (.inl ⟨.https, rfl, rfl⟩))

end Runs

end SteamStream.Server
