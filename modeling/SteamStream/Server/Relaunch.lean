import SteamStream.Server.Play
import SteamStream.Server.Teardown
import SteamStream.Server.Termination

/-!
# Resume and relaunch

A `PLAY` for a session whose media are running resumes them; otherwise it launches. So between
two launches for one session the media of the first one must have gone: they were taken out of
the holder by a `stop_session` for the session or by a `PLAY` of another one, or they never had
a video pipeline. From the moment `MediaSession::start` begins they are first `Starting`, then
`Held` in a place where a `PLAY` of the session finds them, and until `stop()` is called on them
they are `Live`; in none of these a launch for the session begins (`relaunchesAfter_of_along`).

The `stop()` itself may come late: `stop_session` has released the mutex by then, and a `PLAY`
of the same session that is quicker launches its app next to the one still running. For what
lies between the two launches to include the `stop()`, no swap may come in between
(`SwapsAfterStop`).
-/

namespace SteamStream.Server

open Wire Session Control Rest Runs X509

/-! ### From a start to the next one -/

section Relaunch

open ServerState

variable {Cert : Type}

/-- The step calls `MediaSession::start` for the session. -/
def CallsStart (sid : ℕ) (p : Process) (event : ThreadEvent Cert) : Prop :=
  ∃ sess, .start sess ∈ playCalls p event ∧ p.server.idOf sess = sid

/-- The step calls `stop()` on the media session: in the `stop_session` of a cancel or of a
`TERMINATION`, or in a `PLAY` of a session other than `sid`. -/
def CallsStop (sid : ℕ) (ms : MediaRef) (p : Process) (event : ThreadEvent Cert) : Prop :=
  .stop ms ∈ stopCalls p event ∨
    (.stop ms ∈ playCalls p event ∧ ∃ sess, p.server.playPc.target = some sess ∧
      p.server.idOf sess ≠ sid)

/-- The `MediaSession::start` that returns the media session does so without a video
pipeline. -/
def FailsVideo (ms : MediaRef) (p : Process) (event : ThreadEvent Cert) : Prop :=
  event = .server (.playStarted false) ∧ p.server.media.length = ms

/-- The critical section takes the media session out of the holder, to stop it: that of a
`stop_session` for its session, or that of a `PLAY` of another one. -/
def TakesOut (sid : ℕ) (ms : MediaRef) (p : Process) : ThreadEvent Cert → Prop
  | .server (.stopLock thread) =>
    p.server.stopPc thread = .locking sid ∧ p.server.holder = some ms
  | .server .playSwap =>
    p.server.holder = some ms ∧ ∃ sess, p.server.playPc = .swap sess ∧ p.server.idOf sess ≠ sid
  | _ => False

/-- What lies between two starts, if the media session is stopped in time. -/
def StopsOrFails (sid : ℕ) (ms : MediaRef) (p : Process) (event : ThreadEvent Cert) : Prop :=
  CallsStop sid ms p event ∨ FailsVideo ms p event

/-- What lies between two starts in any case. -/
def TakesOutOrFails (sid : ℕ) (ms : MediaRef) (p : Process) (event : ThreadEvent Cert) : Prop :=
  TakesOut sid ms p event ∨ FailsVideo ms p event

/-- A `PLAY` does not run its swap while a `stop_session` has taken active media of the same
session out of the holder without having called `stop()` on them yet. -/
def SwapsAfterStop (p : Process) : ThreadEvent Cert → Prop
  | .server .playSwap =>
    ∀ sess thread victim, p.server.playPc = .swap sess →
      p.server.stopPc thread = .stopping victim → p.server.isActive victim = true →
        p.server.mediaId victim = p.server.idOf sess → p.begun (.stop thread) = true
  | _ => True

/-- In `MediaSession::start`, which returns the media session `ms`. -/
structure Process.Starting (sid : ℕ) (ms : MediaRef) (p : Process) : Prop where
  start : ∃ sess, p.server.playPc = .start sess ∧ p.server.idOf sess = sid
  begun : p.begun .rtsp = true
  length : p.server.media.length = ms

/-- The media session is about to be published, in the holder, or in the hands of a thread. -/
def ServerState.Placed (st : ServerState) (ms : MediaRef) : Prop :=
  st.playPc = .publish ms ∨ st.holder = some ms ∨ (∃ sess, st.playPc = .stopping sess ms) ∨
    ∃ thread, st.stopPc thread = .stopping ms

/-- Whoever is about to launch something does so for another session. -/
def ServerState.LaunchesOther (st : ServerState) (sid : ℕ) (ms : MediaRef) : Prop :=
  ∀ sess, st.playPc.target = some sess →
    (st.playPc.Launching ∨ (st.holder = some ms ∧ st.playPc = .swap sess)) → st.idOf sess ≠ sid

/-- The media session was started and nobody has called `stop()` on it. -/
structure Process.Live (sid : ℕ) (ms : MediaRef) (p : Process) : Prop where
  lt : ms < p.server.media.length
  id : p.server.mediaId ms = sid
  active : p.server.isActive ms = true
  not_inStopCall : ¬ p.InStopCall ms
  placed : p.server.Placed ms
  other : p.server.LaunchesOther sid ms

section Server

variable {ssl : OpenSSL Cert} {st st' : ServerState} {event : ServerEvent Cert} {sid : ℕ}
  {ms : MediaRef}

/-- A media session is handed on until its `stop()` returns. -/
theorem serverStep_placed (hhandover : st.Handover) (hplaced : st.Placed ms)
    (hstop : ∀ thread, event = .stopDone thread → st.stopPc thread ≠ .stopping ms)
    (hplay : event = .playStopped → ∀ sess, st.playPc ≠ .stopping sess ms)
    (h : serverStep ssl st event = some st') : st'.Placed ms := by
  have hthread : ∀ thread, st.stopPc thread = .stopping ms → st'.stopPc thread = .stopping ms := by
    intro thread hpc
    rcases serverStep_stopPc h thread with hsame | ⟨hidle, -⟩ | rfl | rfl
    · exact hsame.trans hpc
    · cases hidle.symm.trans hpc
    · obtain ⟨sid, hlocking, -⟩ := serverStep_stopLock h
      cases hlocking.symm.trans hpc
    · exact absurd hpc (hstop thread rfl)
  rcases hplaced with hpublish | hholder | ⟨sess, hstopping⟩ | ⟨thread, hpc⟩
  · rcases serverStep_playPc h with hsame | hnext
    · exact .inl (hsame.trans hpublish)
    · rw [hpublish] at hnext
      cases event with
      | playPublish =>
        obtain ⟨ms', hpc, rfl⟩ := serverStep_playPublish h
        exact .inr (.inl (congrArg some (PlayPc.publish.inj (hpc.symm.trans hpublish))))
      | _ => exact hnext.elim
  · rcases serverStep_holder h with hsame | ⟨thread, rfl⟩ | rfl | rfl
    · exact .inr (.inl (hsame.trans hholder))
    · obtain ⟨sid, -, ⟨victim, hvictim, -, rfl⟩ | ⟨-, rfl⟩⟩ := serverStep_stopLock h
      · obtain rfl := Option.some.inj (hvictim.symm.trans hholder)
        exact .inr (.inr (.inr ⟨thread, stopPc_setStopPc_self⟩))
      · exact .inr (.inl (holder_setStopPc.trans hholder))
    · obtain ⟨sess, -, ⟨hnone, -⟩ | ⟨previous, hprevious, rfl⟩⟩ := serverStep_playSwap h
      · cases hnone.symm.trans hholder
      · obtain rfl := Option.some.inj (hprevious.symm.trans hholder)
        exact .inr (.inr (.inl ⟨sess, rfl⟩))
    · obtain ⟨ms', hpc, -⟩ := serverStep_playPublish h
      cases (hhandover.launching (hpc ▸ trivial)).symm.trans hholder
  · rcases serverStep_playPc h with hsame | hnext
    · exact .inr (.inr (.inl ⟨sess, hsame.trans hstopping⟩))
    · rw [hstopping] at hnext
      cases event with
      | playStopped => exact absurd hstopping (hplay rfl sess)
      | _ => exact hnext.elim
  · exact .inr (.inr (.inr ⟨thread, hthread thread hpc⟩))

theorem target_lt {sess : SessionRef} (hwf : st.WellFormed) (h : st.playPc.target = some sess) :
    sess < st.sessions.objects.length := by
  refine hwf.sessionRefs_lt sess (List.mem_append_right _ ?_)
  rw [h]
  exact List.mem_singleton_self sess

/-- The swap of a `PLAY` for the same session does not come before the `stop()`. -/
theorem serverStep_launchesOther (hwf : st.WellFormed) (hhandover : st.Handover)
    (hplays : st.Plays) (hid : st.mediaId ms = sid) (hactive : st.isActive ms = true)
    (hplaced : st.Placed ms) (hother : st.LaunchesOther sid ms)
    (hswap : event = .playSwap → ∀ sess thread, st.playPc = .swap sess →
      st.stopPc thread = .stopping ms → st.idOf sess ≠ sid)
    (h : serverStep ssl st event = some st') : st'.LaunchesOther sid ms := by
  have hext := serverStep_extends h
  intro sess htarget hlaunching
  rcases serverStep_playPc h with hsame | hnext
  · -- the `PLAY` stays, and nothing comes into the holder
    rw [hsame] at htarget hlaunching
    rw [hext.idOf_eq (target_lt hwf htarget)]
    refine hother sess htarget (hlaunching.imp_right fun ⟨hholder, hpc⟩ => ⟨?_, hpc⟩)
    rcases serverStep_cases h with ⟨heq | hnone, -⟩ | ⟨-, ms', hpublish, -⟩ | ⟨_, _, _, -, heq, -⟩ |
      ⟨_, -, heq, -⟩
    · exact heq ▸ hholder
    · cases hnone.symm.trans hholder
    · cases hpc.symm.trans hpublish
    · exact heq ▸ hholder
    · exact heq ▸ hholder
  · cases event with
    | play uriIp hostOpt peerIp =>
      obtain ⟨-, rfl | ⟨s, rfl⟩⟩ := serverStep_play h
      · exact hother sess htarget hlaunching
      · cases htarget
    | playLookup =>
      obtain ⟨s, -, ⟨-, rfl⟩ | ⟨found, -, rfl⟩⟩ := serverStep_playLookup h
      · cases htarget
      · rcases hlaunching with hlaunching | ⟨-, hpc⟩
        · exact hlaunching.elim
        · cases hpc
    | playRead =>
      obtain ⟨s, found, -, rfl⟩ := serverStep_playRead h
      rcases hlaunching with hlaunching | ⟨-, hpc⟩
      · exact hlaunching.elim
      · cases hpc
    | playCheck =>
      -- it has found the media session and not resumed it, so it is for another session
      obtain ⟨s, sess', found, hpc, ⟨existing, -, -, rfl⟩ | ⟨hnot, rfl⟩⟩ := serverStep_playCheck h
      · cases htarget
      · obtain rfl := Option.some.inj htarget
        rcases hlaunching with hlaunching | ⟨hholder, -⟩
        · exact hlaunching.elim
        · have hfound : found = some ms := by
            rcases hhandover.found s sess' found hpc with heq | hnone
            · exact heq.symm.trans hholder
            · cases hnone.symm.trans hholder
          intro heq
          refine hnot ms hfound ⟨?_, hactive⟩
          exact hid.trans (heq.symm.trans (hplays.same s sess' (.inr ⟨found, hpc⟩)))
    | playSwap =>
      obtain ⟨sess', hpc, hcases⟩ := serverStep_playSwap h
      have hsess : st.idOf sess' ≠ sid := by
        rcases hplaced with hpublish | hholder | ⟨_, hstopping⟩ | ⟨thread, hstopping⟩
        · cases hpc.symm.trans hpublish
        · exact hother sess' (hpc ▸ rfl) (.inr ⟨hholder, hpc⟩)
        · cases hpc.symm.trans hstopping
        · exact hswap rfl sess' thread hpc hstopping
      rcases hcases with ⟨-, rfl⟩ | ⟨previous, -, rfl⟩
      · exact Option.some.inj htarget ▸ hsess
      · exact Option.some.inj htarget ▸ hsess
    | playStopped =>
      obtain ⟨sess', previous, hpc, rfl⟩ := serverStep_playStopped h
      obtain rfl := Option.some.inj htarget
      exact hother sess' (hpc ▸ rfl) (.inl (hpc ▸ trivial))
    | playStarted video =>
      obtain ⟨sess', -, rfl⟩ := serverStep_playStarted h
      cases htarget
    | playPublish =>
      obtain ⟨ms', -, rfl⟩ := serverStep_playPublish h
      cases htarget
    | _ => cases hpc : st.playPc <;> rw [hpc] at hnext <;> exact hnext.elim

end Server

section Process

variable {ssl : OpenSSL Cert} {p p' : Process} {sid : ℕ} {ms : MediaRef}

/-- A `stop()` that is in progress was in progress before, unless it begins in this step. -/
theorem inStopCall_of_server {event : ServerEvent Cert} (hp : p.CallsBegun)
    (h : threadStep ssl p (.server event) = some p') (hin : p'.InStopCall ms) :
    p.InStopCall ms := by
  obtain ⟨hstep, hreturn, hother⟩ := threadStep_server h
  have hbegun : ∀ thread, p'.begun thread = true →
      p.begun thread = true ∧ ¬ (event.isReturn = true ∧ event.thread = thread) := by
    intro thread hthread
    cases hret : event.isReturn with
    | false => exact ⟨hother hret ▸ hthread, fun hboth => nomatch hboth.1⟩
    | true =>
      rw [(hreturn hret).2] at hthread
      have hne : thread ≠ event.thread := by
        rintro rfl
        rw [Function.update_self] at hthread
        cases hthread
      rw [Function.update_of_ne hne] at hthread
      exact ⟨hthread, fun hboth => hne hboth.2.symm⟩
  rcases hin with ⟨thread, hpc, hin⟩ | ⟨sess, hpc, hin⟩
  · obtain ⟨hin, hnot⟩ := hbegun _ hin
    have hcall := hp _ hin
    rw [ServerState.atCall] at hcall
    rcases serverStep_stopPc hstep thread with hsame | ⟨hidle, -⟩ | rfl | rfl
    · exact .inl ⟨thread, hsame.symm.trans hpc, hin⟩
    · rw [hidle] at hcall
      cases hcall
    · obtain ⟨sid, hlocking, -⟩ := serverStep_stopLock hstep
      rw [hlocking] at hcall
      cases hcall
    · exact absurd ⟨rfl, rfl⟩ hnot
  · obtain ⟨hin, hnot⟩ := hbegun _ hin
    rcases serverStep_playPc hstep with hsame | hnext
    · exact .inr ⟨sess, hsame.symm.trans hpc, hin⟩
    · exact absurd (hnext.isReturn (hp _ hin)) hnot

/-- A step of the server leaves the media session where it can still be resumed or stopped. -/
theorem live_server {event : ServerEvent Cert} (hp : p.Sound) (hlive : p.Live sid ms)
    (hswap : event = .playSwap → ∀ sess thread, p.server.playPc = .swap sess →
      p.server.stopPc thread = .stopping ms → p.server.idOf sess ≠ sid)
    (h : threadStep ssl p (.server event) = some p') : p'.Live sid ms := by
  obtain ⟨hstep, hreturn, -⟩ := threadStep_server h
  have hext := serverStep_extends hstep
  have hstop : ∀ thread, event = .stopDone thread → p.server.stopPc thread ≠ .stopping ms := by
    rintro thread rfl hpc
    exact hlive.not_inStopCall (.inl ⟨thread, hpc, (hreturn rfl).1⟩)
  have hplay : event = .playStopped → ∀ sess, p.server.playPc ≠ .stopping sess ms := by
    rintro rfl sess hpc
    exact hlive.not_inStopCall (.inr ⟨sess, hpc, (hreturn rfl).1⟩)
  exact {
    lt := hlive.lt.trans_le hext.length_le
    id := (hext.mediaId_eq hp.wellFormed hlive.lt).trans hlive.id
    active := serverStep_isActive hstep hlive.active hstop hplay
    not_inStopCall := fun hin => hlive.not_inStopCall (inStopCall_of_server hp.callsBegun h hin)
    placed := serverStep_placed hp.handover hlive.placed hstop hplay hstep
    other := serverStep_launchesOther hp.wellFormed hp.handover hp.plays hlive.id hlive.active
      hlive.placed hlive.other hswap hstep }

/-- So does every step that does not call `stop()` on it. -/
theorem live_step {event : ThreadEvent Cert} (hp : p.Sound) (hlive : p.Live sid ms)
    (hswap : event = .server .playSwap → ∀ sess thread, p.server.playPc = .swap sess →
      p.server.stopPc thread = .stopping ms → p.server.idOf sess ≠ sid)
    (hnot : ¬ CallsStop sid ms p event) (h : threadStep ssl p event = some p') :
    p'.Live sid ms := by
  cases event with
  | server event => exact live_server hp hlive (fun heq => hswap (congrArg _ heq)) h
  | call thread =>
    obtain ⟨-, -, rfl⟩ := threadStep_call h
    refine { hlive with not_inStopCall := fun hin => ?_ }
    rcases hin with ⟨thread', hpc, hin⟩ | ⟨sess, hpc, hin⟩
    · by_cases heq : Thread.stop thread' = thread
      · subst heq
        refine hnot (.inl ?_)
        change p.server.stopPc thread' = .stopping ms at hpc
        simp only [stopCalls, hpc, List.mem_singleton]
      · have hin : p.begun (.stop thread') = true := (Function.update_of_ne heq ..).symm.trans hin
        exact hlive.not_inStopCall (.inl ⟨thread', hpc, hin⟩)
    · change p.server.playPc = .stopping sess ms at hpc
      by_cases heq : Thread.rtsp = thread
      · subst heq
        refine hnot (.inr ⟨?_, sess, hpc ▸ rfl, ?_⟩)
        · simp only [playCalls, hpc, List.mem_singleton]
        · exact hlive.other sess (hpc ▸ rfl) (.inl (hpc ▸ trivial))
      · have hin : p.begun .rtsp = true := (Function.update_of_ne heq ..).symm.trans hin
        exact hlive.not_inStopCall (.inr ⟨sess, hpc, hin⟩)
  | lock thread =>
    obtain rfl := threadStep_lock h
    exact { hlive with }
  | unlock thread =>
    obtain rfl := threadStep_unlock h
    exact { hlive with }
  | release thread =>
    obtain ⟨expiring, destroying, rfl⟩ := threadStep_references (.inl rfl) h
    exact { hlive with }
  | destroyed thread =>
    obtain ⟨expiring, destroying, rfl⟩ := threadStep_references (.inr rfl) h
    exact { hlive with }

/-- A swap that meets the condition is not one for its session while it is to be stopped. -/
theorem Process.Live.swap {event : ThreadEvent Cert} (hlive : p.Live sid ms)
    (hswaps : SwapsAfterStop p event) (hevent : event = .server .playSwap) (sess : SessionRef)
    (thread : StopThread) (hpc : p.server.playPc = .swap sess)
    (hstopping : p.server.stopPc thread = .stopping ms) : p.server.idOf sess ≠ sid := by
  subst hevent
  intro heq
  have hbegun := hswaps sess thread ms hpc hstopping hlive.active (hlive.id.trans heq.symm)
  exact hlive.not_inStopCall (.inl ⟨thread, hstopping, hbegun⟩)

/-- The media session is about to be published, or in the holder. -/
def Process.Held (ms : MediaRef) (p : Process) : Prop :=
  p.server.playPc = .publish ms ∨ p.server.holder = some ms

/-- As long as it is, nobody stops it. -/
theorem Process.Held.not_stopping (hheld : p.Held ms) (hp : p.Sound) :
    (∀ thread, p.server.stopPc thread ≠ .stopping ms) ∧
      ∀ sess, p.server.playPc ≠ .stopping sess ms := by
  constructor
  · intro thread hpc
    obtain ⟨-, hholder, hpublish⟩ := hp.handover.victim thread ms hpc
    exact hheld.elim hpublish hholder
  · intro sess hpc
    rcases hheld with hpublish | hholder
    · cases hpc.symm.trans hpublish
    · cases (hp.handover.launching (hpc ▸ trivial)).symm.trans hholder

/-- A `stop()` is called on what a thread has taken out. -/
theorem stopping_of_callsStop {event : ThreadEvent Cert} (h : CallsStop sid ms p event) :
    (∃ thread, p.server.stopPc thread = .stopping ms) ∨
      ∃ sess, p.server.playPc = .stopping sess ms := by
  rcases h with hmem | ⟨hmem, -⟩
  · obtain ⟨thread, -, hpc⟩ := stop_mem_stopCalls hmem
    exact .inl ⟨thread, hpc⟩
  · exact .inr (stop_mem_playCalls hmem).2

theorem held_step {event : ThreadEvent Cert} (hp : p.Sound) (hlive : p.Live sid ms)
    (hheld : p.Held ms) (hnot : ¬ TakesOut sid ms p event)
    (h : threadStep ssl p event = some p') : p'.Held ms := by
  cases event with
  | server event =>
    have hstep := (threadStep_server h).1
    rcases hheld with hpublish | hholder
    · rcases serverStep_playPc hstep with hsame | hnext
      · exact .inl (hsame.trans hpublish)
      · rw [hpublish] at hnext
        cases event with
        | playPublish =>
          obtain ⟨ms', hpc, heq⟩ := serverStep_playPublish hstep
          right
          rw [heq]
          exact congrArg some (PlayPc.publish.inj (hpc.symm.trans hpublish))
        | _ => exact hnext.elim
    · right
      rcases serverStep_holder hstep with hsame | ⟨thread, rfl⟩ | rfl | rfl
      · exact hsame.trans hholder
      · obtain ⟨sid', hlocking, ⟨victim, hvictim, hid, -⟩ | ⟨-, heq⟩⟩ := serverStep_stopLock hstep
        · obtain rfl := Option.some.inj (hvictim.symm.trans hholder)
          exact absurd ⟨hlocking.trans (by rw [← hid, hlive.id]), hholder⟩ hnot
        · rw [heq, holder_setStopPc]
          exact hholder
      · obtain ⟨sess, hpc, -⟩ := serverStep_playSwap hstep
        exact absurd ⟨hholder, sess, hpc, hlive.other sess (hpc ▸ rfl) (.inr ⟨hholder, hpc⟩)⟩ hnot
      · obtain ⟨ms', hpc, -⟩ := serverStep_playPublish hstep
        cases (hp.handover.launching (hpc ▸ trivial)).symm.trans hholder
  | _ =>
    unfold Process.Held
    rwa [threadStep_other h rfl]

/-- `MediaSession::start` goes on, or returns. -/
theorem starting_step {event : ThreadEvent Cert} (hp : p.Sound) (hstarting : p.Starting sid ms)
    (hnot : ¬ FailsVideo ms p event) (h : threadStep ssl p event = some p') :
    p'.Starting sid ms ∨ (p'.Live sid ms ∧ p'.Held ms) := by
  obtain ⟨⟨sess, hpc, hid⟩, hbegun, hlength⟩ := hstarting
  cases event with
  | server event =>
    obtain ⟨hstep, hreturn, hother⟩ := threadStep_server h
    have hext := serverStep_extends hstep
    have hlt : sess < p.server.sessions.objects.length :=
      target_lt hp.wellFormed (by rw [hpc]; rfl)
    rcases serverStep_playPc hstep with hsame | hnext
    · left
      have hstarted : ∀ video, event ≠ .playStarted video := by
        rintro video rfl
        obtain ⟨sess', -, heq⟩ := serverStep_playStarted hstep
        rw [heq, hpc] at hsame
        cases hsame
      have hrtsp : event.isReturn = true → Thread.rtsp ≠ event.thread := by
        intro hret heq
        cases event with
        | playStopped =>
          obtain ⟨sess', previous, hstopping, -⟩ := serverStep_playStopped hstep
          cases hpc.symm.trans hstopping
        | playStarted video => exact hstarted video rfl
        | stopDone thread => cases heq
        | _ => cases hret
      refine ⟨⟨sess, hsame.trans hpc, (hext.idOf_eq hlt).trans hid⟩, ?_,
        (serverStep_length_media hstep hstarted).trans hlength⟩
      cases hret : event.isReturn with
      | false => exact (congrFun (hother hret) _).trans hbegun
      | true =>
        rw [(hreturn hret).2, Function.update_of_ne (hrtsp hret)]
        exact hbegun
    · right
      rw [hpc] at hnext
      cases event with
      | playStarted video =>
        have hvideo : video = true := by
          by_contra hfails
          obtain rfl := Bool.eq_false_of_not_eq_true hfails
          exact hnot ⟨rfl, hlength⟩
        subst hvideo hlength
        obtain ⟨sess', hpc', heq⟩ := serverStep_playStarted hstep
        obtain rfl := PlayPc.start.inj (hpc.symm.trans hpc')
        refine ⟨?_, .inl (by rw [heq])⟩
        exact {
          lt := by
            rw [heq, List.length_append, List.length_singleton]
            exact Nat.lt_succ_self _
          id := by
            rw [heq, mediaId, List.getElem?_concat_length]
            exact hid
          active := by
            rw [heq, isActive, List.getElem?_concat_length]
            rfl
          not_inStopCall := fun hin => by
            -- it did not exist before
            rcases inStopCall_of_server hp.callsBegun h hin with ⟨thread, hstop, -⟩ | ⟨_, hstop, -⟩
            · exact Nat.lt_irrefl _ (hp.handover.victim thread _ hstop).1
            · cases hpc.symm.trans hstop
          placed := .inl (by rw [heq])
          other := fun sess' htarget => by
            rw [heq] at htarget
            cases htarget }
      | _ => exact hnext.elim
  | call thread =>
    left
    obtain ⟨-, -, rfl⟩ := threadStep_call h
    refine ⟨⟨sess, hpc, hid⟩, ?_, hlength⟩
    by_cases heq : Thread.rtsp = thread
    · subst heq
      change Function.update p.begun .rtsp true .rtsp = true
      exact Function.update_self ..
    · exact (Function.update_of_ne heq ..).trans hbegun
  | lock thread =>
    left
    obtain rfl := threadStep_lock h
    exact ⟨⟨sess, hpc, hid⟩, hbegun, hlength⟩
  | unlock thread =>
    left
    obtain rfl := threadStep_unlock h
    exact ⟨⟨sess, hpc, hid⟩, hbegun, hlength⟩
  | release thread =>
    left
    obtain ⟨expiring, destroying, rfl⟩ := threadStep_references (.inl rfl) h
    exact ⟨⟨sess, hpc, hid⟩, hbegun, hlength⟩
  | destroyed thread =>
    left
    obtain ⟨expiring, destroying, rfl⟩ := threadStep_references (.inr rfl) h
    exact ⟨⟨sess, hpc, hid⟩, hbegun, hlength⟩

theorem callsStart_iff {event : ThreadEvent Cert} :
    CallsStart sid p event ↔ event = .call .rtsp ∧
      ∃ sess, p.server.playPc = .start sess ∧ p.server.idOf sess = sid := by
  constructor
  · rintro ⟨sess, hmem, hid⟩
    obtain ⟨hevent, hpc⟩ := start_mem_playCalls.mp hmem
    exact ⟨hevent, sess, hpc, hid⟩
  · rintro ⟨hevent, sess, hpc, hid⟩
    exact ⟨sess, start_mem_playCalls.mpr ⟨hevent, hpc⟩, hid⟩

end Process

end Relaunch

section Runs

variable {Cert : Type} (ssl : OpenSSL Cert) (app : AppState)

/-- Between any two calls of `MediaSession::start` for one session id in the run there is a step
of that kind about what the first one returns. -/
def RelaunchesAfter (kind : ℕ → MediaRef → Process → ThreadEvent Cert → Prop)
    (events : List (ThreadEvent Cert)) : Prop :=
  ∀ before first between second after sid p₁ p₂,
    events = before ++ first :: (between ++ second :: after) →
      (threadSystem ssl app).run (threadSystem ssl app).init before = some p₁ →
        CallsStart sid p₁ first → (threadSystem ssl app).run p₁ (first :: between) = some p₂ →
          CallsStart sid p₂ second → (threadStep ssl p₂ second).isSome →
            ∃ front event back p, between = front ++ event :: back ∧
              (threadSystem ssl app).run p₁ (first :: front) = some p ∧
              kind sid p₁.server.media.length p event

/-- It is enough that `MediaSession::start` leads to something that rules the second start out,
and that only steps of that kind end. -/
theorem relaunchesAfter_of_along {kind : ℕ → MediaRef → Process → ThreadEvent Cert → Prop}
    {K : ℕ → MediaRef → Process → Prop} {P : Process → ThreadEvent Cert → Prop}
    (hlive : ∀ {sid ms p}, K sid ms p → p.Live sid ms)
    (hstart : ∀ {sid ms p event p'}, p.Sound → p.Starting sid ms → ¬ kind sid ms p event →
      threadStep ssl p event = some p' → p'.Starting sid ms ∨ K sid ms p')
    (hstep : ∀ {sid ms p event p'}, p.Sound → K sid ms p → P p event → ¬ kind sid ms p event →
      threadStep ssl p event = some p' → K sid ms p')
    {events : List (ThreadEvent Cert)}
    (h : (threadSystem ssl app).Along P (threadSystem ssl app).init events) :
    RelaunchesAfter ssl app kind events := by
  rintro before first between second after sid p₁ p₂ rfl hrun₁ hfirst hrun₂ hsecond hstep₂
  obtain ⟨rfl, sess, hpc, hid⟩ := callsStart_iff.mp hfirst
  have hsound₁ : p₁.Sound := (sound_isInvariant ssl app).run (sound_isInvariant ssl app).init hrun₁
  obtain ⟨p, hcall, hbetween⟩ := Option.bind_eq_some_iff.mp hrun₂
  have halong : (threadSystem ssl app).Along P p between := by
    have htail := ((System.along_append_iff.mp h).2 p₁ hrun₁).2 p hcall
    exact (System.along_append_iff.mp htail).1
  have hstarting : p.Starting sid p₁.server.media.length := by
    change threadStep ssl p₁ (.call .rtsp) = some p at hcall
    obtain ⟨-, -, rfl⟩ := threadStep_call hcall
    refine ⟨⟨sess, hpc, hid⟩, ?_, rfl⟩
    change Function.update p₁.begun .rtsp true .rtsp = true
    exact Function.update_self ..
  have hinv := System.run_until (I := fun p => p.Sound ∧
    (p.Starting sid p₁.server.media.length ∨ K sid p₁.server.media.length p))
    (Q := kind sid p₁.server.media.length)
    (fun {q event q'} hq hP hnot hq' => by
      refine ⟨(sound_isInvariant ssl app).step hq.1 hq', ?_⟩
      rcases hq.2 with hstarting | hK
      · exact hstart hq.1 hstarting hnot hq'
      · exact .inr (hstep hq.1 hK hP hnot hq'))
    ⟨(sound_isInvariant ssl app).step hsound₁ hcall, .inl hstarting⟩ halong hbetween
  rcases hinv with ⟨-, hlast⟩ | ⟨front, q, event, back, hsplit, hfront, -, hkind, -⟩
  · -- nothing is launched for its session
    exfalso
    obtain ⟨rfl, sess', hpc', hid'⟩ := callsStart_iff.mp hsecond
    rcases hlast with hstarting | hK
    · obtain ⟨q', hq'⟩ := Option.isSome_iff_exists.mp hstep₂
      cases hstarting.begun.symm.trans (threadStep_call hq').2.1
    · exact (hlive hK).other sess' (hpc' ▸ rfl) (.inl (hpc' ▸ trivial)) hid'
  · exact ⟨front, event, back, q, hsplit, (System.run_cons_of_step hcall).trans hfront, hkind⟩

/-- In time for the second start `stop()` has been called, as long as no swap comes too early. -/
theorem relaunchesAfter_stop {events : List (ThreadEvent Cert)}
    (h : (threadSystem ssl app).Along SwapsAfterStop (threadSystem ssl app).init events) :
    RelaunchesAfter ssl app StopsOrFails events := by
  refine relaunchesAfter_of_along ssl app id (fun hp hstarting hnot hstep => ?_)
    (fun hp hlive hswaps hnot hstep => ?_) h
  · exact (starting_step hp hstarting (fun hfails => hnot (.inr hfails)) hstep).imp_right And.left
  · exact live_step hp hlive (hlive.swap hswaps) (fun hstops => hnot (.inl hstops)) hstep

/-- In any case it has been taken out. -/
theorem relaunchesAfter_takesOut (events : List (ThreadEvent Cert)) :
    RelaunchesAfter ssl app TakesOutOrFails events := by
  refine relaunchesAfter_of_along ssl app (K := fun sid ms p => p.Live sid ms ∧ p.Held ms)
    (P := fun _ _ => True) And.left (fun hp hstarting hnot hstep => ?_)
    (fun hp ⟨hlive, hheld⟩ _ hnot hstep => ?_) (System.along_of_forall fun _ _ _ => trivial)
  · exact starting_step hp hstarting (fun hfails => hnot (.inr hfails)) hstep
  · have hidle := hheld.not_stopping hp
    refine ⟨live_step hp hlive (fun _ _ thread _ hpc => absurd hpc (hidle.1 thread)) ?_ hstep,
      held_step hp hlive hheld (fun htakes => hnot (.inl htakes)) hstep⟩
    intro hcalls
    rcases stopping_of_callsStop hcalls with ⟨thread, hpc⟩ | ⟨sess, hpc⟩
    · exact hidle.1 thread hpc
    · exact hidle.2 sess hpc

/-- One client launches and plays. -/
def onePlay : List (ThreadEvent LeafCert) :=
  .server (launchFrom "192.168.1.20" 7) :: playToStart "7.7.7.7"

/-- A client that has left with a `TERMINATION` plays again while the control thread is about to
call `stop()`. -/
def reconnect : List (ThreadEvent LeafCert) :=
  playToEnd ++
    [.server (.connect 0 7 (ascii "192.168.1.20")),
      .server (.receive idrMachine 0 terminationPacket), .lock (.stop .control),
      .server (.stopLock .control), .unlock (.stop .control)] ++
    (playToStart "7.7.7.7").dropLast

end Runs

end SteamStream.Server
