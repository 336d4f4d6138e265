import SteamStream.Server.System

/-!
# What the steps of the threads do to the media

One lemma for each kind of step, for the proofs about the holder, the media sessions and the
program counters: a step of `stop_session`, a step of a `PLAY`, or one of the others, which
leave the media alone (`serverStep_passive`).

Between the critical section that empties the holder and the one that fills it, a `PLAY` is
*launching*. Only it fills the holder, so as long as something is in there nothing is being
launched, and what is in there is what was started last (`Handover`).
-/

namespace SteamStream.Server

open Wire Session Control Rest Runs X509

/-! ### The other steps -/

/-- The step is none of `stop_session` and none of a `PLAY`. -/
def ServerEvent.Passive {Cert : Type} : ServerEvent Cert → Prop
  | .https _ | .announce .. | .connect .. | .disconnect _ | .receive .. => True
  | _ => False

namespace ServerState

/-- The media are the same, and so is the `PLAY`. -/
structure SameMedia (st st' : ServerState) : Prop where
  holder : st'.holder = st.holder
  media : st'.media = st.media
  playPc : st'.playPc = st.playPc

variable {st : ServerState} {thread thread' : StopThread} {pc : StopPc}

@[simp]
theorem stopPc_setStopPc_self : (st.setStopPc pc thread).stopPc thread = pc := by
  cases thread <;> rfl

theorem stopPc_setStopPc_of_ne (h : thread' ≠ thread) :
    (st.setStopPc pc thread).stopPc thread' = st.stopPc thread' := by
  cases thread <;> cases thread' <;> first | exact absurd rfl h | rfl

@[simp]
theorem holder_setStopPc : (st.setStopPc pc thread).holder = st.holder := by
  cases thread <;> rfl

@[simp]
theorem media_setStopPc : (st.setStopPc pc thread).media = st.media := by
  cases thread <;> rfl

@[simp]
theorem playPc_setStopPc : (st.setStopPc pc thread).playPc = st.playPc := by
  cases thread <;> rfl

@[simp]
theorem app_setStopPc : (st.setStopPc pc thread).app = st.app := by
  cases thread <;> rfl

@[simp]
theorem control_setStopPc : (st.setStopPc pc thread).control = st.control := by
  cases thread <;> rfl

end ServerState

section Steps

open ServerState

variable {Cert : Type} {ssl : OpenSSL Cert} {st st' : ServerState} {event : ServerEvent Cert}
  {thread : StopThread}

/-- An idle thread stays idle or has something to stop, the others stay where they are. -/
theorem serverStep_passive (h : serverStep ssl st event = some st') (hpassive : event.Passive) :
    st.SameMedia st' ∧ ∀ thread, st'.stopPc thread = st.stopPc thread ∨
      (st.stopPc thread = .idle ∧ ∃ sid, st'.stopPc thread = .locking sid) := by
  cases event with
  | https event =>
    simp only [serverStep] at h
    split_ifs at h with hidle
    obtain rfl := Option.some.inj h
    refine ⟨⟨rfl, rfl, rfl⟩, fun thread => ?_⟩
    cases thread with
    | https =>
      cases hstop : (handle ssl st.app event).stopped with
      | none =>
        left
        simp only [stopPc, hidle]
      | some sid =>
        right
        refine ⟨hidle, sid, ?_⟩
        simp only [stopPc]
    | control => exact .inl rfl
  | receive machine peer pkt =>
    simp only [serverStep] at h
    split_ifs at h with hidle
    split at h
    · cases h
    · obtain rfl := Option.some.inj h
      refine ⟨⟨rfl, rfl, rfl⟩, fun thread => ?_⟩
      cases thread with
      | https => exact .inl rfl
      | control =>
        cases hstop : stopRequest (packetEffects st machine peer pkt).log with
        | none =>
          left
          simp only [stopPc, hidle]
        | some sid =>
          right
          refine ⟨hidle, sid, ?_⟩
          simp only [stopPc]
  | announce uriIp hostOpt peerIp video audio =>
    obtain rfl | ⟨s, rfl⟩ := serverStep_announce h
    · exact ⟨⟨rfl, rfl, rfl⟩, fun thread => .inl rfl⟩
    · exact ⟨⟨rfl, rfl, rfl⟩, fun thread => by cases thread <;> exact .inl rfl⟩
  | connect peer connectData ip =>
    simp only [serverStep] at h
    split_ifs at h
    obtain rfl := Option.some.inj h
    exact ⟨⟨rfl, rfl, rfl⟩, fun thread => by cases thread <;> exact .inl rfl⟩
  | disconnect peer =>
    simp only [serverStep] at h
    split_ifs at h
    obtain rfl := Option.some.inj h
    exact ⟨⟨rfl, rfl, rfl⟩, fun thread => by cases thread <;> exact .inl rfl⟩
  | _ => exact hpassive.elim

/-! ### `stop_session` -/

/-- The critical section takes the media session of that id out, or finds none. -/
theorem serverStep_stopLock (h : serverStep ssl st (.stopLock thread) = some st') :
    ∃ sid, st.stopPc thread = .locking sid ∧
      ((∃ victim, st.holder = some victim ∧ st.mediaId victim = sid ∧
          st' = { st with holder := none }.setStopPc (.stopping victim) thread) ∨
        ((∀ ms, st.holder = some ms → st.mediaId ms ≠ sid) ∧
          st' = st.setStopPc .idle thread)) := by
  simp only [serverStep] at h
  split at h
  · rename_i sid hpc
    refine ⟨sid, hpc, ?_⟩
    obtain rfl := Option.some.inj h
    unfold stopSessionLock
    cases hholder : st.holder with
    | none => exact .inr ⟨fun ms hms => absurd hms (Option.not_mem_none ms), rfl⟩
    | some victim =>
      dsimp only
      split_ifs with hsid
      · exact .inl ⟨victim, rfl, hsid, rfl⟩
      · refine .inr ⟨fun ms hms => ?_, rfl⟩
        exact Option.some.inj hms ▸ hsid
  · cases h

theorem serverStep_stopDone (h : serverStep ssl st (.stopDone thread) = some st') :
    ∃ victim, st.stopPc thread = .stopping victim ∧
      st' = (st.stopMedia victim).setStopPc .idle thread := by
  simp only [serverStep] at h
  split at h
  · rename_i victim hpc
    exact ⟨victim, hpc, (Option.some.inj h).symm⟩
  · cases h

/-! ### `PLAY` -/

theorem serverStep_playLookup (h : serverStep ssl st .playLookup = some st') :
    ∃ s, st.playPc = .lookup s ∧
      ((st.sessions.getById (st.idOf s) = none ∧ st' = { st with playPc := .idle }) ∨
        ∃ sess, st.sessions.getById (st.idOf s) = some sess ∧
          st' = { st with playPc := .read s sess }) := by
  simp only [serverStep] at h
  split at h
  · rename_i s hpc
    refine ⟨s, hpc, ?_⟩
    split at h
    · rename_i hnone
      exact .inl ⟨hnone, (Option.some.inj h).symm⟩
    · rename_i sess hsess
      exact .inr ⟨sess, hsess, (Option.some.inj h).symm⟩
  · cases h

theorem serverStep_playRead (h : serverStep ssl st .playRead = some st') :
    ∃ s sess, st.playPc = .read s sess ∧
      st' = { st with playPc := .check s sess st.holder } := by
  simp only [serverStep] at h
  split at h
  · rename_i s sess hpc
    exact ⟨s, sess, hpc, (Option.some.inj h).symm⟩
  · cases h

/-- What the resume path has found: an active media session of the session. -/
def Resumes (st : ServerState) (s : SessionRef) (existing : MediaRef) : Prop :=
  st.mediaId existing = st.idOf s ∧ st.isActive existing

instance (st : ServerState) (s : SessionRef) (existing : MediaRef) :
    Decidable (Resumes st s existing) :=
  inferInstanceAs (Decidable (_ ∧ _))

/-- The `PLAY` takes the resume path, or goes on to launch. -/
theorem serverStep_playCheck (h : serverStep ssl st .playCheck = some st') :
    ∃ s sess found, st.playPc = .check s sess found ∧
      ((∃ existing, found = some existing ∧ Resumes st s existing ∧
          st' = { st with
            media := st.media.modify existing fun m =>
              { m with audioChannels := (st.sessions.object s).audio.channels }
            playPc := .idle }) ∨
        ((∀ existing, found = some existing → ¬ Resumes st s existing) ∧
          st' = { st with playPc := .swap sess })) := by
  simp only [serverStep] at h
  split at h
  · rename_i s sess hpc
    refine ⟨s, sess, none, hpc, .inr ⟨fun ms hms => absurd hms (Option.not_mem_none ms), ?_⟩⟩
    exact (Option.some.inj h).symm
  · rename_i s sess existing hpc
    refine ⟨s, sess, some existing, hpc, ?_⟩
    split_ifs at h with hresumes
    · exact .inl ⟨existing, rfl, hresumes, (Option.some.inj h).symm⟩
    · refine .inr ⟨fun ms hms => ?_, (Option.some.inj h).symm⟩
      exact Option.some.inj hms ▸ hresumes
  · cases h

theorem serverStep_playSwap (h : serverStep ssl st .playSwap = some st') :
    ∃ sess, st.playPc = .swap sess ∧
      ((st.holder = none ∧ st' = { st with playPc := .start sess }) ∨
        ∃ previous, st.holder = some previous ∧
          st' = { st with holder := none, playPc := .stopping sess previous }) := by
  simp only [serverStep] at h
  split at h
  · rename_i sess hpc
    refine ⟨sess, hpc, ?_⟩
    split at h
    · rename_i hnone
      exact .inl ⟨hnone, (Option.some.inj h).symm⟩
    · rename_i previous hprevious
      exact .inr ⟨previous, hprevious, (Option.some.inj h).symm⟩
  · cases h

theorem serverStep_playStopped (h : serverStep ssl st .playStopped = some st') :
    ∃ sess previous, st.playPc = .stopping sess previous ∧
      st' = { st.stopMedia previous with playPc := .start sess } := by
  simp only [serverStep] at h
  split at h
  · rename_i sess previous hpc
    exact ⟨sess, previous, hpc, (Option.some.inj h).symm⟩
  · cases h

theorem serverStep_playStarted {videoPipeline : Bool}
    (h : serverStep ssl st (.playStarted videoPipeline) = some st') :
    ∃ sess, st.playPc = .start sess ∧
      st' = { st with
        media := st.media ++ [{
          session := sess
          videoPipeline := videoPipeline
          audioChannels := (st.sessions.object sess).audio.channels }]
        playPc := .publish st.media.length } := by
  simp only [serverStep] at h
  split at h
  · rename_i sess hpc
    exact ⟨sess, hpc, (Option.some.inj h).symm⟩
  · cases h

theorem serverStep_playPublish (h : serverStep ssl st .playPublish = some st') :
    ∃ ms, st.playPc = .publish ms ∧ st' = { st with holder := some ms, playPc := .idle } := by
  simp only [serverStep] at h
  split at h
  · rename_i ms hpc
    exact ⟨ms, hpc, (Option.some.inj h).symm⟩
  · cases h

/-! ### Who moves a thread -/

/-- The thread is at a call that blocks. -/
def StopPc.atCall : StopPc → Bool
  | .stopping _ => true
  | _ => false

/-- The `PLAY` is at a call that blocks. -/
def PlayPc.atCall : PlayPc → Bool
  | .stopping .. | .start _ => true
  | _ => false

/-- A thread goes on with `stop_session` by its own steps, and into it only when it is idle. -/
theorem serverStep_stopPc (h : serverStep ssl st event = some st') (thread : StopThread) :
    st'.stopPc thread = st.stopPc thread ∨
      (st.stopPc thread = .idle ∧ ∃ sid, st'.stopPc thread = .locking sid) ∨
      event = .stopLock thread ∨ event = .stopDone thread := by
  cases event with
  | stopLock thread' =>
    by_cases heq : thread = thread'
    · exact .inr (.inr (.inl (heq ▸ rfl)))
    · left
      obtain ⟨sid, -, ⟨victim, -, -, rfl⟩ | ⟨-, rfl⟩⟩ := serverStep_stopLock h
      · rw [stopPc_setStopPc_of_ne heq]
        cases thread <;> rfl
      · exact stopPc_setStopPc_of_ne heq
  | stopDone thread' =>
    by_cases heq : thread = thread'
    · exact .inr (.inr (.inr (heq ▸ rfl)))
    · left
      obtain ⟨victim, -, rfl⟩ := serverStep_stopDone h
      rw [stopPc_setStopPc_of_ne heq]
      cases thread <;> rfl
  | https _ => exact (serverStep_passive h trivial).2 thread |>.imp_right .inl
  | announce => exact (serverStep_passive h trivial).2 thread |>.imp_right .inl
  | connect => exact (serverStep_passive h trivial).2 thread |>.imp_right .inl
  | disconnect => exact (serverStep_passive h trivial).2 thread |>.imp_right .inl
  | receive => exact (serverStep_passive h trivial).2 thread |>.imp_right .inl
  | _ =>
    -- a `PLAY` moves no other thread
    simp only [serverStep] at h
    repeat' split at h
    all_goals cases h
    all_goals exact .inl (by cases thread <;> rfl)

/-- The step a `PLAY` takes next. -/
def PlayPc.Next : PlayPc → ServerEvent Cert → Prop
  | .idle, .play .. | .lookup _, .playLookup | .read .., .playRead | .check .., .playCheck
  | .swap _, .playSwap | .stopping .., .playStopped | .start _, .playStarted _
  | .publish _, .playPublish => True
  | _, _ => False

/-- A `PLAY` goes on by its own steps, one after the other. -/
theorem serverStep_playPc (h : serverStep ssl st event = some st') :
    st'.playPc = st.playPc ∨ st.playPc.Next event := by
  cases event with
  | stopLock thread =>
    obtain ⟨sid, -, ⟨victim, -, -, rfl⟩ | ⟨-, rfl⟩⟩ := serverStep_stopLock h
    · exact .inl playPc_setStopPc
    · exact .inl playPc_setStopPc
  | stopDone thread =>
    obtain ⟨victim, -, rfl⟩ := serverStep_stopDone h
    exact .inl playPc_setStopPc
  | play uriIp hostOpt peerIp =>
    obtain ⟨hpc, -⟩ := serverStep_play h
    exact .inr (hpc ▸ trivial)
  | playLookup =>
    obtain ⟨s, hpc, -⟩ := serverStep_playLookup h
    exact .inr (hpc ▸ trivial)
  | playRead =>
    obtain ⟨s, sess, hpc, -⟩ := serverStep_playRead h
    exact .inr (hpc ▸ trivial)
  | playCheck =>
    obtain ⟨s, sess, found, hpc, -⟩ := serverStep_playCheck h
    exact .inr (hpc ▸ trivial)
  | playSwap =>
    obtain ⟨sess, hpc, -⟩ := serverStep_playSwap h
    exact .inr (hpc ▸ trivial)
  | playStopped =>
    obtain ⟨sess, previous, hpc, -⟩ := serverStep_playStopped h
    exact .inr (hpc ▸ trivial)
  | playStarted video =>
    obtain ⟨sess, hpc, -⟩ := serverStep_playStarted h
    exact .inr (hpc ▸ trivial)
  | playPublish =>
    obtain ⟨ms, hpc, -⟩ := serverStep_playPublish h
    exact .inr (hpc ▸ trivial)
  | _ => exact .inl (serverStep_passive h trivial).1.playPc

/-- The holder changes in critical sections. -/
theorem serverStep_holder (h : serverStep ssl st event = some st') :
    st'.holder = st.holder ∨ (∃ thread, event = .stopLock thread) ∨ event = .playSwap ∨
      event = .playPublish := by
  cases event with
  | stopLock thread => exact .inr (.inl ⟨thread, rfl⟩)
  | playSwap => exact .inr (.inr (.inl rfl))
  | playPublish => exact .inr (.inr (.inr rfl))
  | stopDone thread =>
    obtain ⟨victim, -, rfl⟩ := serverStep_stopDone h
    exact .inl holder_setStopPc
  | _ =>
    left
    simp only [serverStep] at h
    repeat' split at h
    all_goals cases h
    all_goals rfl

/-- Media sessions are added when they are started. -/
theorem serverStep_length_media (h : serverStep ssl st event = some st')
    (hstarted : ∀ video, event ≠ .playStarted video) : st'.media.length = st.media.length := by
  cases event with
  | playStarted video => exact absurd rfl (hstarted video)
  | stopLock thread =>
    obtain ⟨sid, -, ⟨victim, -, -, rfl⟩ | ⟨-, rfl⟩⟩ := serverStep_stopLock h
    · rw [media_setStopPc]
    · rw [media_setStopPc]
  | stopDone thread =>
    obtain ⟨victim, -, rfl⟩ := serverStep_stopDone h
    rw [media_setStopPc]
    exact List.length_modify ..
  | playCheck =>
    obtain ⟨s, sess, found, -, ⟨existing, -, -, rfl⟩ | ⟨-, rfl⟩⟩ := serverStep_playCheck h
    · exact List.length_modify ..
    · rfl
  | playStopped =>
    obtain ⟨sess, previous, -, rfl⟩ := serverStep_playStopped h
    exact List.length_modify ..
  | _ =>
    simp only [serverStep] at h
    repeat' split at h
    all_goals cases h
    all_goals rfl

/-- A media session loses its video pipeline by a `stop()` of its own. -/
theorem serverStep_isActive {ms : MediaRef} (h : serverStep ssl st event = some st')
    (hactive : st.isActive ms = true)
    (hstop : ∀ thread, event = .stopDone thread → st.stopPc thread ≠ .stopping ms)
    (hplay : event = .playStopped → ∀ sess, st.playPc ≠ .stopping sess ms) :
    st'.isActive ms = true := by
  have hlt : ms < st.media.length := by
    by_contra hge
    rw [isActive, List.getElem?_eq_none (Nat.not_lt.mp hge)] at hactive
    cases hactive
  have hother : ∀ victim, victim ≠ ms → (st.stopMedia victim).isActive ms = true := by
    intro victim hne
    rw [isActive, stopMedia, List.getElem?_modify_ne _ _ hne]
    exact hactive
  cases event with
  | stopLock thread =>
    obtain ⟨sid, -, ⟨victim, -, -, rfl⟩ | ⟨-, rfl⟩⟩ := serverStep_stopLock h
    · rw [isActive, media_setStopPc]
      exact hactive
    · rw [isActive, media_setStopPc]
      exact hactive
  | stopDone thread =>
    obtain ⟨victim, hpc, rfl⟩ := serverStep_stopDone h
    rw [isActive, media_setStopPc]
    exact hother victim fun heq => hstop thread rfl (heq ▸ hpc)
  | playCheck =>
    obtain ⟨s, sess, found, -, ⟨existing, -, -, rfl⟩ | ⟨-, rfl⟩⟩ := serverStep_playCheck h
    · -- the channels of its audio pipeline are another field
      rw [isActive] at hactive
      rw [← hactive, isActive, List.getElem?_modify]
      cases st.media[ms]? with
      | none => rfl
      | some m =>
        change MediaSession.videoPipeline (if existing = ms then _ else m) = _
        split_ifs <;> rfl
    · exact hactive
  | playStopped =>
    obtain ⟨sess, previous, hpc, rfl⟩ := serverStep_playStopped h
    exact hother previous fun heq => hplay rfl sess (heq ▸ hpc)
  | playStarted video =>
    obtain ⟨sess, -, rfl⟩ := serverStep_playStarted h
    rw [isActive, List.getElem?_append_left hlt]
    exact hactive
  | _ =>
    simp only [serverStep] at h
    repeat' split at h
    all_goals cases h
    all_goals exact hactive

/-- **What a step does to the registry.** It runs a handler, writes parameters or a flag into one
session, or leaves it as it is. -/
theorem serverStep_registry (h : serverStep ssl st event = some st') :
    (∃ request, event = .https request ∧
      st'.sessions = (handle ssl st.app request).state.sessions) ∨
    (∃ r f, (∀ s : StreamSession, (f s).sessionId = s.sessionId ∧ (f s).clientIp = s.clientIp) ∧
      st'.sessions = st.sessions.modify r f) ∨
    st'.sessions = st.sessions := by
  cases event with
  | https request =>
    simp only [serverStep] at h
    split_ifs at h
    obtain rfl := Option.some.inj h
    exact .inl ⟨request, rfl, rfl⟩
  | stopLock thread =>
    obtain ⟨sid, -, ⟨victim, -, -, rfl⟩ | ⟨-, rfl⟩⟩ := serverStep_stopLock h
    · exact .inr (.inr (congrArg AppState.sessions app_setStopPc))
    · exact .inr (.inr (congrArg AppState.sessions app_setStopPc))
  | stopDone thread =>
    obtain ⟨victim, -, rfl⟩ := serverStep_stopDone h
    exact .inr (.inr (congrArg AppState.sessions app_setStopPc))
  | announce uriIp hostOpt peerIp video audio =>
    obtain rfl | ⟨s, rfl⟩ := serverStep_announce h
    · exact .inr (.inr rfl)
    · exact .inr (.inl ⟨s, fun s => { s with video := video, audio := audio, announced := true },
        fun _ => ⟨rfl, rfl⟩, rfl⟩)
  | play uriIp hostOpt peerIp =>
    obtain ⟨-, rfl | ⟨s, rfl⟩⟩ := serverStep_play h
    · exact .inr (.inr rfl)
    · exact .inr (.inl ⟨s, fun s => { s with playing := true }, fun _ => ⟨rfl, rfl⟩, rfl⟩)
  | _ =>
    simp only [serverStep] at h
    repeat' split at h
    all_goals cases h
    all_goals exact .inr (.inr rfl)

/-- The registry is the business of the HTTPS thread. -/
theorem serverStep_sessions (h : serverStep ssl st event = some st')
    (hhttps : ∀ request, event ≠ .https request) :
    st'.sessions.sessions = st.sessions.sessions := by
  rcases serverStep_registry h with ⟨request, heq, -⟩ | ⟨r, f, -, hsessions⟩ | hsessions
  · exact absurd heq (hhttps request)
  · rw [hsessions]
    rfl
  · rw [hsessions]

/-! ### From hand to hand -/

/-- Between the critical section that empties the holder and the one that fills it. -/
def PlayPc.Launching : PlayPc → Prop
  | .stopping .. | .start _ | .publish _ => True
  | _ => False

namespace ServerState

/-- A media session is handed from the `PLAY` that started it to the holder, and from there to
the thread that stops it. -/
structure Handover (st : ServerState) : Prop where
  /-- While something is launched, the holder is empty. -/
  launching : st.playPc.Launching → st.holder = none
  /-- What a `PLAY` has found is still in there, or has been taken out. -/
  found : ∀ s sess found, st.playPc = .check s sess found →
    st.holder = found ∨ st.holder = none
  /-- Whatever is in the holder, has been found there or is to go there was started last. -/
  last : ∀ ms, st.holder = some ms ∨ st.playPc = .publish ms ∨
    (∃ s sess, st.playPc = .check s sess (some ms)) → ms + 1 = st.media.length
  /-- What was taken out does not come back. -/
  victim : ∀ thread victim, st.stopPc thread = .stopping victim →
    victim < st.media.length ∧ st.holder ≠ some victim ∧ st.playPc ≠ .publish victim

variable {st st' : ServerState} {thread : StopThread} {pc : StopPc}

theorem Handover.of_sameMedia (hst : st.Handover) (hsame : st.SameMedia st')
    (hstop : ∀ thread victim, st'.stopPc thread = .stopping victim →
      st.stopPc thread = .stopping victim) : st'.Handover where
  launching h := by
    rw [hsame.playPc] at h
    rw [hsame.holder]
    exact hst.launching h
  found s sess found h := by
    rw [hsame.playPc] at h
    rw [hsame.holder]
    exact hst.found s sess found h
  last ms h := by
    rw [hsame.playPc, hsame.holder] at h
    rw [hsame.media]
    exact hst.last ms h
  victim thread victim h := by
    rw [hsame.playPc, hsame.holder, hsame.media]
    exact hst.victim thread victim (hstop thread victim h)

/-- A thread gives up its victim, or has none. -/
theorem Handover.setStopPc (hst : st.Handover)
    (hpc : ∀ victim, pc = .stopping victim → st.stopPc thread = .stopping victim) :
    (st.setStopPc pc thread).Handover where
  launching h := by
    rw [holder_setStopPc]
    rw [playPc_setStopPc] at h
    exact hst.launching h
  found s sess found h := by
    rw [holder_setStopPc]
    rw [playPc_setStopPc] at h
    exact hst.found s sess found h
  last ms h := by
    rw [media_setStopPc]
    rw [holder_setStopPc, playPc_setStopPc] at h
    exact hst.last ms h
  victim thread' victim h := by
    rw [holder_setStopPc, playPc_setStopPc, media_setStopPc]
    by_cases heq : thread' = thread
    · subst heq
      rw [stopPc_setStopPc_self] at h
      exact hst.victim thread' victim (hpc victim h)
    · rw [stopPc_setStopPc_of_ne heq] at h
      exact hst.victim thread' victim h

/-- What is in the holder is taken out by `stop_session`. -/
theorem Handover.take {victim : MediaRef} (hst : st.Handover) (hholder : st.holder = some victim) :
    ({ st with holder := none }.setStopPc (.stopping victim) thread).Handover where
  launching _ := holder_setStopPc
  found _ _ _ _ := .inr holder_setStopPc
  last ms h := by
    rw [holder_setStopPc, playPc_setStopPc] at h
    rw [media_setStopPc]
    exact hst.last ms (h.imp_left fun hnone => nomatch hnone)
  victim thread' victim' h := by
    rw [holder_setStopPc, playPc_setStopPc, media_setStopPc]
    by_cases heq : thread' = thread
    · subst heq
      rw [stopPc_setStopPc_self] at h
      obtain rfl := StopPc.stopping.inj h
      refine ⟨?_, nofun, fun hpublish => ?_⟩
      · have hlast := hst.last victim (.inl hholder)
        exact hlast ▸ Nat.lt_succ_self victim
      · have hnone := hst.launching (hpublish ▸ trivial)
        rw [hnone] at hholder
        cases hholder
    · rw [stopPc_setStopPc_of_ne heq] at h
      obtain ⟨hlt, -, hpublish⟩ := hst.victim thread' victim' h
      exact ⟨hlt, nofun, hpublish⟩

/-- A write to a media session that leaves the rest alone. -/
theorem Handover.modify {ms : MediaRef} {f : MediaSession → MediaSession} (hst : st.Handover) :
    { st with media := st.media.modify ms f }.Handover where
  launching := hst.launching
  found := hst.found
  last ms' h := (hst.last ms' h).trans (List.length_modify ..).symm
  victim thread victim h := by
    rw [List.length_modify]
    exact hst.victim thread victim h

/-- A `PLAY` moves on without publishing anything. -/
theorem Handover.playPc {pc : PlayPc} (hst : st.Handover)
    (hlaunching : pc.Launching → st.holder = none) (hpublish : ∀ ms, pc ≠ .publish ms)
    (hfound : ∀ s sess found, pc = .check s sess found → st.holder = found) :
    { st with playPc := pc }.Handover where
  launching := hlaunching
  found s sess found h := .inl (hfound s sess found h)
  last ms h := by
    rcases h with hholder | hms | ⟨s, sess, hcheck⟩
    · exact hst.last ms (.inl hholder)
    · exact absurd hms (hpublish ms)
    · exact hst.last ms (.inl (hfound s sess _ hcheck))
  victim thread victim h := by
    obtain ⟨hlt, hholder, -⟩ := hst.victim thread victim h
    exact ⟨hlt, hholder, hpublish victim⟩

end ServerState

/-- Every step keeps it. -/
theorem serverStep_handover (hst : st.Handover) (h : serverStep ssl st event = some st') :
    st'.Handover := by
  cases event with
  | stopLock thread =>
    obtain ⟨sid, hpc, ⟨victim, hholder, -, rfl⟩ | ⟨-, rfl⟩⟩ := serverStep_stopLock h
    · exact hst.take hholder
    · exact hst.setStopPc nofun
  | stopDone thread =>
    obtain ⟨victim, hpc, rfl⟩ := serverStep_stopDone h
    exact Handover.setStopPc hst.modify nofun
  | play uriIp hostOpt peerIp =>
    obtain ⟨hidle, rfl | ⟨s, rfl⟩⟩ := serverStep_play h
    · exact hst
    · have hlookup : { st with playPc := .lookup s }.Handover := hst.playPc nofun nofun nofun
      exact hlookup.of_sameMedia ⟨rfl, rfl, rfl⟩ fun thread victim hstop => by
        cases thread <;> exact hstop
  | playLookup =>
    obtain ⟨s, hpc, ⟨-, rfl⟩ | ⟨sess, -, rfl⟩⟩ := serverStep_playLookup h
    · exact hst.playPc nofun nofun nofun
    · exact hst.playPc nofun nofun nofun
  | playRead =>
    obtain ⟨s, sess, hpc, rfl⟩ := serverStep_playRead h
    refine hst.playPc nofun nofun fun s' sess' found hfound => ?_
    exact (PlayPc.check.inj hfound).2.2
  | playCheck =>
    obtain ⟨s, sess, found, hpc, ⟨existing, -, -, rfl⟩ | ⟨-, rfl⟩⟩ := serverStep_playCheck h
    · exact Handover.playPc hst.modify nofun nofun nofun
    · exact hst.playPc nofun nofun nofun
  | playSwap =>
    obtain ⟨sess, hpc, ⟨hnone, rfl⟩ | ⟨previous, hprevious, rfl⟩⟩ := serverStep_playSwap h
    · exact hst.playPc (fun _ => hnone) nofun nofun
    · refine ⟨fun _ => rfl, nofun, fun ms hms => ?_, fun thread victim hstop => ?_⟩
      · rcases hms with hms | hms | ⟨s, sess, hms⟩ <;> cases hms
      · exact ⟨(hst.victim thread victim hstop).1, nofun, nofun⟩
  | playStopped =>
    obtain ⟨sess, previous, hpc, rfl⟩ := serverStep_playStopped h
    have hnone := hst.launching (hpc ▸ trivial)
    exact Handover.playPc hst.modify (fun _ => hnone) nofun nofun
  | playStarted videoPipeline =>
    obtain ⟨sess, hpc, rfl⟩ := serverStep_playStarted h
    have hnone := hst.launching (hpc ▸ trivial)
    refine ⟨fun _ => hnone, nofun, fun ms hms => ?_, fun thread victim hstop => ?_⟩
    · rw [List.length_append, List.length_singleton]
      rcases hms with hms | hms | ⟨s, sess, hms⟩
      · cases hnone.symm.trans hms
      · exact congrArg Nat.succ (PlayPc.publish.inj hms).symm
      · cases hms
    · obtain ⟨hlt, hholder, -⟩ := hst.victim thread victim hstop
      rw [List.length_append, List.length_singleton]
      refine ⟨Nat.lt_succ_of_lt hlt, hholder, fun hpublish => ?_⟩
      exact Nat.lt_irrefl _ (PlayPc.publish.inj hpublish ▸ hlt)
  | playPublish =>
    obtain ⟨ms, hpc, rfl⟩ := serverStep_playPublish h
    refine ⟨nofun, nofun, fun ms' hms => ?_, fun thread victim hstop => ?_⟩
    · rcases hms with hms | hms | ⟨s, sess, hms⟩
      · exact Option.some.inj hms ▸ hst.last ms (.inr (.inl hpc))
      · cases hms
      · cases hms
    · obtain ⟨hlt, -, hpublish⟩ := hst.victim thread victim hstop
      exact ⟨hlt, fun hms => hpublish (Option.some.inj hms ▸ hpc), nofun⟩
  | _ =>
    obtain ⟨hsame, hstop⟩ := serverStep_passive h trivial
    refine hst.of_sameMedia hsame fun thread victim hstopping => ?_
    rcases hstop thread with heq | ⟨-, sid, hlocking⟩
    · exact heq ▸ hstopping
    · cases hlocking.symm.trans hstopping

theorem wellFormed_isInvariant (app : AppState) :
    (serverSystem ssl app).IsInvariant ServerState.WellFormed where
  init := by
    refine ⟨?_, ?_, rfl⟩
    · intro r hr
      cases hr
    · intro ms hms
      cases hms
  step := serverStep_wellFormed

theorem handover_isInvariant (app : AppState) :
    (serverSystem ssl app).IsInvariant ServerState.Handover where
  init := by
    refine ⟨nofun, nofun, ?_, ?_⟩
    · rintro ms (hms | hms | ⟨s, sess, hms⟩) <;> cases hms
    · intro thread victim hstop
      cases thread <;> cases hstop
  step := serverStep_handover

end Steps

end SteamStream.Server
