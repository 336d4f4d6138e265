import SteamStream.Server.Threads

/-!
# A `PLAY` from its lookup to its end

What the RTSP thread calls on the media sessions in the course of a `PLAY`. Once the registry
has named its session, the `PLAY` either resumes the media it finds in the holder, with exactly
the calls of the resume path, or it comes to `MediaSession::start` (`resumesOtherwise`).
-/

namespace SteamStream.Server

open Wire Session Control Rest Runs X509

/-! ### Calls -/

/-- A call on a media session, by `stop_session` or by a `PLAY`. -/
inductive MediaCall
  | start (sess : SessionRef)
  | stop (ms : MediaRef)
  | updateBitrate (ms : MediaRef) (bitrateKbps fps : ℤ)
  | rebuildAudio (ms : MediaRef) (channels : ℤ)
  | retarget (ms : MediaRef)
  | forceIdr (ms : MediaRef)
  deriving DecidableEq, Repr

/-- `MediaSession::audio_channels`. -/
def ServerState.audioChannels (st : ServerState) (ms : MediaRef) : ℤ :=
  ((st.media[ms]?).map MediaSession.audioChannels).getD 2

/-- The resume path: the bitrate, the audio pipeline if its layout has changed, the target of the
streams, and a key frame. -/
def resumeCalls (st : ServerState) (s : SessionRef) (existing : MediaRef) : List MediaCall :=
  let session := st.sessions.object s
  [.updateBitrate existing session.video.bitrateKbps session.video.fps] ++
    (if st.audioChannels existing ≠ session.audio.channels then
      [.rebuildAudio existing session.audio.channels] else []) ++
    [.retarget existing, .forceIdr existing]

/-- The resume path without and with a new layout of the audio. -/
theorem resumeCalls_eq {st : ServerState} {s : SessionRef} {existing : MediaRef} :
    resumeCalls st s existing =
      let session := st.sessions.object s
      if st.audioChannels existing = session.audio.channels then
        [.updateBitrate existing session.video.bitrateKbps session.video.fps,
          .retarget existing, .forceIdr existing]
      else
        [.updateBitrate existing session.video.bitrateKbps session.video.fps,
          .rebuildAudio existing session.audio.channels,
          .retarget existing, .forceIdr existing] := by
  unfold resumeCalls
  dsimp only
  by_cases hsame : st.audioChannels existing = (st.sessions.object s).audio.channels
  · rw [if_pos hsame, if_neg (not_not.mpr hsame)]
    rfl
  · rw [if_neg hsame, if_pos hsame]
    rfl

/-- The calls of a step on the RTSP thread. -/
def playCalls {Cert : Type} (p : Process) : ThreadEvent Cert → List MediaCall
  | .call .rtsp =>
    match p.server.playPc with
    | .stopping _ previous => [.stop previous]
    | .start sess => [.start sess]
    | _ => []
  | .server .playCheck =>
    match p.server.playPc with
    | .check s _ (some existing) =>
      if Resumes p.server s existing then resumeCalls p.server s existing else []
    | _ => []
  | _ => []

/-- The calls of a step on the threads of `stop_session`. -/
def stopCalls {Cert : Type} (p : Process) : ThreadEvent Cert → List MediaCall
  | .call (.stop thread) =>
    match p.server.stopPc thread with
    | .stopping victim => [.stop victim]
    | _ => []
  | _ => []

section Calls

variable {Cert : Type} {p : Process} {event : ThreadEvent Cert}

/-- The resume path starts nothing and stops nothing. -/
private theorem mem_resumeCalls {st : ServerState} {s : SessionRef} {existing : MediaRef}
    {call : MediaCall} (h : call ∈ resumeCalls st s existing) :
    (∀ sess, call ≠ .start sess) ∧ ∀ ms, call ≠ .stop ms := by
  unfold resumeCalls at h
  dsimp only at h
  split_ifs at h <;> simp only [List.cons_append, List.nil_append, List.mem_cons,
    List.not_mem_nil, or_false] at h
  · rcases h with rfl | rfl | rfl | rfl <;> exact ⟨nofun, nofun⟩
  · rcases h with rfl | rfl | rfl <;> exact ⟨nofun, nofun⟩

/-- Only the beginning of `MediaSession::start` calls it. -/
theorem start_mem_playCalls {sess : SessionRef} :
    .start sess ∈ playCalls p event ↔ event = .call .rtsp ∧ p.server.playPc = .start sess := by
  constructor
  · intro hmem
    unfold playCalls at hmem
    split at hmem
    · split at hmem
      · cases List.mem_singleton.mp hmem
      · rename_i sess' hpc
        obtain rfl := MediaCall.start.inj (List.mem_singleton.mp hmem)
        exact ⟨rfl, hpc⟩
      · exact absurd hmem List.not_mem_nil
    · split at hmem
      · split_ifs at hmem
        · exact absurd rfl ((mem_resumeCalls hmem).1 sess)
        · exact absurd hmem List.not_mem_nil
      · exact absurd hmem List.not_mem_nil
    · exact absurd hmem List.not_mem_nil
  · rintro ⟨rfl, hpc⟩
    simp only [playCalls, hpc, List.mem_singleton]

/-- A `PLAY` calls `stop()` on what its swap has taken out. -/
theorem stop_mem_playCalls {ms : MediaRef} (hmem : .stop ms ∈ playCalls p event) :
    event = .call .rtsp ∧ ∃ sess, p.server.playPc = .stopping sess ms := by
  unfold playCalls at hmem
  split at hmem
  · split at hmem
    · rename_i sess previous hpc
      obtain rfl := MediaCall.stop.inj (List.mem_singleton.mp hmem)
      exact ⟨rfl, sess, hpc⟩
    · cases List.mem_singleton.mp hmem
    · exact absurd hmem List.not_mem_nil
  · split at hmem
    · split_ifs at hmem
      · exact absurd rfl ((mem_resumeCalls hmem).2 ms)
      · exact absurd hmem List.not_mem_nil
    · exact absurd hmem List.not_mem_nil
  · exact absurd hmem List.not_mem_nil

/-- So does `stop_session`. -/
theorem stop_mem_stopCalls {ms : MediaRef} (hmem : .stop ms ∈ stopCalls p event) :
    ∃ thread, event = .call (.stop thread) ∧ p.server.stopPc thread = .stopping ms := by
  unfold stopCalls at hmem
  split at hmem
  · rename_i thread
    split at hmem
    · rename_i victim hpc
      obtain rfl := MediaCall.stop.inj (List.mem_singleton.mp hmem)
      exact ⟨thread, rfl, hpc⟩
    · exact absurd hmem List.not_mem_nil
  · exact absurd hmem List.not_mem_nil

end Calls

/-! ### The session of a `PLAY` -/

/-- The session the RTSP server has found for a `PLAY`, as long as that still counts. -/
def PlayPc.requested : PlayPc → Option SessionRef
  | .lookup s | .read s _ | .check s _ _ => some s
  | _ => none

namespace ServerState

/-- That session exists, and what `get_by_id` has found for it has its id. -/
structure Plays (st : ServerState) : Prop where
  requested_lt : ∀ s, st.playPc.requested = some s → s < st.sessions.objects.length
  same : ∀ s sess, (st.playPc = .read s sess ∨ ∃ found, st.playPc = .check s sess found) →
    st.idOf sess = st.idOf s

end ServerState

section Step

open ServerState

variable {Cert : Type} {ssl : OpenSSL Cert} {st st' : ServerState} {event : ServerEvent Cert}

/-- The `PLAY` stays where it is, or where there is nothing to show. -/
private theorem plays_of_extends (hwf : st.WellFormed) (hst : st.Plays) (hext : st.Extends st')
    (hpc : st'.playPc = st.playPc ∨ st'.playPc.requested = none) : st'.Plays := by
  rcases hpc with hpc | hnone
  · refine ⟨fun s hs => ?_, fun s sess hs => ?_⟩
    · exact (hst.requested_lt s (hpc ▸ hs)).trans_le hext.sessions.length_le
    · rw [hpc] at hs
      have hrequested : st.playPc.requested = some s := by
        rcases hs with hs | ⟨found, hs⟩ <;> rw [hs] <;> rfl
      have htarget : st.playPc.target = some sess := by
        rcases hs with hs | ⟨found, hs⟩ <;> rw [hs] <;> rfl
      have hsess : sess < st.sessions.objects.length := by
        refine hwf.sessionRefs_lt sess (List.mem_append_right _ ?_)
        rw [htarget]
        exact List.mem_singleton_self sess
      rw [hext.idOf_eq hsess, hext.idOf_eq (hst.requested_lt s hrequested)]
      exact hst.same s sess hs
  · refine ⟨fun s hs => (nomatch hnone.symm.trans hs), fun s sess hs => ?_⟩
    rcases hs with hs | ⟨found, hs⟩ <;> rw [hs] at hnone <;> cases hnone

theorem mem_of_getForRtsp {reg : SessionRegistry} {uriIp hostOpt peerIp : Bytes} {s : SessionRef}
    (h : reg.getForRtsp uriIp hostOpt peerIp = some s) : s ∈ reg.sessions :=
  (SessionRegistry.find?_eq_some h).1

theorem serverStep_plays (hwf : st.WellFormed) (hst : st.Plays)
    (h : serverStep ssl st event = some st') : st'.Plays := by
  have hext := serverStep_extends h
  cases event with
  | stopLock thread =>
    refine plays_of_extends hwf hst hext (.inl ?_)
    obtain ⟨sid, -, ⟨victim, -, -, rfl⟩ | ⟨-, rfl⟩⟩ := serverStep_stopLock h
    · exact playPc_setStopPc
    · exact playPc_setStopPc
  | stopDone thread =>
    refine plays_of_extends hwf hst hext (.inl ?_)
    obtain ⟨victim, -, rfl⟩ := serverStep_stopDone h
    exact playPc_setStopPc
  | play uriIp hostOpt peerIp =>
    simp only [serverStep] at h
    split_ifs at h with hidle
    split at h
    · obtain rfl := Option.some.inj h
      exact hst
    · rename_i s hs
      obtain rfl := Option.some.inj h
      refine ⟨fun s' hs' => ?_, fun s' sess hs' => ?_⟩
      · obtain rfl := Option.some.inj hs'
        exact (st.sessions.sessions_lt s (mem_of_getForRtsp hs)).trans_le hext.sessions.length_le
      · rcases hs' with hs' | ⟨found, hs'⟩ <;> cases hs'
  | playLookup =>
    obtain ⟨s, hpc, ⟨-, rfl⟩ | ⟨sess, hsess, rfl⟩⟩ := serverStep_playLookup h
    · exact plays_of_extends hwf hst hext (.inr rfl)
    · refine ⟨fun s' hs' => hst.requested_lt s' (hpc ▸ hs'), fun s' sess' hs' => ?_⟩
      rcases hs' with hs' | ⟨found, hs'⟩
      · obtain ⟨rfl, rfl⟩ := PlayPc.read.inj hs'
        exact SessionRegistry.sessionId_of_getById hsess
      · cases hs'
  | playRead =>
    obtain ⟨s, sess, hpc, rfl⟩ := serverStep_playRead h
    refine ⟨fun s' hs' => hst.requested_lt s' (hpc ▸ hs'), fun s' sess' hs' => ?_⟩
    rcases hs' with hs' | ⟨found, hs'⟩
    · cases hs'
    · obtain ⟨rfl, rfl, -⟩ := PlayPc.check.inj hs'
      exact hst.same s sess (.inl hpc)
  | playCheck =>
    refine plays_of_extends hwf hst hext (.inr ?_)
    obtain ⟨s, sess, found, -, ⟨existing, -, -, rfl⟩ | ⟨-, rfl⟩⟩ := serverStep_playCheck h
    · rfl
    · rfl
  | playSwap =>
    refine plays_of_extends hwf hst hext (.inr ?_)
    obtain ⟨sess, -, ⟨-, rfl⟩ | ⟨previous, -, rfl⟩⟩ := serverStep_playSwap h
    · rfl
    · rfl
  | playStopped =>
    refine plays_of_extends hwf hst hext (.inr ?_)
    obtain ⟨sess, previous, -, rfl⟩ := serverStep_playStopped h
    rfl
  | playStarted videoPipeline =>
    refine plays_of_extends hwf hst hext (.inr ?_)
    obtain ⟨sess, -, rfl⟩ := serverStep_playStarted h
    rfl
  | playPublish =>
    refine plays_of_extends hwf hst hext (.inr ?_)
    obtain ⟨ms, -, rfl⟩ := serverStep_playPublish h
    rfl
  | _ =>
    exact plays_of_extends hwf hst hext (.inl (serverStep_passive h trivial).1.playPc)

end Step

/-! ### The state of the process -/

section Process

variable {Cert : Type} {ssl : OpenSSL Cert} {p p' : Process}

/-- What holds in every state of the process. -/
structure Process.Sound (p : Process) : Prop where
  wellFormed : p.server.WellFormed
  handover : p.server.Handover
  plays : p.server.Plays
  callsBegun : p.CallsBegun

end Process

section Runs

variable {Cert : Type} (ssl : OpenSSL Cert) (app : AppState)

theorem sound_isInvariant : (threadSystem ssl app).IsInvariant Process.Sound where
  init := {
    wellFormed := ((threadSystem_erases app).isInvariant (wellFormed_isInvariant app)).init
    handover := (process_handover_isInvariant ssl app).init
    plays := ⟨nofun, fun s sess hs => by rcases hs with hs | ⟨found, hs⟩ <;> cases hs⟩
    callsBegun := nofun }
  step {p p' event} hp h := {
    wellFormed := ((threadSystem_erases app).isInvariant (wellFormed_isInvariant app)).step
      hp.wellFormed h
    handover := (process_handover_isInvariant ssl app).step hp.handover h
    plays := by
      rcases (threadSystem_erases app).step h with ⟨-, hsame⟩ | ⟨j, -, hstep⟩
      · exact hsame.symm ▸ hp.plays
      · exact serverStep_plays hp.wellFormed hp.plays hstep
    callsBegun := threadStep_callsBegun hp.callsBegun h }

/-- Every `PLAY` in the run that has found its session either calls `MediaSession::start`, or
makes exactly these calls, in this order, on the media session that was started last and belongs
to its session: it updates the bitrate, rebuilds the audio pipeline if the number of channels
has changed, moves the streams to the client and forces a key frame. -/
def ResumesOtherwise (events : List (ThreadEvent Cert)) : Prop :=
  ∀ before during after p₁ p₂ s sess, events = before ++ (during ++ after) →
    (threadSystem ssl app).run (threadSystem ssl app).init before = some p₁ →
      p₁.server.playPc = .read s sess → (threadSystem ssl app).run p₁ during = some p₂ →
        p₂.server.playPc = .idle →
          (threadSystem ssl app).Along (fun p _ => p.server.playPc ≠ .idle) p₁ during →
            (∃ sess', .start sess' ∈ (threadSystem ssl app).outputs playCalls p₁ during) ∨
              ∃ front p existing, during = front ++ [.server .playCheck] ∧
                (threadSystem ssl app).run p₁ front = some p ∧
                p.server.mediaId existing = p.server.idOf s ∧
                existing + 1 = p.server.media.length ∧
                (threadSystem ssl app).outputs playCalls p₁ during =
                  let session := p.server.sessions.object s
                  if p.server.audioChannels existing = session.audio.channels then
                    [.updateBitrate existing session.video.bitrateKbps session.video.fps,
                      .retarget existing, .forceIdr existing]
                  else
                    [.updateBitrate existing session.video.bitrateKbps session.video.fps,
                      .rebuildAudio existing session.audio.channels,
                      .retarget existing, .forceIdr existing]

variable {ssl app} {p p' : Process}

/-- A call that has not begun does not begin in a step of the server. -/
theorem begun_of_server {event : ServerEvent Cert} {thread : Thread}
    (h : threadStep ssl p (.server event) = some p') (hbegun : p.begun thread = false) :
    p'.begun thread = false := by
  obtain ⟨-, hreturn, hother⟩ := threadStep_server h
  cases hret : event.isReturn with
  | false => exact (congrFun (hother hret) thread).trans hbegun
  | true =>
    rw [(hreturn hret).2]
    by_cases heq : thread = event.thread
    · rw [heq, Function.update_self]
    · rw [Function.update_of_ne heq, hbegun]

/-- The `PLAY` is past its check, and has not called `MediaSession::start` yet. -/
def Process.BeforeStart (p : Process) : Prop :=
  match p.server.playPc with
  | .swap _ | .stopping .. => True
  | .start _ => p.begun .rtsp = false
  | _ => False

theorem beforeStart_step {event : ThreadEvent Cert} (hp : p.Sound) (hbefore : p.BeforeStart)
    (hnot : ¬ (event = .call .rtsp ∧ ∃ sess, p.server.playPc = .start sess))
    (h : threadStep ssl p event = some p') : p'.BeforeStart := by
  cases event with
  | server event =>
    obtain ⟨hstep, hreturn, -⟩ := threadStep_server h
    have hkeep : p.begun .rtsp = false → p'.begun .rtsp = false := begun_of_server h
    unfold Process.BeforeStart at hbefore ⊢
    rcases serverStep_playPc hstep with hsame | hnext
    · rw [hsame]
      split at hbefore
      · trivial
      · trivial
      · exact hkeep hbefore
      · exact hbefore.elim
    · cases event with
      | playSwap =>
        obtain ⟨sess, hpc, hcases⟩ := serverStep_playSwap hstep
        have hrtsp : p.begun .rtsp = false := by
          by_contra hbegun
          have hcall := hp.callsBegun .rtsp (Bool.not_eq_false _ ▸ hbegun)
          rw [ServerState.atCall, hpc] at hcall
          cases hcall
        rcases hcases with ⟨-, heq⟩ | ⟨previous, -, heq⟩
        · rw [heq]
          exact hkeep hrtsp
        · rw [heq]
          trivial
      | playStopped =>
        obtain ⟨sess, previous, -, heq⟩ := serverStep_playStopped hstep
        rw [heq, (hreturn rfl).2]
        exact Function.update_self ..
      | playStarted video =>
        obtain ⟨sess, hpc, -⟩ := serverStep_playStarted hstep
        rw [hpc] at hbefore
        cases hbefore.symm.trans (hreturn rfl).1
      | _ => cases hpc : p.server.playPc <;> rw [hpc] at hnext hbefore <;>
          first | exact hnext.elim | exact hbefore.elim
  | call thread =>
    obtain ⟨-, -, rfl⟩ := threadStep_call h
    unfold Process.BeforeStart at hbefore ⊢
    dsimp only at hbefore ⊢
    split at hbefore
    · trivial
    · trivial
    · rename_i sess hpc
      have hne : Thread.rtsp ≠ thread := fun heq => hnot ⟨heq ▸ rfl, sess, hpc⟩
      exact (Function.update_of_ne hne ..).trans hbefore
    · exact hbefore.elim
  | lock thread =>
    obtain rfl := threadStep_lock h
    exact hbefore
  | unlock thread =>
    obtain rfl := threadStep_unlock h
    exact hbefore
  | release thread =>
    obtain ⟨expiring, destroying, rfl⟩ := threadStep_references (.inl rfl) h
    exact hbefore
  | destroyed thread =>
    obtain ⟨expiring, destroying, rfl⟩ := threadStep_references (.inr rfl) h
    exact hbefore

/-- Past its check a `PLAY` does not come to its end without a start. -/
theorem exists_start {events : List (ThreadEvent Cert)} (hp : p.Sound) (hbefore : p.BeforeStart)
    (hrun : (threadSystem ssl app).run p events = some p') (hidle : p'.server.playPc = .idle) :
    ∃ front q back sess, events = front ++ .call .rtsp :: back ∧
      (threadSystem ssl app).run p front = some q ∧ q.server.playPc = .start sess := by
  have hinv := System.run_until (I := fun p => p.Sound ∧ p.BeforeStart) (P := fun _ _ => True)
    (Q := fun p event => event = .call .rtsp ∧ ∃ sess, p.server.playPc = .start sess)
    (fun {q event q'} hq _ hnot hstep =>
      ⟨(sound_isInvariant ssl app).step hq.1 hstep, beforeStart_step hq.1 hq.2 hnot hstep⟩)
    ⟨hp, hbefore⟩ (System.along_of_forall fun _ _ _ => trivial) hrun
  rcases hinv with ⟨-, hlast⟩ | ⟨front, q, event, back, hsplit, hfront, -, ⟨rfl, sess, hpc⟩, -⟩
  · rw [Process.BeforeStart, hidle] at hlast
    exact hlast.elim
  · exact ⟨front, q, back, sess, hsplit, hfront, hpc⟩

/-- The `PLAY` has found its session and has not made up its mind. -/
def Process.BeforeCheck (s sess : SessionRef) (p : Process) : Prop :=
  p.server.playPc = .read s sess ∨ ∃ found, p.server.playPc = .check s sess found

/-- Up to its check it calls nothing. -/
theorem playCalls_eq_nil {event : ThreadEvent Cert} {s sess : SessionRef}
    (hpc : p.BeforeCheck s sess) (hnot : event ≠ .server .playCheck) :
    playCalls p event = [] := by
  unfold playCalls
  split
  · rcases hpc with hpc | ⟨found, hpc⟩ <;> rw [hpc]
  · exact absurd rfl hnot
  · rfl

theorem beforeCheck_step {event : ThreadEvent Cert} {s sess : SessionRef}
    (hpc : p.BeforeCheck s sess) (hnot : event ≠ .server .playCheck)
    (h : threadStep ssl p event = some p') : p'.BeforeCheck s sess := by
  unfold Process.BeforeCheck at hpc ⊢
  cases event with
  | server event =>
    have hstep := (threadStep_server h).1
    rcases serverStep_playPc hstep with hsame | hnext
    · rwa [hsame]
    · cases event with
      | playRead =>
        obtain ⟨s', sess', hpc', heq⟩ := serverStep_playRead hstep
        rcases hpc with hpc | ⟨found, hpc⟩
        · obtain ⟨rfl, rfl⟩ := PlayPc.read.inj (hpc.symm.trans hpc')
          exact .inr ⟨_, by rw [heq]⟩
        · cases hpc.symm.trans hpc'
      | playCheck => exact absurd rfl hnot
      | _ => rcases hpc with hpc | ⟨found, hpc⟩ <;> rw [hpc] at hnext <;> exact hnext.elim
  | _ => rwa [threadStep_other h rfl]

/-- A `PLAY` that does not launch resumes. -/
theorem resumesOtherwise (events : List (ThreadEvent Cert)) :
    ResumesOtherwise ssl app events := by
  rintro before during after p₁ p₂ s sess rfl hrun₁ hread hrun₂ hidle halong
  have hsound := (sound_isInvariant ssl app).run (sound_isInvariant ssl app).init hrun₁
  have hinv := System.run_until (I := fun p => p.Sound ∧ p.BeforeCheck s sess)
    (P := fun _ _ => True) (Q := fun _ event => event = .server .playCheck)
    (fun {q event q'} hq _ hnot hstep =>
      ⟨(sound_isInvariant ssl app).step hq.1 hstep, beforeCheck_step hq.2 hnot hstep⟩)
    ⟨hsound, .inl hread⟩ (System.along_of_forall fun _ _ _ => trivial) hrun₂
  rcases hinv with ⟨-, hlast⟩ | ⟨front, p, event, back, rfl, hfront, ⟨hp, hpc⟩, rfl, hquiet⟩
  · rcases hlast with hlast | ⟨found, hlast⟩ <;> cases hidle.symm.trans hlast
  have hnone : (threadSystem ssl app).outputs playCalls p₁ front = [] :=
    System.outputs_eq_nil (hquiet.mono fun q event hq => playCalls_eq_nil hq.1.2 hq.2)
  rw [System.run_append, hfront, Option.bind_some] at hrun₂
  obtain ⟨p', hcheck, hback⟩ := Option.bind_eq_some_iff.mp hrun₂
  change threadStep ssl p (.server .playCheck) = some p' at hcheck
  obtain ⟨s', sess', found, hpc', hcases⟩ := serverStep_playCheck (threadStep_server hcheck).1
  have hsame : s' = s := by
    rcases hpc with hpc | ⟨found', hpc⟩
    · cases hpc.symm.trans hpc'
    · exact (PlayPc.check.inj (hpc.symm.trans hpc')).1.symm
  subst hsame
  rcases hcases with ⟨existing, rfl, hresumes, heq⟩ | ⟨-, heq⟩
  · -- the resume path ends it
    have hend : back = [] := by
      have hrest := ((System.along_append_iff.mp halong).2 p hfront).2 p' hcheck
      cases back with
      | nil => rfl
      | cons event back => exact absurd (by rw [heq]) hrest.1
    subst hend
    refine .inr ⟨front, p, existing, rfl, hfront, hresumes.1,
      hp.handover.last existing (.inr (.inr ⟨s', sess', hpc'⟩)), ?_⟩
    rw [System.outputs_append hfront, hnone, List.nil_append, System.outputs_cons_of_step hcheck]
    simp only [playCalls, hpc', if_pos hresumes, System.outputs, List.append_nil]
    exact resumeCalls_eq
  · -- otherwise it launches
    have hbefore : p'.BeforeStart := by
      rw [Process.BeforeStart, heq]
      trivial
    obtain ⟨front', q, back', sess'', rfl, hfront', hstart⟩ :=
      exists_start ((sound_isInvariant ssl app).step (i := .server .playCheck) hp hcheck)
        hbefore hback hidle
    refine .inl ⟨sess'', ?_⟩
    have hsplit : front ++ .server .playCheck :: (front' ++ .call .rtsp :: back') =
        (front ++ .server .playCheck :: front') ++ .call .rtsp :: back' := by
      rw [List.append_assoc, List.cons_append]
    rw [hsplit]
    refine System.mem_outputs (t := q) ?_ ?_
    · rw [System.run_append, hfront, Option.bind_some, System.run_cons_of_step hcheck]
      exact hfront'
    · simp only [playCalls, hstart, List.mem_singleton]

end Runs

end SteamStream.Server
