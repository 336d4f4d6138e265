import SteamStream.Rest.Clients
import SteamStream.Server.Steps

/-!
# What the threads write into a session

A launch creates a session, with all that it draws and all that its query says. Afterwards a
resume writes the address and the key, an `ANNOUNCE` the parameters and a `PLAY` its flag
(`handle_objects`, `serverStep_objects`). What none of these writes touches is `Fixed`: every
session has it from its launch on (`Fixed.run`).
-/

namespace SteamStream.Server

open Wire Session Control Rest Runs X509

section Objects

variable {Cert : Type} {ssl : OpenSSL Cert} {state : AppState} {event : Event Cert}

/-- **What a request does to the session objects.** It hands out no address and leaves them
alone, or it hands out the address of a registered session, which it leaves alone or resumes, or
that of a session it has created. -/
theorem handle_objects :
    ((handle ssl state event).session = none ∧
      (handle ssl state event).state.sessions.objects = state.sessions.objects) ∨
    (∃ sess ∈ state.sessions.sessions, (handle ssl state event).session = some sess ∧
      ((handle ssl state event).state.sessions.objects = state.sessions.objects ∨
        (handle ssl state event).state.sessions = captureKey
          (adoptClient state.sessions sess event.req.clientIp) sess event.req.headers)) ∨
    ((handle ssl state event).session = some state.sessions.objects.length ∧
      ∃ s headers clientIp rand, (createLaunchSession state headers clientIp rand).1 = some s ∧
        (handle ssl state event).state.sessions.objects = state.sessions.objects ++ [s]) := by
  cases event with
  | launch req rand =>
    simp only [handle, launch]
    cases clientIfPaired ssl state req with
    | none => exact .inl ⟨rfl, rfl⟩
    | some client =>
      cases hfound : state.sessions.getByClientIp req.clientIp with
      | some sess =>
        exact .inr (.inl ⟨sess, SessionRegistry.mem_of_getByClientIp hfound, rfl, .inl rfl⟩)
      | none =>
        have hid := @createLaunchSession_snd state req.headers req.clientIp rand
        rcases hnew : createLaunchSession state req.headers req.clientIp rand with ⟨_ | s, state'⟩
        · obtain rfl : state' = _ := (congrArg Prod.snd hnew).symm.trans hid
          exact .inl ⟨rfl, rfl⟩
        · obtain rfl : state' = _ := (congrArg Prod.snd hnew).symm.trans hid
          exact .inr (.inr ⟨rfl, s, req.headers, req.clientIp, rand, congrArg Prod.fst hnew, rfl⟩)
  | resume req =>
    simp only [handle, resume]
    cases clientIfPaired ssl state req with
    | none => exact .inl ⟨rfl, rfl⟩
    | some client =>
      cases hfound : (state.sessions.getByClientIp req.clientIp).or state.sessions.getRunning with
      | none => exact .inl ⟨rfl, rfl⟩
      | some sess =>
        refine .inr (.inl ⟨sess, ?_, rfl, .inr rfl⟩)
        rcases Option.or_eq_some_iff.mp hfound with hfound | ⟨-, hfound⟩
        · exact SessionRegistry.mem_of_getByClientIp hfound
        · exact SessionRegistry.mem_of_getRunning hfound
  | cancel req =>
    simp only [handle, cancel]
    cases clientIfPaired ssl state req with
    | none => exact .inl ⟨rfl, rfl⟩
    | some client =>
      cases state.sessions.getByClientIp req.clientIp with
      | none => exact .inl ⟨rfl, rfl⟩
      | some sess => exact .inl ⟨rfl, rfl⟩

/-- A session whose address is handed out exists. -/
theorem session_lt {sess : SessionRef} (h : (handle ssl state event).session = some sess) :
    sess < (handle ssl state event).state.sessions.objects.length := by
  have hle := (@handle_extends Cert ssl state event).length_le
  rcases @handle_objects Cert ssl state event with
    ⟨hnone, -⟩ | ⟨named, hmem, hnamed, -⟩ | ⟨hnamed, s, -, -, -, -, hobjects⟩
  · rw [hnone] at h
    cases h
  · obtain rfl := Option.some.inj (hnamed.symm.trans h)
    exact (state.sessions.sessions_lt _ hmem).trans_le hle
  · obtain rfl := Option.some.inj (hnamed.symm.trans h)
    rw [hobjects]
    simp

/-- **What a step does to the session objects.** It runs a handler, writes the parameters of an
`ANNOUNCE` or the flag of a `PLAY` into one session, or leaves them alone. -/
theorem serverStep_objects {st st' : ServerState} {e : ServerEvent Cert}
    (h : serverStep ssl st e = some st') :
    (∃ request, e = .https request ∧
      st'.sessions = (handle ssl st.app request).state.sessions) ∨
    (∃ sess video audio, st'.sessions = st.sessions.modify sess fun s =>
      { s with video := video, audio := audio, announced := true }) ∨
    (∃ sess, st'.sessions = st.sessions.modify sess fun s => { s with playing := true }) ∨
    st'.sessions = st.sessions := by
  cases e with
  | https request =>
    simp only [serverStep] at h
    split_ifs at h
    exact .inl ⟨request, rfl, Option.some.inj h ▸ rfl⟩
  | stopLock thread =>
    obtain ⟨sid, -, ⟨victim, -, -, rfl⟩ | ⟨-, rfl⟩⟩ := serverStep_stopLock h
    · exact .inr (.inr (.inr (congrArg AppState.sessions ServerState.app_setStopPc)))
    · exact .inr (.inr (.inr (congrArg AppState.sessions ServerState.app_setStopPc)))
  | stopDone thread =>
    obtain ⟨victim, -, rfl⟩ := serverStep_stopDone h
    exact .inr (.inr (.inr (congrArg AppState.sessions ServerState.app_setStopPc)))
  | announce uriIp hostOpt peerIp video audio =>
    obtain rfl | ⟨s, rfl⟩ := serverStep_announce h
    · exact .inr (.inr (.inr rfl))
    · exact .inr (.inl ⟨s, video, audio, rfl⟩)
  | play uriIp hostOpt peerIp =>
    obtain ⟨-, rfl | ⟨s, rfl⟩⟩ := serverStep_play h
    · exact .inr (.inr (.inr rfl))
    · exact .inr (.inr (.inl ⟨s, rfl⟩))
  | _ =>
    simp only [serverStep] at h
    repeat' split at h
    all_goals cases h
    all_goals exact .inr (.inr (.inr rfl))

/-! ### What stays as it was launched -/

variable {β : Type*} {g : StreamSession → β}

/-- None of the writes after the launch touches it. -/
def Fixed (g : StreamSession → β) : Prop :=
  ∀ s video audio announced playing clientIp aesKey aesIv,
    g { s with
      video := video, audio := audio, announced := announced, playing := playing
      clientIp := clientIp, aesKey := aesKey, aesIv := aesIv } = g s

theorem Fixed.adoptClient (hg : Fixed g) {reg : SessionRegistry} {sess r : SessionRef}
    {clientIp : Bytes} : g ((adoptClient reg sess clientIp).object r) = g (reg.object r) := by
  unfold Rest.adoptClient
  split_ifs
  · exact SessionRegistry.field_modify fun s => hg s s.video s.audio s.announced s.playing _ _ _
  · rfl

theorem Fixed.captureKey (hg : Fixed g) {reg : SessionRegistry} {sess r : SessionRef}
    {headers : Query} : g ((captureKey reg sess headers).object r) = g (reg.object r) := by
  unfold Rest.captureKey
  dsimp only
  split_ifs
  · exact SessionRegistry.field_modify fun s => hg s s.video s.audio s.announced s.playing _ _ _
  · rfl

theorem length_captureKey {reg : SessionRegistry} {sess : SessionRef} {headers : Query} :
    (captureKey reg sess headers).objects.length = reg.objects.length := by
  unfold Rest.captureKey
  dsimp only
  split_ifs
  · exact List.length_modify ..
  · rfl

/-- The objects that were there before a session was created. -/
theorem object_of_append {reg reg' : SessionRegistry} {s : StreamSession} {r : SessionRef}
    (hr : r < reg.objects.length) (h : reg'.objects = reg.objects ++ [s]) :
    reg'.object r = reg.object r := by
  rw [SessionRegistry.object, h, List.getD_eq_getElem?_getD, List.getElem?_append_left hr,
    ← List.getD_eq_getElem?_getD, SessionRegistry.object]

/-- A request leaves it alone. -/
theorem Fixed.handle (hg : Fixed g) {r : SessionRef} (hr : r < state.sessions.objects.length) :
    g ((handle ssl state event).state.sessions.object r) = g (state.sessions.object r) := by
  rcases @handle_objects Cert ssl state event with
    ⟨-, hobjects⟩ | ⟨sess, -, -, hobjects | hsessions⟩ | ⟨-, s, -, -, -, -, hobjects⟩
  · rw [SessionRegistry.object, hobjects, SessionRegistry.object]
  · rw [SessionRegistry.object, hobjects, SessionRegistry.object]
  · rw [hsessions, hg.captureKey, hg.adoptClient]
  · rw [object_of_append hr hobjects]

/-- So does every step of the server. -/
theorem Fixed.serverStep (hg : Fixed g) {st st' : ServerState} {e : ServerEvent Cert}
    {r : SessionRef} (hr : r < st.sessions.objects.length)
    (h : Server.serverStep ssl st e = some st') :
    g (st'.sessions.object r) = g (st.sessions.object r) := by
  rcases serverStep_objects h with ⟨request, -, hsessions⟩ | ⟨sess, video, audio, hsessions⟩ |
    ⟨sess, hsessions⟩ | hsessions
  · rw [hsessions]
    exact hg.handle hr
  · rw [hsessions]
    exact SessionRegistry.field_modify fun s => hg s _ _ _ s.playing s.clientIp s.aesKey s.aesIv
  · rw [hsessions]
    exact SessionRegistry.field_modify fun s =>
      hg s s.video s.audio s.announced _ s.clientIp s.aesKey s.aesIv
  · rw [hsessions]

/-- A session keeps it through every run. -/
theorem Fixed.run (hg : Fixed g) {app : AppState} {st st' : ServerState}
    {events : List (ServerEvent Cert)} {r : SessionRef} (hr : r < st.sessions.objects.length)
    (h : (serverSystem ssl app).run st events = some st') :
    g (st'.sessions.object r) = g (st.sessions.object r) := by
  have hinv : ∀ {s i s'}, (r < s.sessions.objects.length ∧
      g (s.sessions.object r) = g (st.sessions.object r)) → True →
      (serverSystem ssl app).step s i = some s' →
      r < s'.sessions.objects.length ∧ g (s'.sessions.object r) = g (st.sessions.object r) := by
    rintro s i s' ⟨hlt, heq⟩ - hstep
    exact ⟨hlt.trans_le (serverStep_extends hstep).sessions.length_le,
      (hg.serverStep hlt hstep).trans heq⟩
  exact (System.run_of_along hinv ⟨hr, rfl⟩ (System.along_of_forall fun _ _ _ => trivial) h).2

/-- A session object that was not there before the step is one that a launch has created. -/
theorem created_serverStep {st st' : ServerState} {e : ServerEvent Cert} {r : SessionRef}
    (h : Server.serverStep ssl st e = some st') (hnew : st.sessions.objects.length ≤ r)
    (hr : r < st'.sessions.objects.length) :
    ∃ state headers clientIp rand,
      (createLaunchSession state headers clientIp rand).1 = some (st'.sessions.object r) := by
  have hmodify : ∀ {sess f}, st'.sessions ≠ st.sessions.modify sess f := fun heq => by
    rw [heq] at hr
    exact absurd (hr.trans_eq (List.length_modify ..)) hnew.not_gt
  rcases serverStep_objects h with ⟨request, -, hsessions⟩ | ⟨sess, video, audio, heq⟩ |
    ⟨sess, heq⟩ | heq
  · rw [hsessions] at hr ⊢
    rcases @handle_objects Cert ssl st.app request with ⟨-, hobjects⟩ |
      ⟨sess, -, -, hobjects | hresumed⟩ | ⟨-, s, headers, clientIp, rand, hs, hobjects⟩
    · exact absurd (hobjects ▸ hr) hnew.not_gt
    · exact absurd (hobjects ▸ hr) hnew.not_gt
    · rw [hresumed, length_captureKey, adoptClient_length] at hr
      exact absurd hr hnew.not_gt
    · rw [hobjects, List.length_append, List.length_singleton] at hr
      obtain rfl : r = st.app.sessions.objects.length :=
        Nat.le_antisymm (Nat.lt_succ_iff.mp hr) hnew
      refine ⟨st.app, headers, clientIp, rand, hs.trans (congrArg some ?_)⟩
      rw [SessionRegistry.object, hobjects, List.getD_eq_getElem?_getD,
        List.getElem?_concat_length, Option.getD_some]
  · exact absurd heq hmodify
  · exact absurd heq hmodify
  · exact absurd (heq ▸ hr) hnew.not_gt

/-- What holds of every session that is launched holds of every session of a server that was
started without any. -/
theorem Fixed.reachable (hg : Fixed g) {P : β → Prop} {start : AppState} {st : ServerState}
    (hP : ∀ state headers clientIp rand s,
      (createLaunchSession state headers clientIp rand).1 = some s → P (g s))
    (hst : (serverSystem ssl start.fresh).Reachable st) {r : SessionRef}
    (hr : r < st.sessions.objects.length) : P (g (st.sessions.object r)) := by
  have hinv : (serverSystem ssl start.fresh).IsInvariant fun st =>
      ∀ r < st.sessions.objects.length, P (g (st.sessions.object r)) := by
    refine ⟨fun r hr => absurd hr (Nat.not_lt_zero r), fun {s s' e} hs hstep r hr => ?_⟩
    by_cases hold : r < s.sessions.objects.length
    · rw [hg.serverStep hold hstep]
      exact hs r hold
    · obtain ⟨state, headers, clientIp, rand, hcreated⟩ :=
        created_serverStep hstep (not_lt.mp hold) hr
      exact hP state headers clientIp rand _ hcreated
  exact hinv.reachable hst r hr

end Objects

end SteamStream.Server
