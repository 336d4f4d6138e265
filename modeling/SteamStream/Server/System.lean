import SteamStream.Control.Server
import SteamStream.Rest.Launch

/-!
# The server and its threads

`main` runs the HTTPS handlers, the RTSP server and the control server on three threads around
one `media_holder`. Each thread is a program counter: a step is a critical section (of the
registry or of `media_mtx`), or the beginning or the end of something that blocks outside of
them (`stop()`, `MediaSession::start`). Every interleaving is a list of events.

`stop_session` runs on two threads, for `/cancel` and for a `TERMINATION` packet. On the RTSP
thread a `PLAY` looks the session up, reads the holder, and either reuses the media it found
there or takes it out, stops it, starts a new one and publishes it.

A media session never changes its session, and no step drops a session object, so the ids that
a peer or a media session refers to are stable (`ServerState.Extends`).
-/

namespace SteamStream.Server

open Wire Session Control Rest Runs X509

/-! ### State -/

/-- A `MediaSession`: its session, whether the video pipeline is there, and the channels of its
audio pipeline. -/
structure MediaSession where
  session : SessionRef
  videoPipeline : Bool
  audioChannels : ℤ
  deriving DecidableEq, Repr

/-- Where a thread is in `stop_session`. -/
inductive StopPc
  | idle
  /-- Before the critical section. -/
  | locking (sid : ℕ)
  /-- In the `stop()` of the media session taken out. -/
  | stopping (victim : MediaRef)
  deriving DecidableEq, Repr

/-- Where the RTSP thread is in a `PLAY` for the session `s`, `sess` being what `get_by_id`
found for its id. -/
inductive PlayPc
  | idle
  | lookup (s : SessionRef)
  | read (s sess : SessionRef)
  | check (s sess : SessionRef) (existing : Option MediaRef)
  | swap (sess : SessionRef)
  | stopping (sess : SessionRef) (previous : MediaRef)
  | start (sess : SessionRef)
  | publish (ms : MediaRef)
  deriving DecidableEq, Repr

/-- The threads `stop_session` runs on. -/
inductive StopThread | https | control
  deriving DecidableEq, Repr

/-- The state of the process. `media` lists every media session ever started. -/
structure ServerState where
  app : AppState
  media : List MediaSession := []
  holder : Option MediaRef := none
  control : ControlServer := {}
  httpsPc : StopPc := .idle
  controlPc : StopPc := .idle
  playPc : PlayPc := .idle

namespace ServerState

variable (st : ServerState)

def sessions : SessionRegistry := st.app.sessions

/-- The id of a session. -/
def idOf (sess : SessionRef) : ℕ := (st.sessions.object sess).sessionId

/-- `MediaSession::session_id`, 0 without a session. -/
def mediaId (ms : MediaRef) : ℕ :=
  match st.media[ms]? with
  | none => 0
  | some m => st.idOf m.session

/-- `MediaSession::is_active`. -/
def isActive (ms : MediaRef) : Bool := (st.media[ms]?).any MediaSession.videoPipeline

/-- `MediaSession::stop`, when it is done. -/
def stopMedia (ms : MediaRef) : ServerState :=
  { st with media := st.media.modify ms fun m => { m with videoPipeline := false } }

def stopPc : StopThread → StopPc
  | .https => st.httpsPc
  | .control => st.controlPc

def setStopPc (pc : StopPc) : StopThread → ServerState
  | .https => { st with httpsPc := pc }
  | .control => { st with controlPc := pc }

end ServerState

/-! ### Steps -/

/-- What can happen next, on which thread. -/
inductive ServerEvent (Cert : Type)
  /-- A handler runs, up to the `stop_session` of a cancel. -/
  | https (event : Event Cert)
  /-- `stop_session` takes its victim out of the holder. -/
  | stopLock (thread : StopThread)
  /-- The `stop()` of the victim returns. -/
  | stopDone (thread : StopThread)
  /-- `ANNOUNCE` stores the parameters it has parsed. -/
  | announce (uriIp hostOpt peerIp : Bytes) (video : VideoParams) (audio : AudioParams)
  | play (uriIp hostOpt peerIp : Bytes)
  | playLookup
  | playRead
  | playCheck
  | playSwap
  | playStopped
  /-- `MediaSession::start` returns, with or without a video pipeline. -/
  | playStarted (videoPipeline : Bool)
  | playPublish
  | connect (peer : ENetPeer) (connectData : UInt32) (ip : Bytes)
  | disconnect (peer : ENetPeer)
  | receive (machine : Machine) (peer : ENetPeer) (pkt : Buffer)

/-- The critical section of `stop_session`: only a media session of that id is taken out. -/
def stopSessionLock (st : ServerState) (sid : ℕ) : ServerState × StopPc :=
  match st.holder with
  | none => (st, .idle)
  | some victim =>
    if st.mediaId victim = sid then ({ st with holder := none }, .stopping victim)
    else (st, .idle)

/-- The media accessor of the control server. -/
def mediaAccessor (st : ServerState) : Option MediaRef := st.holder

/-- The media session the IDR callback forces a key frame on: the id it is given plays no
part. -/
def idrTarget (st : ServerState) (_sid : ℕ) : Option MediaRef := st.holder

/-- The effects of a packet. -/
def packetEffects (st : ServerState) (machine : Machine) (peer : ENetPeer) (pkt : Buffer) :
    Action Unit :=
  receive machine st.control st.sessions (mediaAccessor st) peer pkt

/-- The session whose stop callback a packet runs. -/
def stopRequest (effects : List Effect) : Option ℕ :=
  effects.findSome? fun
    | .stop sid => some sid
    | _ => none

section Step

variable {Cert : Type} (ssl : OpenSSL Cert)

/-- One step of one thread, `none` when the thread is not there. A packet whose handling has no
defined behaviour ends the run. -/
def serverStep (st : ServerState) : ServerEvent Cert → Option ServerState
  | .https event =>
    if st.httpsPc = .idle then
      let outcome := handle ssl st.app event
      some { st with
        app := outcome.state
        httpsPc := match outcome.stopped with
          | none => .idle
          | some sid => .locking sid }
    else none
  | .stopLock thread =>
    match st.stopPc thread with
    | .locking sid =>
      let (st, pc) := stopSessionLock st sid
      some (st.setStopPc pc thread)
    | _ => none
  | .stopDone thread =>
    match st.stopPc thread with
    | .stopping victim => some ((st.stopMedia victim).setStopPc .idle thread)
    | _ => none
  | .announce uriIp hostOpt peerIp video audio =>
    if st.playPc = .idle then
      match st.sessions.getForRtsp uriIp hostOpt peerIp with
      | none => some st
      | some s =>
        let sessions := st.sessions.modify s fun s =>
          { s with video := video, audio := audio, announced := true }
        some { st with app := { st.app with sessions := sessions } }
    else none
  | .play uriIp hostOpt peerIp =>
    if st.playPc = .idle then
      match st.sessions.getForRtsp uriIp hostOpt peerIp with
      | none => some st
      | some s =>
        let sessions := st.sessions.modify s fun s => { s with playing := true }
        some { st with app := { st.app with sessions := sessions }, playPc := .lookup s }
    else none
  | .playLookup =>
    match st.playPc with
    | .lookup s =>
      match st.sessions.getById (st.idOf s) with
      | none => some { st with playPc := .idle }
      | some sess => some { st with playPc := .read s sess }
    | _ => none
  | .playRead =>
    match st.playPc with
    | .read s sess => some { st with playPc := .check s sess st.holder }
    | _ => none
  | .playCheck =>
    match st.playPc with
    | .check _ sess none => some { st with playPc := .swap sess }
    | .check s sess (some existing) =>
      if st.mediaId existing = st.idOf s ∧ st.isActive existing then
        -- resume: the pipelines are reused, the audio one rebuilt for the new layout
        let channels := (st.sessions.object s).audio.channels
        some { st with
          media := st.media.modify existing fun m => { m with audioChannels := channels }
          playPc := .idle }
      else some { st with playPc := .swap sess }
    | _ => none
  | .playSwap =>
    match st.playPc with
    | .swap sess =>
      match st.holder with
      | none => some { st with playPc := .start sess }
      | some previous => some { st with holder := none, playPc := .stopping sess previous }
    | _ => none
  | .playStopped =>
    match st.playPc with
    | .stopping sess previous => some { st.stopMedia previous with playPc := .start sess }
    | _ => none
  | .playStarted videoPipeline =>
    match st.playPc with
    | .start sess =>
      let ms : MediaSession := {
        session := sess
        videoPipeline := videoPipeline
        audioChannels := (st.sessions.object sess).audio.channels }
      some { st with media := st.media ++ [ms], playPc := .publish st.media.length }
    | _ => none
  | .playPublish =>
    match st.playPc with
    | .publish ms => some { st with holder := some ms, playPc := .idle }
    | _ => none
  | .connect peer connectData ip =>
    if st.controlPc = .idle then
      some { st with control := st.control.connect st.sessions peer connectData ip }
    else none
  | .disconnect peer =>
    if st.controlPc = .idle then some { st with control := st.control.disconnect peer }
    else none
  | .receive machine peer pkt =>
    if st.controlPc = .idle then
      let action := packetEffects st machine peer pkt
      match action.result with
      | .error _ => none
      | .ok () =>
        some { st with
          controlPc := match stopRequest action.log with
            | none => .idle
            | some sid => .locking sid }
    else none

/-- The server, started with the application state `init` loaded. -/
def serverSystem (app : AppState) : System ServerState (ServerEvent Cert) where
  init := { app := app }
  step := serverStep ssl

end Step

/-! ### What stays -/

/-- The session of a `PLAY` that `get_by_id` has found. -/
def PlayPc.target : PlayPc → Option SessionRef
  | .read _ sess | .check _ sess _ | .swap sess | .stopping sess _ | .start sess => some sess
  | .idle | .lookup _ | .publish _ => none

/-- The media session of a `PLAY` that is about to be published. -/
def PlayPc.started : PlayPc → Option MediaRef
  | .publish ms => some ms
  | _ => none

namespace ServerState

/-- Sessions and media sessions of `st` are still there in `st'`, under the same ids. -/
structure Extends (st st' : ServerState) : Prop where
  sessions : st.sessions.Extends st'.sessions
  media : st.media.map MediaSession.session <+: st'.media.map MediaSession.session

/-- The sessions the state refers to. -/
def sessionRefs (st : ServerState) : List SessionRef :=
  st.control.clients.map Prod.snd ++ st.media.map MediaSession.session ++
    st.playPc.target.toList

/-- The media sessions the state refers to. -/
def mediaRefs (st : ServerState) : List MediaRef :=
  st.holder.toList ++ st.playPc.started.toList

/-- Whatever the state refers to exists, and `main` has installed the IDR callback. -/
structure WellFormed (st : ServerState) : Prop where
  sessionRefs_lt : ∀ r ∈ st.sessionRefs, r < st.sessions.objects.length
  mediaRefs_lt : ∀ ms ∈ st.mediaRefs, ms < st.media.length
  hasIdrCallback : st.control.hasIdrCallback = true

variable {st st' : ServerState}

theorem Extends.length_le (h : st.Extends st') : st.media.length ≤ st'.media.length := by
  simpa using h.media.length_le

/-- A media session keeps its session, and the session its id. -/
theorem Extends.mediaId_eq (h : st.Extends st') (hwf : st.WellFormed) {ms : MediaRef}
    (hms : ms < st.media.length) : st'.mediaId ms = st.mediaId ms := by
  obtain ⟨added, hadded⟩ := h.media
  have hsame : (st'.media[ms]?).map MediaSession.session =
      (st.media[ms]?).map MediaSession.session := by
    rw [← List.getElem?_map, ← List.getElem?_map, ← hadded,
      List.getElem?_append_left (by simpa using hms)]
  obtain ⟨m, hm⟩ : ∃ m, st.media[ms]? = some m := ⟨_, List.getElem?_eq_getElem hms⟩
  obtain ⟨m', hm', hsession⟩ := Option.map_eq_some_iff.mp (hsame.trans (by rw [hm]; rfl))
  have hlt : m.session < st.sessions.objects.length := by
    refine hwf.sessionRefs_lt _ ?_
    simp only [sessionRefs, List.mem_append, List.mem_map]
    exact .inl (.inr ⟨m, List.mem_of_getElem? hm, rfl⟩)
  simp only [mediaId, hm, hm', idOf, hsession]
  exact h.sessions.sessionId _ hlt

theorem Extends.idOf_eq (h : st.Extends st') {sess : SessionRef}
    (hsess : sess < st.sessions.objects.length) : st'.idOf sess = st.idOf sess :=
  h.sessions.sessionId sess hsess

/-- What a well-formed state refers to may be forgotten, and existing things referred to
anew. -/
theorem WellFormed.of_extends (hwf : st.WellFormed) (h : st.Extends st')
    (hsessions : ∀ r ∈ st'.sessionRefs,
      r ∈ st.sessionRefs ∨ r < st'.sessions.objects.length)
    (hmedia : ∀ ms ∈ st'.mediaRefs, ms ∈ st.mediaRefs ∨ ms < st'.media.length)
    (hidr : st'.control.hasIdrCallback = st.control.hasIdrCallback) : st'.WellFormed where
  sessionRefs_lt r hr := (hsessions r hr).elim
    (fun hmem => (hwf.sessionRefs_lt r hmem).trans_le h.sessions.length_le) id
  mediaRefs_lt ms hms := (hmedia ms hms).elim
    (fun hmem => (hwf.mediaRefs_lt ms hmem).trans_le h.length_le) id
  hasIdrCallback := hidr.trans hwf.hasIdrCallback

/-- A write to a media session that leaves its session alone. -/
theorem map_session_modify {media : List MediaSession} {ms : MediaRef}
    {f : MediaSession → MediaSession} (hf : ∀ m, (f m).session = m.session) :
    (media.modify ms f).map MediaSession.session = media.map MediaSession.session := by
  refine List.ext_getElem? fun i => ?_
  simp only [List.getElem?_map, List.getElem?_modify]
  cases media[i]? with
  | none => rfl
  | some m =>
    simp only [Option.map_some]
    split_ifs
    · exact congrArg some (hf m)
    · rfl

theorem prefix_modify {media : List MediaSession} {ms : MediaRef}
    {f : MediaSession → MediaSession} (hf : ∀ m, (f m).session = m.session) :
    media.map MediaSession.session <+: (media.modify ms f).map MediaSession.session := by
  rw [map_session_modify hf]

end ServerState

/-! ### One step -/

section Step

open ServerState

variable {Cert : Type} {ssl : OpenSSL Cert} {st st' : ServerState} {event : ServerEvent Cert}

theorem extends_of_eq (happ : st'.app = st.app) (hmedia : st'.media = st.media) :
    st.Extends st' where
  sessions := by
    rw [sessions, sessions, happ]
    exact SessionRegistry.Extends.rfl
  media := by rw [hmedia]

theorem extends_stopMedia {ms : MediaRef} : st.Extends (st.stopMedia ms) where
  sessions := SessionRegistry.Extends.rfl
  media := prefix_modify fun _ => rfl

/-- An `ANNOUNCE` sets the parameters of its session, if there is one. -/
theorem serverStep_announce {uriIp hostOpt peerIp : Bytes} {video : VideoParams}
    {audio : AudioParams}
    (h : serverStep ssl st (.announce uriIp hostOpt peerIp video audio) = some st') :
    st' = st ∨ ∃ s, st' = { st with app := { st.app with sessions := st.sessions.modify s fun s =>
      { s with video := video, audio := audio, announced := true } } } := by
  simp only [serverStep] at h
  split_ifs at h
  split at h
  · exact .inl (Option.some.inj h).symm
  · rename_i s hs
    exact .inr ⟨s, (Option.some.inj h).symm⟩

/-- A `PLAY` begins, or there is no session for it. -/
theorem serverStep_play {uriIp hostOpt peerIp : Bytes}
    (h : serverStep ssl st (.play uriIp hostOpt peerIp) = some st') :
    st.playPc = .idle ∧ (st' = st ∨ ∃ s, st' =
      { st with
        app := { st.app with sessions := st.sessions.modify s fun s => { s with playing := true } }
        playPc := .lookup s }) := by
  simp only [serverStep] at h
  split_ifs at h with hidle
  refine ⟨hidle, ?_⟩
  split at h
  · exact .inl (Option.some.inj h).symm
  · rename_i s hs
    exact .inr ⟨s, (Option.some.inj h).symm⟩

/-- No step drops a session or a media session. -/
theorem serverStep_extends (h : serverStep ssl st event = some st') : st.Extends st' := by
  cases event with
  | https event =>
    simp only [serverStep] at h
    split_ifs at h
    obtain rfl := Option.some.inj h
    exact ⟨handle_extends, List.prefix_rfl⟩
  | stopLock thread =>
    simp only [serverStep, stopSessionLock] at h
    repeat' split at h
    all_goals cases h
    all_goals cases thread <;> exact extends_of_eq rfl rfl
  | stopDone thread =>
    simp only [serverStep] at h
    split at h
    · obtain rfl := Option.some.inj h
      cases thread <;> exact ⟨SessionRegistry.Extends.rfl, extends_stopMedia.media⟩
    · cases h
  | announce uriIp hostOpt peerIp video audio =>
    obtain rfl | ⟨s, rfl⟩ := serverStep_announce h
    · exact extends_of_eq rfl rfl
    · exact ⟨SessionRegistry.extends_modify fun _ => rfl, List.prefix_rfl⟩
  | play uriIp hostOpt peerIp =>
    obtain ⟨-, rfl | ⟨s, rfl⟩⟩ := serverStep_play h
    · exact extends_of_eq rfl rfl
    · exact ⟨SessionRegistry.extends_modify fun _ => rfl, List.prefix_rfl⟩
  | playCheck =>
    simp only [serverStep] at h
    split at h
    · obtain rfl := Option.some.inj h
      exact extends_of_eq rfl rfl
    · split_ifs at h
      · obtain rfl := Option.some.inj h
        exact ⟨SessionRegistry.Extends.rfl, prefix_modify fun _ => rfl⟩
      · obtain rfl := Option.some.inj h
        exact extends_of_eq rfl rfl
    · cases h
  | playStopped =>
    simp only [serverStep] at h
    split at h
    · obtain rfl := Option.some.inj h
      exact ⟨SessionRegistry.Extends.rfl, extends_stopMedia.media⟩
    · cases h
  | playStarted videoPipeline =>
    simp only [serverStep] at h
    split at h
    · obtain rfl := Option.some.inj h
      refine ⟨SessionRegistry.Extends.rfl, ?_⟩
      rw [List.map_append]
      exact List.prefix_append ..
    · cases h
  | _ =>
    -- the other steps touch neither the registry nor the list of media sessions
    simp only [serverStep] at h
    repeat' split at h
    all_goals cases h
    all_goals exact extends_of_eq rfl rfl

/-- **What a step does to the holder and the connections.** Only a `PLAY` puts a media session
into the holder; other steps leave it or empty it. -/
theorem serverStep_cases (h : serverStep ssl st event = some st') :
    ((st'.holder = st.holder ∨ st'.holder = none) ∧ st'.control = st.control) ∨
    (event = .playPublish ∧ ∃ ms, st.playPc = .publish ms ∧ st'.holder = some ms ∧
      st'.control = st.control) ∨
    (∃ peer connectData ip, event = .connect peer connectData ip ∧ st'.holder = st.holder ∧
      st'.control = st.control.connect st.sessions peer connectData ip) ∨
    (∃ peer, event = .disconnect peer ∧ st'.holder = st.holder ∧
      st'.control = st.control.disconnect peer) := by
  cases event with
  | stopLock thread =>
    simp only [serverStep, stopSessionLock] at h
    repeat' split at h
    all_goals cases h
    all_goals cases thread <;> first
      | exact .inl ⟨.inl rfl, rfl⟩
      | exact .inl ⟨.inr rfl, rfl⟩
  | stopDone thread =>
    simp only [serverStep] at h
    split at h
    · obtain rfl := Option.some.inj h
      cases thread <;> exact .inl ⟨.inl rfl, rfl⟩
    · cases h
  | playPublish =>
    simp only [serverStep] at h
    split at h
    · rename_i ms hpc
      obtain rfl := Option.some.inj h
      exact .inr (.inl ⟨rfl, ms, hpc, rfl, rfl⟩)
    · cases h
  | connect peer connectData ip =>
    simp only [serverStep] at h
    split_ifs at h
    obtain rfl := Option.some.inj h
    exact .inr (.inr (.inl ⟨peer, connectData, ip, rfl, rfl, rfl⟩))
  | disconnect peer =>
    simp only [serverStep] at h
    split_ifs at h
    obtain rfl := Option.some.inj h
    exact .inr (.inr (.inr ⟨peer, rfl, rfl, rfl⟩))
  | _ =>
    simp only [serverStep] at h
    repeat' split at h
    all_goals cases h
    all_goals first
      | exact .inl ⟨.inl rfl, rfl⟩
      | exact .inl ⟨.inr rfl, rfl⟩

/-- Where connections point after a connect: where they pointed, or into the registry. -/
theorem mem_connect {srv : ControlServer} {reg : SessionRegistry} {peer : ENetPeer}
    {connectData : UInt32} {ip : Bytes} {c : ENetPeer × SessionRef}
    (h : c ∈ (srv.connect reg peer connectData ip).clients) :
    c ∈ srv.clients ∨ (c.1 = peer ∧ matchSession reg connectData ip = some c.2) := by
  unfold ControlServer.connect at h
  split at h
  · exact .inl h
  · rename_i s hs
    rcases List.mem_cons.mp h with rfl | hmem
    · exact .inr ⟨rfl, hs⟩
    · exact .inl (List.mem_filter.mp hmem).1

theorem mem_of_matchSession {reg : SessionRegistry} {connectData : UInt32} {ip : Bytes}
    {s : SessionRef} (h : matchSession reg connectData ip = some s) : s ∈ reg.sessions := by
  unfold matchSession at h
  split at h
  · cases h
  · rename_i r hr
    split_ifs at h
    exact Option.some.inj h ▸ SessionRegistry.mem_of_getRunning hr

/-- Every step keeps the references good. -/
theorem serverStep_wellFormed (hwf : st.WellFormed)
    (h : serverStep ssl st event = some st') : st'.WellFormed := by
  have hext := serverStep_extends h
  cases event with
  | https event =>
    simp only [serverStep] at h
    split_ifs at h
    obtain rfl := Option.some.inj h
    exact hwf.of_extends hext (fun r hr => .inl hr) (fun ms hms => .inl hms) rfl
  | stopLock thread =>
    simp only [serverStep, stopSessionLock] at h
    repeat' split at h
    all_goals cases h
    all_goals cases thread <;>
      refine hwf.of_extends hext (fun r hr => .inl hr) (fun ms hms => .inl ?_) rfl
    all_goals first
      | exact hms
      | exact List.mem_append_right _ hms
  | stopDone thread =>
    simp only [serverStep] at h
    split at h
    · rename_i victim _
      obtain rfl := Option.some.inj h
      have hmap : (st.stopMedia victim).media.map MediaSession.session =
          st.media.map MediaSession.session := map_session_modify fun _ => rfl
      have hrefs : ∀ pc, ((st.stopMedia victim).setStopPc pc thread).sessionRefs =
          st.sessionRefs := by
        intro pc
        cases thread <;> exact congrArg (st.control.clients.map Prod.snd ++ · ++ _) hmap
      refine hwf.of_extends hext (fun r hr => .inl (hrefs _ ▸ hr)) (fun ms hms => .inl ?_) ?_
      · cases thread <;> exact hms
      · cases thread <;> rfl
    · cases h
  | announce uriIp hostOpt peerIp video audio =>
    obtain rfl | ⟨s, rfl⟩ := serverStep_announce h
    · exact hwf
    · exact hwf.of_extends hext (fun r hr => .inl hr) (fun ms hms => .inl hms) rfl
  | play uriIp hostOpt peerIp =>
    obtain ⟨hpc, rfl | ⟨s, rfl⟩⟩ := serverStep_play h
    · exact hwf
    · refine hwf.of_extends hext (fun r hr => .inl ?_) (fun ms hms => .inl ?_) rfl
      · simpa [sessionRefs, hpc, PlayPc.target] using hr
      · simpa [mediaRefs, hpc, PlayPc.started] using hms
  | playLookup =>
    simp only [serverStep] at h
    split at h
    · rename_i s hpc
      split at h
      · obtain rfl := Option.some.inj h
        refine hwf.of_extends hext (fun r hr => .inl ?_) (fun ms hms => .inl ?_) rfl
        · simpa [sessionRefs, hpc, PlayPc.target] using hr
        · simpa [mediaRefs, hpc, PlayPc.started] using hms
      · rename_i sess hsess
        obtain rfl := Option.some.inj h
        refine hwf.of_extends hext (fun r hr => ?_) (fun ms hms => .inl ?_) rfl
        · simp only [sessionRefs, PlayPc.target, Option.toList_some, List.mem_append,
            List.mem_singleton] at hr
          rcases hr with hr | rfl
          · exact .inl (by simpa [sessionRefs, hpc, PlayPc.target] using hr)
          · exact .inr (st.sessions.sessions_lt r (SessionRegistry.mem_of_getById hsess))
        · simpa [mediaRefs, hpc, PlayPc.started] using hms
    · cases h
  | playStarted videoPipeline =>
    simp only [serverStep] at h
    split at h
    · rename_i sess hpc
      obtain rfl := Option.some.inj h
      refine hwf.of_extends hext (fun r hr => .inl ?_) (fun ms hms => ?_) rfl
      · simp only [sessionRefs, PlayPc.target, hpc, List.map_append, List.map_cons, List.map_nil,
          List.mem_append, Option.toList_some, Option.toList_none, List.mem_singleton,
          List.not_mem_nil, or_false] at hr ⊢
        tauto
      · simp only [mediaRefs, PlayPc.started, hpc, List.mem_append, Option.toList_some,
          Option.toList_none, List.mem_singleton, List.not_mem_nil, or_false,
          List.length_append, List.length_singleton] at hms ⊢
        rcases hms with hms | rfl
        · exact .inl hms
        · exact .inr (Nat.lt_succ_self _)
    · cases h
  | connect peer connectData ip =>
    simp only [serverStep] at h
    split_ifs at h
    obtain rfl := Option.some.inj h
    refine hwf.of_extends hext (fun r hr => ?_) (fun ms hms => .inl hms) ?_
    · simp only [sessionRefs, List.mem_append, List.mem_map] at hr ⊢
      rcases hr with (⟨c, hc, rfl⟩ | hr) | hr
      · rcases mem_connect hc with hc | ⟨-, hs⟩
        · exact .inl (.inl (.inl ⟨c, hc, rfl⟩))
        · exact .inr (st.sessions.sessions_lt c.2 (mem_of_matchSession hs))
      · exact .inl (.inl (.inr hr))
      · exact .inl (.inr hr)
    · unfold ControlServer.connect
      split <;> rfl
  | disconnect peer =>
    simp only [serverStep] at h
    split_ifs at h
    obtain rfl := Option.some.inj h
    refine hwf.of_extends hext (fun r hr => .inl ?_) (fun ms hms => .inl hms) rfl
    simp only [sessionRefs, ControlServer.disconnect, List.mem_append, List.mem_map,
      List.mem_filter] at hr ⊢
    rcases hr with (⟨c, ⟨hc, -⟩, rfl⟩ | hr) | hr
    · exact .inl (.inl ⟨c, hc, rfl⟩)
    · exact .inl (.inr hr)
    · exact .inr hr
  | playCheck =>
    simp only [serverStep] at h
    split at h
    · rename_i s sess hpc
      obtain rfl := Option.some.inj h
      refine hwf.of_extends hext (fun r hr => .inl ?_) (fun ms hms => .inl ?_) rfl
      · simpa [sessionRefs, hpc, PlayPc.target] using hr
      · simpa [mediaRefs, hpc, PlayPc.started] using hms
    · rename_i s sess existing hpc
      split_ifs at h
      · obtain rfl := Option.some.inj h
        refine hwf.of_extends hext (fun r hr => .inl ?_) (fun ms hms => .inl ?_) rfl
        · simp only [sessionRefs, map_session_modify, implies_true] at hr
          exact List.mem_append_left _ (by simpa [PlayPc.target] using hr)
        · simpa [mediaRefs, hpc, PlayPc.started] using hms
      · obtain rfl := Option.some.inj h
        refine hwf.of_extends hext (fun r hr => .inl ?_) (fun ms hms => .inl ?_) rfl
        · simpa [sessionRefs, hpc, PlayPc.target] using hr
        · simpa [mediaRefs, hpc, PlayPc.started] using hms
    · cases h
  | playStopped =>
    simp only [serverStep] at h
    split at h
    · rename_i sess previous hpc
      obtain rfl := Option.some.inj h
      refine hwf.of_extends hext (fun r hr => .inl ?_) (fun ms hms => .inl ?_) rfl
      · simpa [sessionRefs, stopMedia, map_session_modify, hpc, PlayPc.target] using hr
      · simpa [mediaRefs, stopMedia, hpc, PlayPc.started] using hms
    · cases h
  | receive machine peer pkt =>
    simp only [serverStep] at h
    repeat' split at h
    all_goals cases h
    all_goals exact hwf.of_extends hext (fun r hr => .inl hr) (fun ms hms => .inl hms) rfl
  | _ =>
    -- the `PLAY` goes on with references it already had
    simp only [serverStep] at h
    repeat' split at h
    all_goals cases h
    all_goals
      refine hwf.of_extends hext (fun r hr => .inl ?_) (fun ms hms => .inl ?_) rfl
      · simp_all [sessionRefs, PlayPc.target]
      · simp_all [mediaRefs, PlayPc.started]

end Step

end SteamStream.Server
