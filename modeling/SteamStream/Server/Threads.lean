import Mathlib.Logic.Function.Basic
import SteamStream.Server.Orphans

/-!
# The mutex, the blocking calls and the references

The steps of `serverStep` in more detail: a thread takes `media_mtx`, runs its critical section
and releases it, and a call that blocks (`stop()`, `MediaSession::start`) begins and returns.

A media session is held by `shared_ptr`s: the holder and a local one of each thread that works
with it. When a thread is done with it, its local one goes out of scope. The last one that does
runs `~MediaSession`, which calls `stop()` once more on that thread: an app that was launched
after the first `stop()` is waited for there.

Without the detail a run is one of the server (`threadSystem_erases`), so whatever holds of the
server holds here.
-/

namespace SteamStream.Server

open Wire Session Control Rest Runs X509

/-! ### State -/

/-- The threads that take `media_mtx`. -/
inductive Thread
  | stop (thread : StopThread)
  | rtsp
  deriving DecidableEq, Repr

/-- All of them. -/
def Thread.all : List Thread := [.stop .https, .stop .control, .rtsp]

/-- Who has `media_mtx`, before or after its critical section. -/
inductive Mutex
  | free
  | entered (thread : Thread)
  | leaving (thread : Thread)
  deriving DecidableEq, Repr

/-- The server, its mutex, which threads are inside the call they block in, the media session
whose local `shared_ptr` a thread is about to destroy, and which threads are in
`~MediaSession`. -/
structure Process where
  server : ServerState
  mediaMtx : Mutex := .free
  begun : Thread → Bool := fun _ => false
  expiring : Thread → Option MediaRef := fun _ => none
  destroying : Thread → Bool := fun _ => false

/-- What `stop_session` has taken out of the holder. -/
def StopPc.held : StopPc → Option MediaRef
  | .stopping victim => some victim
  | _ => none

/-- What a `PLAY` has found in the holder, taken out of it or started. -/
def PlayPc.held : PlayPc → Option MediaRef
  | .check _ _ existing => existing
  | .stopping _ previous => some previous
  | .publish ms => some ms
  | _ => none

namespace ServerState

/-- The thread is in front of a critical section. -/
def atSection (st : ServerState) : Thread → Bool
  | .stop thread =>
    match st.stopPc thread with
    | .locking _ => true
    | _ => false
  | .rtsp =>
    match st.playPc with
    | .read .. | .swap _ | .publish _ => true
    | _ => false

/-- The thread is at a call that blocks. -/
def atCall (st : ServerState) : Thread → Bool
  | .stop thread => (st.stopPc thread).atCall
  | .rtsp => st.playPc.atCall

/-- The media session the local `shared_ptr` of the thread points to, while it is in use. -/
def held (st : ServerState) : Thread → Option MediaRef
  | .stop thread => (st.stopPc thread).held
  | .rtsp => st.playPc.held

end ServerState

/-- `shared_ptr::use_count` of a media session. -/
def Process.useCount (p : Process) (ms : MediaRef) : ℕ :=
  (p.server.holder :: Thread.all.map p.server.held ++ Thread.all.map p.expiring).count (some ms)

/-! ### Steps -/

section Events

variable {Cert : Type}

/-- What the threads do to the mutex and to their references, the beginning of a call, or a step
of the server. -/
inductive ThreadEvent (Cert : Type)
  | lock (thread : Thread)
  | unlock (thread : Thread)
  | call (thread : Thread)
  /-- The local `shared_ptr` is destroyed. If it was the last one, the `stop()` of
  `~MediaSession` begins. -/
  | release (thread : Thread)
  /-- The `stop()` of `~MediaSession` returns. -/
  | destroyed (thread : Thread)
  | server (event : ServerEvent Cert)

/-- The thread a step of the server is on. -/
def ServerEvent.thread : ServerEvent Cert → Thread
  | .https _ => .stop .https
  | .stopLock thread | .stopDone thread => .stop thread
  | .connect .. | .disconnect _ | .receive .. => .stop .control
  | _ => .rtsp

/-- The step is a critical section of `stop_session` or of a `PLAY`. -/
def ServerEvent.isSection : ServerEvent Cert → Bool
  | .stopLock _ | .playRead | .playSwap | .playPublish => true
  | _ => false

/-- The step is the return of a call that blocks. -/
def ServerEvent.isReturn : ServerEvent Cert → Bool
  | .stopDone _ | .playStopped | .playStarted _ => true
  | _ => false

theorem ServerEvent.isReturn_of_isSection {event : ServerEvent Cert}
    (h : event.isSection = true) : event.isReturn = false := by
  cases event <;> first | rfl | cases h

/-- The step that is seen without mutex and calls. -/
def ThreadEvent.server? : ThreadEvent Cert → Option (ServerEvent Cert)
  | .server event => some event
  | _ => none

/-- The packet has been passed to `handle_input`. -/
def entersHandleInput (effects : List Effect) : Bool :=
  effects.any fun
    | .handleInput => true
    | _ => false

/-- The media session a thread has no more use for after the step: its `shared_ptr` goes out of
scope next. For a packet it is the argument of `handle_input`, the accessor's copy of the
holder. -/
def ServerState.dropped (st : ServerState) : ServerEvent Cert → Option MediaRef
  | .stopDone thread => st.held (.stop thread)
  | .playCheck | .playStopped | .playPublish => st.held .rtsp
  | .receive machine peer pkt =>
    if st.control.hasMediaAccessor && entersHandleInput (packetEffects st machine peer pkt).log then
      mediaAccessor st
    else none
  | _ => none

section Step

variable (ssl : OpenSSL Cert)

/-- One step of one thread. A critical section is run by the thread that has the mutex, which
then only releases it, only a call that has begun returns, and a `shared_ptr` that is going out
of scope is destroyed before the thread goes on. The single reads of the holder on the control
thread are one step. -/
def threadStep (p : Process) : ThreadEvent Cert → Option Process
  | .lock thread =>
    if p.mediaMtx = .free ∧ p.server.atSection thread ∧ p.expiring thread = none then
      some { p with mediaMtx := .entered thread }
    else none
  | .unlock thread =>
    if p.mediaMtx = .leaving thread then some { p with mediaMtx := .free } else none
  | .call thread =>
    if p.server.atCall thread ∧ p.begun thread = false ∧ p.mediaMtx ≠ .leaving thread ∧
        p.expiring thread = none then
      some { p with begun := Function.update p.begun thread true }
    else none
  | .release thread =>
    match p.expiring thread with
    | none => none
    | some ms =>
      if p.destroying thread = false ∧ p.mediaMtx ≠ .leaving thread then
        if p.useCount ms = 1 then
          some { p with destroying := Function.update p.destroying thread true }
        else some { p with expiring := Function.update p.expiring thread none }
      else none
  | .destroyed thread =>
    -- nobody can look at the object any more
    if p.destroying thread then
      some { p with
        expiring := Function.update p.expiring thread none
        destroying := Function.update p.destroying thread false }
    else none
  | .server event =>
    if p.expiring event.thread = none then
      let expiring := Function.update p.expiring event.thread (p.server.dropped event)
      if event.isSection then
        if p.mediaMtx = .entered event.thread then
          (serverStep ssl p.server event).map fun server =>
            { p with server := server, mediaMtx := .leaving event.thread, expiring := expiring }
        else none
      else if event.isReturn then
        if p.begun event.thread then
          (serverStep ssl p.server event).map fun server =>
            { p with
              server := server
              begun := Function.update p.begun event.thread false
              expiring := expiring }
        else none
      else if p.mediaMtx ≠ .entered event.thread ∧ p.mediaMtx ≠ .leaving event.thread then
        (serverStep ssl p.server event).map fun server =>
          { p with server := server, expiring := expiring }
      else none
    else none

/-- The process, started with the application state `init` loaded. -/
def threadSystem (app : AppState) : System Process (ThreadEvent Cert) where
  init := { server := { app := app } }
  step := threadStep ssl

end Step

end Events

section Erase

variable {Cert : Type} {ssl : OpenSSL Cert} {p p' : Process}

/-- A step of the server, what it does to the calls, and what it leaves to destroy. -/
theorem threadStep_server_cases {event : ServerEvent Cert}
    (h : threadStep ssl p (.server event) = some p') :
    serverStep ssl p.server event = some p'.server ∧
      (event.isReturn = true → p.begun event.thread = true ∧
        p'.begun = Function.update p.begun event.thread false) ∧
      (event.isReturn = false → p'.begun = p.begun) ∧
      p.expiring event.thread = none ∧
      p'.expiring = Function.update p.expiring event.thread (p.server.dropped event) ∧
      p'.destroying = p.destroying := by
  simp only [threadStep] at h
  split_ifs at h with hexpiring hsection hmtx hreturn hbegun hother
  · obtain ⟨server, hstep, rfl⟩ := Option.map_eq_some_iff.mp h
    have hnot := ServerEvent.isReturn_of_isSection hsection
    exact ⟨hstep, fun hreturn => absurd hreturn (hnot ▸ nofun), fun _ => rfl, hexpiring, rfl, rfl⟩
  · obtain ⟨server, hstep, rfl⟩ := Option.map_eq_some_iff.mp h
    exact ⟨hstep, fun _ => ⟨hbegun, rfl⟩, fun hnot => absurd hreturn (hnot ▸ nofun), hexpiring,
      rfl, rfl⟩
  · obtain ⟨server, hstep, rfl⟩ := Option.map_eq_some_iff.mp h
    exact ⟨hstep, fun hret => absurd hret hreturn, fun _ => rfl, hexpiring, rfl, rfl⟩

/-- A step of the server, and what it does to the calls. -/
theorem threadStep_server {event : ServerEvent Cert}
    (h : threadStep ssl p (.server event) = some p') :
    serverStep ssl p.server event = some p'.server ∧
      (event.isReturn = true → p.begun event.thread = true ∧
        p'.begun = Function.update p.begun event.thread false) ∧
      (event.isReturn = false → p'.begun = p.begun) :=
  let ⟨hstep, hreturn, hother, _⟩ := threadStep_server_cases h
  ⟨hstep, hreturn, hother⟩

/-- A reference is given up, or destroyed with its object. -/
theorem threadStep_release {thread : Thread} (h : threadStep ssl p (.release thread) = some p') :
    (∃ ms, p.expiring thread = some ms) ∧
      (p' = { p with destroying := Function.update p.destroying thread true } ∨
        p' = { p with expiring := Function.update p.expiring thread none }) := by
  simp only [threadStep] at h
  split at h
  · cases h
  · rename_i ms hms
    split_ifs at h with hcond hlast
    · exact ⟨⟨ms, hms⟩, .inl (Option.some.inj h).symm⟩
    · exact ⟨⟨ms, hms⟩, .inr (Option.some.inj h).symm⟩

/-- The destructor is done. -/
theorem threadStep_destroyed {thread : Thread}
    (h : threadStep ssl p (.destroyed thread) = some p') :
    p.destroying thread = true ∧ p' = { p with
      expiring := Function.update p.expiring thread none
      destroying := Function.update p.destroying thread false } := by
  simp only [threadStep] at h
  split_ifs at h with hdestroying
  exact ⟨hdestroying, (Option.some.inj h).symm⟩

/-- What happens to the references is seen nowhere else. -/
theorem threadStep_references {event : ThreadEvent Cert} {thread : Thread}
    (hevent : event = .release thread ∨ event = .destroyed thread)
    (h : threadStep ssl p event = some p') : ∃ expiring destroying,
      p' = { p with expiring := expiring, destroying := destroying } := by
  rcases hevent with rfl | rfl
  · obtain ⟨-, rfl | rfl⟩ := threadStep_release h
    · exact ⟨p.expiring, _, rfl⟩
    · exact ⟨_, p.destroying, rfl⟩
  · obtain ⟨-, rfl⟩ := threadStep_destroyed h
    exact ⟨_, _, rfl⟩

/-- The other steps are not seen by the server. -/
theorem threadStep_other {event : ThreadEvent Cert} (h : threadStep ssl p event = some p')
    (hother : event.server? = none) : p'.server = p.server := by
  cases event with
  | server event => cases hother
  | release thread =>
    obtain ⟨expiring, destroying, rfl⟩ := threadStep_references (.inl rfl) h
    rfl
  | destroyed thread =>
    obtain ⟨expiring, destroying, rfl⟩ := threadStep_references (.inr rfl) h
    rfl
  | _ =>
    simp only [threadStep] at h
    split_ifs at h
    obtain rfl := Option.some.inj h
    rfl

/-- A section is entered. -/
theorem threadStep_lock {thread : Thread} (h : threadStep ssl p (.lock thread) = some p') :
    p' = { p with mediaMtx := .entered thread } := by
  simp only [threadStep] at h
  split_ifs at h
  exact (Option.some.inj h).symm

/-- A section is left. -/
theorem threadStep_unlock {thread : Thread} (h : threadStep ssl p (.unlock thread) = some p') :
    p' = { p with mediaMtx := .free } := by
  simp only [threadStep] at h
  split_ifs at h
  exact (Option.some.inj h).symm

/-- A call begins. -/
theorem threadStep_call {thread : Thread} (h : threadStep ssl p (.call thread) = some p') :
    p.server.atCall thread = true ∧ p.begun thread = false ∧
      p' = { p with begun := Function.update p.begun thread true } := by
  simp only [threadStep] at h
  split_ifs at h with hcall
  exact ⟨hcall.1, hcall.2.1, (Option.some.inj h).symm⟩

/-- It begins when there is nothing left to destroy. -/
theorem expiring_of_call {thread : Thread} (h : threadStep ssl p (.call thread) = some p') :
    p.expiring thread = none := by
  simp only [threadStep] at h
  split_ifs at h with hcall
  exact hcall.2.2.2

/-- Without mutex and calls a run of the process is a run of the server. -/
theorem threadSystem_erases (app : AppState) :
    (threadSystem ssl app).Erases (serverSystem ssl app) Process.server ThreadEvent.server? where
  init := rfl
  step {p p' event} h := by
    change threadStep ssl p event = some p' at h
    cases event with
    | server event => exact .inr ⟨event, rfl, (threadStep_server h).1⟩
    | _ => exact .inl ⟨rfl, threadStep_other h rfl⟩

/-! ### Calls -/

/-- After a call comes its return. -/
theorem PlayPc.Next.isReturn {pc : PlayPc} {event : ServerEvent Cert} (h : pc.Next event)
    (hcall : pc.atCall = true) : event.isReturn = true ∧ event.thread = .rtsp := by
  cases pc <;> cases event <;> first | exact ⟨rfl, rfl⟩ | exact h.elim | cases hcall

/-- Only the return of its call moves a thread on. -/
theorem serverStep_atCall {st st' : ServerState} {event : ServerEvent Cert}
    (h : serverStep ssl st event = some st') {thread : Thread}
    (hreturn : event.isReturn = true → event.thread ≠ thread)
    (hcall : st.atCall thread = true) : st'.atCall thread = true := by
  cases thread with
  | stop thread =>
    rcases serverStep_stopPc h thread with hsame | ⟨hidle, -⟩ | rfl | rfl
    · exact (congrArg StopPc.atCall hsame).trans hcall
    · rw [ServerState.atCall, hidle] at hcall
      cases hcall
    · obtain ⟨sid, hpc, -⟩ := serverStep_stopLock h
      rw [ServerState.atCall, hpc] at hcall
      cases hcall
    · exact absurd rfl (hreturn rfl)
  | rtsp =>
    rcases serverStep_playPc h with hsame | hnext
    · exact (congrArg PlayPc.atCall hsame).trans hcall
    · obtain ⟨hret, hthread⟩ := hnext.isReturn hcall
      exact absurd hthread (hreturn hret)

/-- A call that has begun is one the thread is at. -/
def Process.CallsBegun (p : Process) : Prop :=
  ∀ thread, p.begun thread = true → p.server.atCall thread = true

theorem threadStep_callsBegun {event : ThreadEvent Cert} (hp : p.CallsBegun)
    (h : threadStep ssl p event = some p') : p'.CallsBegun := by
  intro thread hbegun
  cases event with
  | call thread' =>
    obtain ⟨hcall, -, rfl⟩ := threadStep_call h
    by_cases heq : thread = thread'
    · exact heq ▸ hcall
    · exact hp thread ((Function.update_of_ne heq ..).symm.trans hbegun)
  | server event =>
    obtain ⟨hstep, hreturn, hother⟩ := threadStep_server h
    cases hret : event.isReturn with
    | false =>
      exact serverStep_atCall hstep (hret ▸ nofun) (hp thread (hother hret ▸ hbegun))
    | true =>
      rw [(hreturn hret).2] at hbegun
      have hne : thread ≠ event.thread := by
        rintro rfl
        rw [Function.update_self] at hbegun
        cases hbegun
      rw [Function.update_of_ne hne] at hbegun
      exact serverStep_atCall hstep (fun _ => hne.symm) (hp thread hbegun)
  | lock thread' =>
    obtain rfl := threadStep_lock h
    exact hp thread hbegun
  | unlock thread' =>
    obtain rfl := threadStep_unlock h
    exact hp thread hbegun
  | release thread' =>
    obtain ⟨expiring, destroying, rfl⟩ := threadStep_references (.inl rfl) h
    exact hp thread hbegun
  | destroyed thread' =>
    obtain ⟨expiring, destroying, rfl⟩ := threadStep_references (.inr rfl) h
    exact hp thread hbegun

end Erase

section Runs

variable {Cert : Type} (ssl : OpenSSL Cert) (app : AppState)

theorem process_handover_isInvariant :
    (threadSystem ssl app).IsInvariant fun p => p.server.Handover :=
  (threadSystem_erases app).isInvariant (handover_isInvariant app)

end Runs

/-! ### Teardown -/

/-- A `stop()` that a thread has called on the media session has begun and not returned. -/
def Process.InStopCall (p : Process) (victim : MediaRef) : Prop :=
  (∃ thread, p.server.stopPc thread = .stopping victim ∧ p.begun (.stop thread) = true) ∨
    ∃ sess, p.server.playPc = .stopping sess victim ∧ p.begun .rtsp = true

/-- The `stop()` of its destructor has begun and not returned. -/
def Process.InDestructor (p : Process) (victim : MediaRef) : Prop :=
  ∃ thread, p.expiring thread = some victim ∧ p.destroying thread = true

/-- A `stop()` of the media session has begun and not returned. -/
def Process.InStop (p : Process) (victim : MediaRef) : Prop :=
  p.InStopCall victim ∨ p.InDestructor victim

end SteamStream.Server
