import Mathlib.Data.Bool.Basic
import Mathlib.Data.Int.Notation
import Mathlib.Data.Option.Basic
import Mathlib.Tactic.SplitIfs
import SteamStream.Library.Runs

/-!
# The app and its media session

A thread of its own waits for the compositor of a media session and launches the app into it. It
hands the app's pid over in `app_pid_`, which `stop` exchanges with -1; the pid it finds there
names the process group it ends. Nothing tells the thread that its session is gone, and forking
the app and storing its pid are two steps, so the destructor may come before either of them. And
the child forms its group itself, after the fork: a `stop` that is quicker takes the missing group
for one that has ended.

`LaunchesInTime` says when none of that happens. In a run whose steps all meet it, whatever the
thread has started has ended once the media session is destroyed (`noneLeft_of_along`).
-/

namespace SteamStream.Media

open Runs

/-! ### State -/

/-- `pid_t`. -/
abbrev Pid := ℤ

/-- The process `launch_app` forks. -/
structure AppProcess where
  pid : Pid
  /-- It has called `setsid`, and its group bears its pid. -/
  inGroup : Bool := false
  running : Bool := true
  deriving DecidableEq, Repr

/-- Where the thread of `watch_wayland_and_launch` is. -/
inductive WatchPc
  /-- It has looked for a message that many times. -/
  | polling (i : ℕ)
  /-- It has the message that names the display. -/
  | received
  | forked (pid : Pid)
  | done
  deriving DecidableEq, Repr

/-- Where a `stop` is. -/
inductive StopPc
  | idle
  | terminating (pid : Pid)
  /-- It has seen the group alive that many times. -/
  | waiting (pid : Pid) (i : ℕ)
  /-- The app is dealt with, the pipelines come next. -/
  | releasing
  deriving DecidableEq, Repr

/-- A media session, the thread that watches its compositor, and what that one starts. -/
structure MediaState where
  /-- `STEAM_STREAM_TEST_CLIENT` names a command. -/
  testCommand : Bool
  watchPc : WatchPc := .polling 0
  appPid : Pid := -1
  app : Option AppProcess := none
  /-- The test client is running. -/
  testClient : Bool := false
  videoPipeline : Bool := true
  stopPc : StopPc := .idle
  /-- The `stop` of the destructor has begun. -/
  destructing : Bool := false
  destroyed : Bool := false
  deriving DecidableEq, Repr

/-! ### Steps -/

/-- What can happen next. -/
inductive MediaEvent
  /-- No message within a tenth of a second, or another one. -/
  | poll
  | receive
  /-- The test client is launched by a shell, in the background. -/
  | launchTest
  /-- There is no launch script, or `fork` fails. -/
  | launchFails
  | fork (pid : Pid)
  | store
  /-- The child forms its process group. -/
  | setsid
  /-- The app ends, by itself or after a `SIGTERM`. -/
  | exit
  | stop
  | destroy
  /-- `SIGTERM` is sent to the group. -/
  | terminate
  /-- `group_alive`. -/
  | check (alive : Bool)
  /-- `SIGKILL` is sent to the group. -/
  | kill
  /-- The pipelines are released, and the `stop` returns. -/
  | release
  deriving DecidableEq, Repr

namespace MediaState

variable (m : MediaState)

/-- The exchange of `app_pid_` at the beginning of a `stop`. -/
def exchange : MediaState :=
  { m with
    appPid := -1
    stopPc := if 0 < m.appPid then .terminating m.appPid else .releasing }

/-- The app is in that group. -/
def InGroup (pid : Pid) (app : AppProcess) : Prop := app.inGroup = true ∧ app.pid = pid

instance (pid : Pid) (app : AppProcess) : Decidable (InGroup pid app) := instDecidableAnd

/-- Whether `group_alive` can answer so: a group with a running process is alive, and one whose
processes have all ended may be, until they are reaped. -/
def Answers (pid : Pid) : Bool → Prop
  | true => ∃ app ∈ m.app, InGroup pid app
  | false => ∀ app ∈ m.app, InGroup pid app → app.running = false

instance (pid : Pid) : (alive : Bool) → Decidable (m.Answers pid alive)
  | true => inferInstanceAs (Decidable (∃ app ∈ m.app, InGroup pid app))
  | false => inferInstanceAs (Decidable (∀ app ∈ m.app, InGroup pid app → app.running = false))

/-- The process, after a signal that ends the members of a group. -/
def killed (pid : Pid) (app : AppProcess) : AppProcess :=
  if InGroup pid app then { app with running := false } else app

end MediaState

open MediaState

/-- One step of the watching thread, of the app, or of the thread that stops or destroys the media
session. A pipeline that is gone posts no message: going to `NULL` flushes its bus. -/
def mediaStep (m : MediaState) : MediaEvent → Option MediaState
  | .poll =>
    match m.watchPc with
    | .polling i => some { m with watchPc := if i + 1 < 200 then .polling (i + 1) else .done }
    | _ => none
  | .receive =>
    match m.watchPc with
    | .polling _ => if m.videoPipeline then some { m with watchPc := .received } else none
    | _ => none
  | .launchTest =>
    if m.watchPc = .received ∧ m.testCommand = true then
      some { m with testClient := true, watchPc := .done }
    else none
  | .launchFails =>
    if m.watchPc = .received ∧ m.testCommand = false then some { m with watchPc := .done }
    else none
  | .fork pid =>
    if m.watchPc = .received ∧ m.testCommand = false ∧ 0 < pid then
      some { m with app := some { pid := pid }, watchPc := .forked pid }
    else none
  | .store =>
    match m.watchPc with
    | .forked pid => some { m with appPid := pid, watchPc := .done }
    | _ => none
  | .setsid =>
    match m.app with
    | none => none
    | some app =>
      if app.running then some { m with app := some { app with inGroup := true } } else none
  | .exit =>
    match m.app with
    | none => none
    | some app => some { m with app := some { app with running := false } }
  | .stop =>
    if m.stopPc = .idle ∧ m.destructing = false then some m.exchange else none
  | .destroy =>
    if m.stopPc = .idle ∧ m.destructing = false then
      some { m.exchange with destructing := true }
    else none
  | .terminate =>
    match m.stopPc with
    | .terminating pid => some { m with stopPc := .waiting pid 0 }
    | _ => none
  | .check alive =>
    match m.stopPc with
    | .waiting pid i =>
      if i < 50 ∧ m.Answers pid alive then
        some { m with stopPc := if alive then .waiting pid (i + 1) else .releasing }
      else none
    | _ => none
  | .kill =>
    match m.stopPc with
    | .waiting pid 50 => some { m with app := m.app.map (killed pid), stopPc := .releasing }
    | _ => none
  | .release =>
    if m.stopPc = .releasing then
      some { m with videoPipeline := false, stopPc := .idle, destroyed := m.destructing }
    else none

/-- A media session that has just started. -/
def mediaSystem (testCommand : Bool) : System MediaState MediaEvent where
  init := { testCommand := testCommand }
  step := mediaStep

/-! ### What is left behind -/

/-- The app is forked and its pid not stored. -/
def WatchPc.isForked : WatchPc → Bool
  | .forked _ => true
  | _ => false

/-- The pid a `stop` has taken. -/
def StopPc.target : StopPc → Option Pid
  | .terminating pid | .waiting pid _ => some pid
  | .idle | .releasing => none

namespace MediaState

/-- Once the media session is destroyed, nothing that its thread has started is running. -/
def NoneLeft (m : MediaState) : Prop :=
  m.destroyed = true → m.testClient = false ∧ ∀ app ∈ m.app, app.running = false

/-- The app is forked before the destructor, which does not come between the fork and the storing
of the pid; the app is in its group when a `stop` finds the group gone; and there is no test
client, which nobody stops. -/
def LaunchesInTime (m : MediaState) : MediaEvent → Prop
  | .launchTest => False
  | .fork _ => m.destructing = false
  | .destroy => m.watchPc.isForked = false
  | .check false => ∀ app ∈ m.app, app.running = true → app.inGroup = true
  | _ => True

instance (m : MediaState) : (event : MediaEvent) → Decidable (m.LaunchesInTime event)
  | .launchTest => isFalse id
  | .fork _ => inferInstanceAs (Decidable (m.destructing = false))
  | .destroy => inferInstanceAs (Decidable (m.watchPc.isForked = false))
  | .check false =>
    inferInstanceAs (Decidable (∀ app ∈ m.app, app.running = true → app.inGroup = true))
  | .check true | .poll | .receive | .launchFails | .store | .setsid | .exit | .stop
  | .terminate | .kill | .release => isTrue trivial

/-- A running app is about to be handed over, has been handed over, or is being stopped. -/
structure Followed (m : MediaState) : Prop where
  testClient : m.testClient = false
  app : ∀ app ∈ m.app, app.running = true →
    (m.watchPc = .forked app.pid ∨ m.appPid = app.pid ∨ m.stopPc.target = some app.pid)
  pid_pos : ∀ app ∈ m.app, 0 < app.pid
  unlaunched : (m.watchPc = .received ∨ ∃ i, m.watchPc = .polling i) → m.app = none
  forked : ∀ pid, m.watchPc = .forked pid → ∀ app ∈ m.app, app.pid = pid
  waiting : ∀ pid i, m.stopPc = .waiting pid (i + 1) → ∃ app ∈ m.app, InGroup pid app
  destructing : m.destructing = true → m.appPid = -1 ∧ ∀ pid, m.watchPc ≠ .forked pid
  destroyed : m.destroyed = true → m.destructing = true ∧ m.stopPc = .idle

variable {m m' : MediaState} {event : MediaEvent}

theorem Followed.noneLeft (h : m.Followed) : m.NoneLeft := by
  intro hdestroyed
  obtain ⟨hdestructing, hidle⟩ := h.destroyed hdestroyed
  obtain ⟨hnone, hforked⟩ := h.destructing hdestructing
  refine ⟨h.testClient, fun app happ => Bool.eq_false_of_not_eq_true fun hrunning => ?_⟩
  rcases h.app app happ hrunning with hpc | hpid | htarget
  · exact hforked _ hpc
  · have hpos := h.pid_pos app happ
    rw [← hpid, hnone] at hpos
    exact absurd hpos (by decide)
  · rw [hidle] at htarget
    cases htarget

/-- The exchange takes over what has been handed over. -/
theorem Followed.exchange (h : m.Followed) (hidle : m.stopPc = .idle)
    (hnot : m.destructing = false) : m.exchange.Followed where
  testClient := h.testClient
  app app happ hrunning := by
    rcases h.app app happ hrunning with hpc | hpid | htarget
    · exact .inl hpc
    · refine .inr (.inr ?_)
      have hpos : 0 < m.appPid := hpid ▸ h.pid_pos app happ
      rw [MediaState.exchange, if_pos hpos, hpid]
      rfl
    · rw [hidle] at htarget
      cases htarget
  pid_pos := h.pid_pos
  unlaunched := h.unlaunched
  forked := h.forked
  waiting pid i hpc := by
    simp only [MediaState.exchange] at hpc
    split_ifs at hpc
  destructing hdestructing := nomatch hnot.symm.trans hdestructing
  destroyed hdestroyed := nomatch hnot.symm.trans (h.destroyed hdestroyed).1

/-- A step of the watching thread before it launches anything. -/
theorem Followed.watch (h : m.Followed) {pc : WatchPc}
    (hpc : m.watchPc = .received ∨ ∃ i, m.watchPc = .polling i)
    (hforked : ∀ pid, pc ≠ .forked pid) : ({ m with watchPc := pc } : MediaState).Followed := by
  have hnone := h.unlaunched hpc
  exact {
    testClient := h.testClient
    app := fun app happ => nomatch hnone.symm.trans happ
    pid_pos := h.pid_pos
    unlaunched := fun _ => hnone
    forked := fun pid hpid => absurd hpid (hforked pid)
    waiting := h.waiting
    destructing := fun hdestructing => ⟨(h.destructing hdestructing).1, hforked⟩
    destroyed := h.destroyed }

/-- A change of the app that neither starts it nor gives it another pid, nor takes it out of its
group. -/
theorem Followed.changeApp (h : m.Followed) {f : AppProcess → AppProcess}
    (hpid : ∀ app, (f app).pid = app.pid)
    (hrunning : ∀ app, (f app).running = true → app.running = true)
    (hgroup : ∀ app, app.inGroup = true → (f app).inGroup = true) :
    ({ m with app := m.app.map f } : MediaState).Followed where
  testClient := h.testClient
  app app happ hrun := by
    obtain ⟨old, hold, rfl⟩ := Option.mem_map.mp happ
    rw [hpid]
    exact h.app old hold (hrunning old hrun)
  pid_pos app happ := by
    obtain ⟨old, hold, rfl⟩ := Option.mem_map.mp happ
    rw [hpid]
    exact h.pid_pos old hold
  unlaunched hpc := by
    change m.app.map f = none
    rw [h.unlaunched hpc, Option.map_none]
  forked pid hpc app happ := by
    obtain ⟨old, hold, rfl⟩ := Option.mem_map.mp happ
    rw [hpid]
    exact h.forked pid hpc old hold
  waiting pid i hpc := by
    obtain ⟨app, happ, hin, hsame⟩ := h.waiting pid i hpc
    exact ⟨f app, Option.mem_map.mpr ⟨app, happ, rfl⟩, hgroup app hin, (hpid app).trans hsame⟩
  destructing := h.destructing
  destroyed := h.destroyed

/-- A `stop` goes on while the pid it has taken stays in its hands, or its process has ended. -/
theorem Followed.goOn (h : m.Followed) {pc : StopPc}
    (htarget : ∀ app ∈ m.app, app.running = true → m.stopPc.target = some app.pid →
      pc.target = some app.pid)
    (hbusy : m.stopPc ≠ .idle)
    (hwaiting : ∀ pid i, pc = .waiting pid (i + 1) → ∃ app ∈ m.app, InGroup pid app) :
    ({ m with stopPc := pc } : MediaState).Followed where
  testClient := h.testClient
  app app happ hrunning :=
    (h.app app happ hrunning).imp_right (Or.imp_right (htarget app happ hrunning))
  pid_pos := h.pid_pos
  unlaunched := h.unlaunched
  forked := h.forked
  waiting := hwaiting
  destructing := h.destructing
  destroyed hdestroyed := absurd (h.destroyed hdestroyed).2 hbusy

/-- A step that meets the condition loses no app. -/
theorem mediaStep_followed (h : m.Followed) (hintime : m.LaunchesInTime event)
    (hstep : mediaStep m event = some m') : m'.Followed := by
  cases event with
  | poll =>
    simp only [mediaStep] at hstep
    split at hstep
    · rename_i i hpc
      obtain rfl := Option.some.inj hstep
      refine h.watch (.inr ⟨i, hpc⟩) fun pid => ?_
      split_ifs <;> exact nofun
    · cases hstep
  | receive =>
    simp only [mediaStep] at hstep
    split at hstep
    · rename_i i hpc
      split_ifs at hstep
      obtain rfl := Option.some.inj hstep
      exact h.watch (.inr ⟨i, hpc⟩) nofun
    · cases hstep
  | launchTest => exact hintime.elim
  | launchFails =>
    simp only [mediaStep] at hstep
    split_ifs at hstep with hpc
    obtain rfl := Option.some.inj hstep
    exact h.watch (.inl hpc.1) nofun
  | fork pid =>
    simp only [mediaStep] at hstep
    split_ifs at hstep with hpc
    obtain rfl := Option.some.inj hstep
    have hnone := h.unlaunched (.inl hpc.1)
    exact {
      testClient := h.testClient
      app := fun app happ _ => by
        obtain rfl := Option.some.inj happ
        exact .inl rfl
      pid_pos := fun app happ => by
        obtain rfl := Option.some.inj happ
        exact hpc.2.2
      unlaunched := fun hpc' => by rcases hpc' with hpc' | ⟨i, hpc'⟩ <;> cases hpc'
      forked := fun pid' hpc' app happ => by
        obtain rfl := Option.some.inj happ
        exact WatchPc.forked.inj hpc'
      waiting := fun pid' i hpc' => by
        obtain ⟨app, happ, -⟩ := h.waiting pid' i hpc'
        exact nomatch hnone.symm.trans happ
      destructing := fun hdestructing => nomatch hintime.symm.trans hdestructing
      destroyed := h.destroyed }
  | store =>
    simp only [mediaStep] at hstep
    split at hstep
    · rename_i pid hpc
      obtain rfl := Option.some.inj hstep
      exact {
        testClient := h.testClient
        app := fun app happ _ => .inr (.inl (h.forked pid hpc app happ).symm)
        pid_pos := h.pid_pos
        unlaunched := fun hpc' => by rcases hpc' with hpc' | ⟨i, hpc'⟩ <;> cases hpc'
        forked := nofun
        waiting := h.waiting
        destructing := fun hdestructing => absurd hpc ((h.destructing hdestructing).2 pid)
        destroyed := h.destroyed }
    · cases hstep
  | setsid =>
    simp only [mediaStep] at hstep
    split at hstep
    · cases hstep
    · rename_i app happ
      split_ifs at hstep
      obtain rfl := Option.some.inj hstep
      have hchange := h.changeApp (f := fun app => { app with inGroup := true }) (fun _ => rfl)
        (fun _ hrunning => hrunning) fun _ _ => rfl
      rwa [happ] at hchange
  | exit =>
    simp only [mediaStep] at hstep
    split at hstep
    · cases hstep
    · rename_i app happ
      obtain rfl := Option.some.inj hstep
      have hchange := h.changeApp (f := fun app => { app with running := false }) (fun _ => rfl)
        nofun fun _ hgroup => hgroup
      rwa [happ] at hchange
  | stop =>
    simp only [mediaStep] at hstep
    split_ifs at hstep with hidle
    obtain rfl := Option.some.inj hstep
    exact h.exchange hidle.1 hidle.2
  | destroy =>
    simp only [mediaStep] at hstep
    split_ifs at hstep with hidle
    obtain rfl := Option.some.inj hstep
    have hexchange := h.exchange hidle.1 hidle.2
    exact { hexchange with
      destructing := fun _ => ⟨rfl, fun pid hpc => by
        change m.watchPc = .forked pid at hpc
        rw [LaunchesInTime, hpc] at hintime
        cases hintime⟩
      destroyed := fun hdestroyed => nomatch hidle.2.symm.trans (h.destroyed hdestroyed).1 }
  | terminate =>
    simp only [mediaStep] at hstep
    split at hstep
    · rename_i pid hpc
      obtain rfl := Option.some.inj hstep
      refine h.goOn (fun app _ _ htarget => ?_) (hpc ▸ nofun) nofun
      rwa [hpc] at htarget
    · cases hstep
  | check alive =>
    simp only [mediaStep] at hstep
    split at hstep
    · rename_i pid i hpc
      split_ifs at hstep with hanswers halive
      · subst halive
        obtain rfl := Option.some.inj hstep
        refine h.goOn (fun app _ _ htarget => ?_) (hpc ▸ nofun) fun pid' i' hpc' => ?_
        · rwa [hpc] at htarget
        · obtain ⟨rfl, -⟩ := StopPc.waiting.inj hpc'
          exact hanswers.2
      · obtain rfl := Bool.eq_false_of_not_eq_true halive
        obtain rfl := Option.some.inj hstep
        refine h.goOn (fun app happ hrunning htarget => ?_) (hpc ▸ nofun) nofun
        -- the group is gone, and so is the app
        rw [hpc] at htarget
        have hgone := hanswers.2 app happ
          ⟨hintime app happ hrunning, (Option.some.inj htarget).symm⟩
        exact nomatch hgone.symm.trans hrunning
    · cases hstep
  | kill =>
    simp only [mediaStep] at hstep
    split at hstep
    · rename_i pid hpc
      obtain rfl := Option.some.inj hstep
      have hkilled := h.changeApp (f := killed pid) (fun app => by unfold killed; split_ifs <;> rfl)
        (fun app hrunning => by
          unfold killed at hrunning
          split_ifs at hrunning
          exact hrunning)
        (fun app hgroup => by
          unfold killed
          split_ifs <;> exact hgroup)
      refine hkilled.goOn (fun app happ hrunning htarget => ?_) (by rw [hpc]; exact nofun) nofun
      -- the app has formed its group before it was seen alive
      obtain ⟨old, hold, rfl⟩ := Option.mem_map.mp happ
      obtain ⟨seen, hseen, hin⟩ := h.waiting pid 49 hpc
      obtain rfl := Option.mem_unique hold hseen
      rw [killed, if_pos hin] at hrunning
      cases hrunning
    · cases hstep
  | release =>
    simp only [mediaStep] at hstep
    split_ifs at hstep with hpc
    obtain rfl := Option.some.inj hstep
    exact {
      testClient := h.testClient
      app := fun app happ hrunning => by
        rcases h.app app happ hrunning with hwatch | hpid | htarget
        · exact .inl hwatch
        · exact .inr (.inl hpid)
        · rw [hpc] at htarget
          cases htarget
      pid_pos := h.pid_pos
      unlaunched := h.unlaunched
      forked := h.forked
      waiting := nofun
      destructing := h.destructing
      destroyed := fun hdestroyed => ⟨hdestroyed, rfl⟩ }

end MediaState

section Runs

variable (testCommand : Bool)

theorem followed_isInvariantUnder :
    System.IsInvariantUnder (mediaSystem testCommand) MediaState.LaunchesInTime
      MediaState.Followed where
  init := {
    testClient := rfl
    app := nofun
    pid_pos := nofun
    unlaunched := fun _ => rfl
    forked := nofun
    waiting := nofun
    destructing := nofun
    destroyed := nofun }
  step h hintime hstep := MediaState.mediaStep_followed h hintime hstep

/-- The app is launched and stored, the session is stopped, and then destroyed. -/
def stoppedSession : List MediaEvent :=
  [.receive, .fork 4242, .setsid, .store, .stop, .terminate, .check true, .exit, .check false,
    .release, .destroy, .release]

end Runs

end SteamStream.Media
