import Mathlib.Data.Int.Notation
import Mathlib.Data.List.Induction
import Mathlib.Data.List.Nodup
import SteamStream.Library.Runs
import SteamStream.Library.Wire
import SteamStream.Media.AppProcess

/-!
# Ending the app

`stop` ends the process group of the app. The Steam client comes first and alone: it is asked to
terminate, and for fifteen seconds nothing else is done as long as a process of the client is found
in the group. Then the whole group is asked, and what is still there after five seconds is killed.

Meanwhile the processes go on: they fork, execute something else, leave the group, end and are
reaped. `shutdown_run` says what holds however that falls between the looks at the process table:
how long it takes at most, in which order the signals are sent and to whom, and that a group which
was found to be gone is gone for good. If no process becomes one of the Steam client's any more, every Steam
there is has been asked to terminate, and the group is not asked before the client has ended, but
for the timeout.
-/

namespace SteamStream.Media

open Runs Wire

/-! ### Processes -/

/-- A line of the process table; a process that has ended stays until it is reaped. -/
structure Proc where
  pid : Pid
  pgid : Pid
  comm : Bytes
  running : Bool := true
  deriving DecidableEq, Repr

/-- The processes, and the pids that have been given. -/
structure ProcTable where
  procs : List Proc
  used : List Pid
  deriving DecidableEq, Repr

namespace ProcTable

variable (t : ProcTable)

/-- `group_pids`. -/
def groupPids (pgid : Pid) : List Pid :=
  (t.procs.filter fun q => 0 < q.pid ∧ q.pgid = pgid).map Proc.pid

/-- `proc_comm`, which finds nothing when the process is gone. -/
def procComm (pid : Pid) : Bytes :=
  match t.procs.find? fun q => q.pid = pid with
  | none => []
  | some q => q.comm

/-- Whether a signal to the group finds a process. -/
def groupAlive (pgid : Pid) : Bool := t.procs.any fun q => q.pgid = pgid

/-- A running process of that pid. -/
def Runs (pid : Pid) : Prop := ∃ q ∈ t.procs, q.pid = pid ∧ q.running = true

instance (pid : Pid) : Decidable (t.Runs pid) := inferInstanceAs (Decidable (∃ q ∈ t.procs, _))

/-- A change of one process. -/
def change (pid : Pid) (f : Proc → Proc) : ProcTable :=
  { t with procs := t.procs.map fun q => if q.pid = pid then f q else q }

end ProcTable

/-- What the processes do. -/
inductive ProcEvent
  | fork (parent child : Pid)
  | exec (pid : Pid) (comm : Bytes)
  | exit (pid : Pid)
  | reap (pid : Pid)
  | setpgid (pid pgid : Pid)
  deriving DecidableEq, Repr

/-- A pid is not given twice. The leader of the group that is being ended has called `setsid`, so it
stays in it; other processes may go to a group of their own or to one there is. -/
def procStep (leader : Pid) (t : ProcTable) : ProcEvent → Option ProcTable
  | .fork parent child =>
    match t.procs.find? fun q => q.pid = parent ∧ q.running = true with
    | none => none
    | some q =>
      if 0 < child ∧ child ∉ t.used then
        some { procs := t.procs ++ [{ q with pid := child }], used := child :: t.used }
      else none
  | .exec pid comm => if t.Runs pid then some (t.change pid fun q => { q with comm }) else none
  | .exit pid =>
    if t.Runs pid then some (t.change pid fun q => { q with running := false }) else none
  | .reap pid => some { t with procs := t.procs.filter fun q => q.pid ≠ pid ∨ q.running = true }
  | .setpgid pid pgid =>
    if t.Runs pid ∧ pid ≠ leader ∧ (pgid = pid ∨ t.groupAlive pgid = true) then
      some (t.change pid fun q => { q with pgid })
    else none

/-! ### The thread that stops the app -/

/-- A signal the thread has sent. -/
inductive Signal
  | term (pid : Pid)
  | termGroup
  | killGroup
  deriving DecidableEq, Repr

/-- The main process of the Steam client. -/
def steam : Bytes := ascii "steam"

/-- A process of the Steam client. -/
def IsClient (comm : Bytes) : Prop := comm = steam ∨ comm = ascii "steamwebhelper"

instance (comm : Bytes) : Decidable (IsClient comm) := inferInstanceAs (Decidable (_ ∨ _))

/-- Where the thread is. -/
inductive ShutdownPc
  | start
  /-- It looks for Steam among the processes it has listed. -/
  | gather (todo found : List Pid)
  | signalSteam (todo : List Pid)
  /-- It has found the client running that many times. -/
  | look (i : ℕ)
  | read (i : ℕ) (todo : List Pid)
  /-- In front of the `SIGTERM` to the group; the client has exited cleanly or not, if there was
  one. -/
  | sweep (clean : Option Bool)
  /-- It has found the group alive that many times. -/
  | await (i : ℕ)
  | kill
  | awaitKill (i : ℕ)
  | done (dead : Bool)
  deriving DecidableEq, Repr

structure ShutdownState where
  table : ProcTable
  pc : ShutdownPc := .start
  signals : List Signal := []
  /-- How many tenths of a second it has slept while it waited for Steam. -/
  steamWait : ℕ := 0
  /-- And while it waited for the group, from the first signal to it on. -/
  groupWait : ℕ := 0
  deriving DecidableEq, Repr

/-- The next step of the thread. -/
def ShutdownState.proceed (pgid : Pid) (st : ShutdownState) : Option ShutdownState :=
  match st.pc with
  | .start => some { st with pc := .gather (st.table.groupPids pgid) [] }
  | .gather (p :: todo) found =>
    some { st with
      pc := .gather todo (if st.table.procComm p = steam then found ++ [p] else found) }
  | .gather [] found =>
    some { st with pc := if found = [] then .sweep none else .signalSteam found }
  | .signalSteam (p :: todo) =>
    some { st with pc := .signalSteam todo, signals := st.signals ++ [.term p] }
  | .signalSteam [] => some { st with pc := .look 0 }
  | .look i =>
    some { st with
      pc := if i < 150 then .read i (st.table.groupPids pgid) else .sweep (some false) }
  | .read i (p :: todo) =>
    if IsClient (st.table.procComm p) then
      some { st with pc := .look (i + 1), steamWait := st.steamWait + 1 }
    else some { st with pc := .read i todo }
  | .read _ [] => some { st with pc := .sweep (some true) }
  | .sweep _ => some { st with pc := .await 0, signals := st.signals ++ [.termGroup] }
  | .await i =>
    if i < 50 then
      if st.table.groupAlive pgid then
        some { st with pc := .await (i + 1), groupWait := st.groupWait + 1 }
      else some { st with pc := .done true }
    else some { st with pc := .kill }
  | .kill =>
    some { st with
      table.procs := st.table.procs.map fun q =>
        if q.pgid = pgid then { q with running := false } else q
      pc := .awaitKill 0
      signals := st.signals ++ [.killGroup] }
  | .awaitKill i =>
    if i < 20 then
      if st.table.groupAlive pgid then
        some { st with pc := .awaitKill (i + 1), groupWait := st.groupWait + 1 }
      else some { st with pc := .done true }
    else some { st with pc := .done false }
  | .done _ => none

/-- What can happen next. -/
inductive ShutdownEvent
  | proceed
  | proc (event : ProcEvent)
  deriving DecidableEq, Repr

def shutdownStep (pgid : Pid) (st : ShutdownState) : ShutdownEvent → Option ShutdownState
  | .proceed => st.proceed pgid
  | .proc event => (procStep pgid st.table event).map fun table => { st with table }

/-- The thread, which ends the group, among the processes. -/
def shutdownSystem (pgid : Pid) (table : ProcTable) : System ShutdownState ShutdownEvent where
  init := { table }
  step := shutdownStep pgid

/-! ### What becomes of the processes -/

/-- Pids are given once, and the leader of the group is in it. -/
structure ProcTable.Ok (leader : Pid) (t : ProcTable) : Prop where
  nodup : (t.procs.map Proc.pid).Nodup
  pos : ∀ q ∈ t.procs, 0 < q.pid
  used : ∀ q ∈ t.procs, q.pid ∈ t.used
  leader_used : leader ∈ t.used
  leader_stays : ∀ q ∈ t.procs, q.pid = leader → q.pgid = leader

/-- What a process was before an event: itself, the one it was forked from, or the one that has
changed. -/
inductive Came (leader : Pid) (t : ProcTable) : ProcEvent → Proc → Proc → Prop
  | same {e : ProcEvent} {q : Proc} : Came leader t e q q
  | fork {q : Proc} {child : Pid} (h : 0 < child ∧ child ∉ t.used) :
    Came leader t (.fork q.pid child) q { q with pid := child }
  | exec {q : Proc} {comm : Bytes} : Came leader t (.exec q.pid comm) q { q with comm }
  | exit {q : Proc} : Came leader t (.exit q.pid) q { q with running := false }
  | setpgid {q : Proc} {pgid : Pid} (hleader : q.pid ≠ leader)
    (hgroup : pgid = q.pid ∨ t.groupAlive pgid = true) :
    Came leader t (.setpgid q.pid pgid) q { q with pgid }

/-- The process becomes none of the Steam client's in the group. -/
def ProcEvent.Quiet (leader : Pid) (t : ProcTable) : ProcEvent → Prop
  | .fork parent _ => ∀ q ∈ t.procs, q.pid = parent → q.pgid = leader → ¬ IsClient q.comm
  | .exec _ comm => ¬ IsClient comm
  | .setpgid _ pgid => pgid ≠ leader
  | .exit _ | .reap _ => True

section Processes

variable {leader : Pid} {t t' : ProcTable} {e : ProcEvent} {q : Proc}

theorem mem_change {pid : Pid} {f : Proc → Proc} :
    q ∈ (t.change pid f).procs ↔ ∃ p ∈ t.procs, (if p.pid = pid then f p else p) = q :=
  List.mem_map

theorem came_of_procStep (h : procStep leader t e = some t') (hq : q ∈ t'.procs) :
    ∃ p ∈ t.procs, Came leader t e p q := by
  -- a change of one process leaves the others as they are
  have hchange : ∀ {pid : Pid} {f : Proc → Proc}, q ∈ (t.change pid f).procs →
      (∀ p ∈ t.procs, p.pid = pid → Came leader t e p (f p)) →
        ∃ p ∈ t.procs, Came leader t e p q := by
    intro pid f hq hf
    obtain ⟨p, hp, rfl⟩ := mem_change.mp hq
    refine ⟨p, hp, ?_⟩
    split_ifs with hpid
    · exact hf p hp hpid
    · exact .same
  cases e with
  | fork parent child =>
    rw [procStep] at h
    split at h
    · cases h
    · rename_i p hp
      obtain ⟨hfresh, h⟩ := Option.ite_none_right_eq_some.mp h
      obtain rfl := Option.some.inj h
      rcases List.mem_append.mp hq with hq | hq
      · exact ⟨q, hq, .same⟩
      · obtain rfl := List.mem_singleton.mp hq
        have hparent := of_decide_eq_true
          (List.find?_some (p := fun q : Proc => decide (q.pid = parent ∧ q.running = true)) hp)
        obtain rfl := hparent.1
        exact ⟨p, List.mem_of_find?_eq_some hp, .fork hfresh⟩
  | exec pid comm =>
    obtain ⟨-, h⟩ := Option.ite_none_right_eq_some.mp h
    obtain rfl := Option.some.inj h
    refine hchange hq fun p _ hpid => ?_
    subst hpid
    exact .exec
  | exit pid =>
    obtain ⟨-, h⟩ := Option.ite_none_right_eq_some.mp h
    obtain rfl := Option.some.inj h
    refine hchange hq fun p _ hpid => ?_
    subst hpid
    exact .exit
  | reap pid =>
    obtain rfl := Option.some.inj h
    exact ⟨q, (List.mem_filter.mp hq).1, .same⟩
  | setpgid pid pgid =>
    obtain ⟨⟨-, hleader, hgroup⟩, h⟩ := Option.ite_none_right_eq_some.mp h
    obtain rfl := Option.some.inj h
    refine hchange hq fun p _ hpid => ?_
    subst hpid
    exact .setpgid hleader hgroup

theorem used_procStep (h : procStep leader t e = some t') : t.used ⊆ t'.used := by
  intro pid hpid
  cases e with
  | fork parent child =>
    rw [procStep] at h
    split at h
    · cases h
    · obtain ⟨-, h⟩ := Option.ite_none_right_eq_some.mp h
      obtain rfl := Option.some.inj h
      exact List.mem_cons_of_mem _ hpid
  | exec | exit | setpgid =>
    obtain ⟨-, h⟩ := Option.ite_none_right_eq_some.mp h
    obtain rfl := Option.some.inj h
    exact hpid
  | reap =>
    obtain rfl := Option.some.inj h
    exact hpid

private theorem nodup_change {pid : Pid} {f : Proc → Proc} (h : (t.procs.map Proc.pid).Nodup)
    (hf : ∀ p, (f p).pid = p.pid) : ((t.change pid f).procs.map Proc.pid).Nodup := by
  have hpids : (t.change pid f).procs.map Proc.pid = t.procs.map Proc.pid := by
    rw [ProcTable.change, List.map_map]
    refine List.map_congr_left fun p _ => ?_
    dsimp only [Function.comp]
    split_ifs
    · exact hf p
    · rfl
  rwa [hpids]

private theorem nodup_procStep (ht : t.Ok leader) (h : procStep leader t e = some t') :
    (t'.procs.map Proc.pid).Nodup := by
  cases e with
  | fork parent child =>
    rw [procStep] at h
    split at h
    · cases h
    · obtain ⟨hfresh, h⟩ := Option.ite_none_right_eq_some.mp h
      obtain rfl := Option.some.inj h
      rw [List.map_append, List.map_singleton, List.nodup_append]
      refine ⟨ht.nodup, List.nodup_singleton _, fun pid hpid other hother heq => ?_⟩
      obtain rfl := List.mem_singleton.mp hother
      obtain ⟨p, hp, rfl⟩ := List.mem_map.mp hpid
      exact hfresh.2 (heq ▸ ht.used p hp)
  | exec | exit | setpgid =>
    obtain ⟨-, h⟩ := Option.ite_none_right_eq_some.mp h
    obtain rfl := Option.some.inj h
    exact nodup_change ht.nodup fun _ => rfl
  | reap =>
    obtain rfl := Option.some.inj h
    exact ht.nodup.sublist (List.filter_sublist.map _)

theorem ok_procStep (ht : t.Ok leader) (h : procStep leader t e = some t') : t'.Ok leader where
  nodup := nodup_procStep ht h
  pos q hq := by
    obtain ⟨p, hp, hcame⟩ := came_of_procStep h hq
    have hpos := ht.pos p hp
    cases hcame with
    | same | exec | exit | setpgid => exact hpos
    | fork hfresh => exact hfresh.1
  used q hq := by
    obtain ⟨p, hp, hcame⟩ := came_of_procStep h hq
    have hused := used_procStep h (ht.used p hp)
    cases hcame with
    | same | exec | exit | setpgid => exact hused
    | fork =>
      rw [procStep] at h
      split at h
      · cases h
      · obtain ⟨-, h⟩ := Option.ite_none_right_eq_some.mp h
        obtain rfl := Option.some.inj h
        exact List.mem_cons_self
  leader_used := used_procStep h ht.leader_used
  leader_stays q hq hpid := by
    obtain ⟨p, hp, hcame⟩ := came_of_procStep h hq
    have hstays := ht.leader_stays p hp
    cases hcame with
    | same | exec | exit => exact hstays hpid
    | fork hfresh =>
      dsimp only at hpid
      exact absurd (hpid ▸ ht.leader_used) hfresh.2
    | setpgid hleader => exact absurd hpid hleader

/-- A change that leaves everyone their pid and their group. -/
theorem ProcTable.Ok.map (ht : t.Ok leader) {f : Proc → Proc}
    (hf : ∀ p, (f p).pid = p.pid ∧ (f p).pgid = p.pgid) :
    ProcTable.Ok leader { t with procs := t.procs.map f } where
  nodup := by
    have hpids : (t.procs.map f).map Proc.pid = t.procs.map Proc.pid := by
      rw [List.map_map]
      exact List.map_congr_left fun p _ => (hf p).1
    exact hpids ▸ ht.nodup
  pos := List.forall_mem_map.mpr fun p hp => (hf p).1 ▸ ht.pos p hp
  used := List.forall_mem_map.mpr fun p hp => (hf p).1 ▸ ht.used p hp
  leader_used := ht.leader_used
  leader_stays := List.forall_mem_map.mpr fun p hp hpid =>
    (hf p).2.trans (ht.leader_stays p hp ((hf p).1.symm.trans hpid))

/-- A group that is gone does not come back. -/
theorem gone_procStep (hgone : ∀ q ∈ t.procs, q.pgid ≠ leader)
    (h : procStep leader t e = some t') : ∀ q ∈ t'.procs, q.pgid ≠ leader := by
  intro q hq
  obtain ⟨p, hp, hcame⟩ := came_of_procStep h hq
  have hbefore := hgone p hp
  cases hcame with
  | same | fork | exec | exit => exact hbefore
  | @setpgid _ pgid hleader hgroup =>
    rintro rfl
    rcases hgroup with heq | halive
    · exact hleader heq.symm
    · obtain ⟨other, hother, hsame⟩ := List.any_eq_true.mp halive
      exact hgone other hother (of_decide_eq_true hsame)

/-- As long as no process becomes one of the client's, those there are have been there. -/
theorem client_procStep (hquiet : e.Quiet leader t) (h : procStep leader t e = some t')
    (hq : q ∈ t'.procs) (hgroup : q.pgid = leader) (hclient : IsClient q.comm) :
    ∃ p ∈ t.procs, p.pid = q.pid ∧ p.pgid = leader ∧ p.comm = q.comm := by
  obtain ⟨p, hp, hcame⟩ := came_of_procStep h hq
  cases hcame with
  | same | exit => exact ⟨_, hp, rfl, hgroup, rfl⟩
  | @fork p => exact absurd hclient (hquiet p hp rfl hgroup)
  | exec => exact absurd hclient hquiet
  | setpgid => exact absurd hgroup hquiet

end Processes

/-! ### What the thread does -/

/-- What a step of the thread can do. -/
inductive Proceeds (pgid : Pid) (st : ShutdownState) : ShutdownState → Prop
  | start (hpc : st.pc = .start) :
    Proceeds pgid st { st with pc := .gather (st.table.groupPids pgid) [] }
  | found {p : Pid} {todo found : List Pid} (hpc : st.pc = .gather (p :: todo) found)
    (hcomm : st.table.procComm p = steam) :
    Proceeds pgid st { st with pc := .gather todo (found ++ [p]) }
  | passed {p : Pid} {todo found : List Pid} (hpc : st.pc = .gather (p :: todo) found)
    (hcomm : st.table.procComm p ≠ steam) : Proceeds pgid st { st with pc := .gather todo found }
  | noSteam (hpc : st.pc = .gather [] []) : Proceeds pgid st { st with pc := .sweep none }
  | steam {found : List Pid} (hpc : st.pc = .gather [] found) :
    Proceeds pgid st { st with pc := .signalSteam found }
  | signalSteam {p : Pid} {todo : List Pid} (hpc : st.pc = .signalSteam (p :: todo)) :
    Proceeds pgid st { st with pc := .signalSteam todo, signals := st.signals ++ [.term p] }
  | signalled (hpc : st.pc = .signalSteam []) : Proceeds pgid st { st with pc := .look 0 }
  | look {i : ℕ} (hpc : st.pc = .look i) (hi : i < 150) :
    Proceeds pgid st { st with pc := .read i (st.table.groupPids pgid) }
  | timeout {i : ℕ} (hpc : st.pc = .look i) (hi : ¬ i < 150) :
    Proceeds pgid st { st with pc := .sweep (some false) }
  | client {i : ℕ} {p : Pid} {todo : List Pid} (hpc : st.pc = .read i (p :: todo)) :
    Proceeds pgid st { st with pc := .look (i + 1), steamWait := st.steamWait + 1 }
  | other {i : ℕ} {p : Pid} {todo : List Pid} (hpc : st.pc = .read i (p :: todo))
    (hcomm : ¬ IsClient (st.table.procComm p)) : Proceeds pgid st { st with pc := .read i todo }
  | clean {i : ℕ} (hpc : st.pc = .read i []) : Proceeds pgid st { st with pc := .sweep (some true) }
  | sweep {clean : Option Bool} (hpc : st.pc = .sweep clean) :
    Proceeds pgid st { st with pc := .await 0, signals := st.signals ++ [.termGroup] }
  | alive {i : ℕ} (hpc : st.pc = .await i) (hi : i < 50) :
    Proceeds pgid st { st with pc := .await (i + 1), groupWait := st.groupWait + 1 }
  | ended {i : ℕ} (hpc : st.pc = .await i) (hgone : st.table.groupAlive pgid = false) :
    Proceeds pgid st { st with pc := .done true }
  | ignored {i : ℕ} (hpc : st.pc = .await i) (hi : ¬ i < 50) :
    Proceeds pgid st { st with pc := .kill }
  | kill (hpc : st.pc = .kill) : Proceeds pgid st { st with
      table.procs := st.table.procs.map fun q =>
        if q.pgid = pgid then { q with running := false } else q
      pc := .awaitKill 0
      signals := st.signals ++ [.killGroup] }
  | lingering {i : ℕ} (hpc : st.pc = .awaitKill i) (hi : i < 20) :
    Proceeds pgid st { st with pc := .awaitKill (i + 1), groupWait := st.groupWait + 1 }
  | killed {i : ℕ} (hpc : st.pc = .awaitKill i) (hgone : st.table.groupAlive pgid = false) :
    Proceeds pgid st { st with pc := .done true }
  | abandoned {i : ℕ} (hpc : st.pc = .awaitKill i) : Proceeds pgid st { st with pc := .done false }

section Thread

variable {pgid : Pid} {st st' : ShutdownState}

theorem proceeds_of_proceed (h : st.proceed pgid = some st') : Proceeds pgid st st' := by
  unfold ShutdownState.proceed at h
  split at h
  · obtain rfl := Option.some.inj h
    exact .start ‹_›
  · obtain rfl := Option.some.inj h
    split_ifs with hcomm
    · exact .found ‹_› hcomm
    · exact .passed ‹_› hcomm
  · rename_i found hpc
    obtain rfl := Option.some.inj h
    split_ifs with hfound
    · exact .noSteam (hfound ▸ hpc)
    · exact .steam hpc
  · obtain rfl := Option.some.inj h
    exact .signalSteam ‹_›
  · obtain rfl := Option.some.inj h
    exact .signalled ‹_›
  · obtain rfl := Option.some.inj h
    split_ifs with hi
    · exact .look ‹_› hi
    · exact .timeout ‹_› hi
  · split_ifs at h with hcomm
    · obtain rfl := Option.some.inj h
      exact .client ‹_›
    · obtain rfl := Option.some.inj h
      exact .other ‹_› hcomm
  · obtain rfl := Option.some.inj h
    exact .clean ‹_›
  · obtain rfl := Option.some.inj h
    exact .sweep ‹_›
  · split_ifs at h with hi halive
    · obtain rfl := Option.some.inj h
      exact .alive ‹_› hi
    · obtain rfl := Option.some.inj h
      exact .ended ‹_› (Bool.eq_false_iff.mpr halive)
    · obtain rfl := Option.some.inj h
      exact .ignored ‹_› hi
  · obtain rfl := Option.some.inj h
    exact .kill ‹_›
  · split_ifs at h with hi halive
    · obtain rfl := Option.some.inj h
      exact .lingering ‹_› hi
    · obtain rfl := Option.some.inj h
      exact .killed ‹_› (Bool.eq_false_iff.mpr halive)
    · obtain rfl := Option.some.inj h
      exact .abandoned ‹_›
  · cases h

/-! ### How long it takes -/

/-- How long the thread has waited for Steam, and how long for the group, when it gets there. -/
def ShutdownPc.Waited : ShutdownPc → ℕ → ℕ → Prop
  | .start | .gather .. | .signalSteam _ | .sweep none => fun m n => m = 0 ∧ n = 0
  | .look i => fun m n => m = i ∧ i ≤ 150 ∧ n = 0
  | .read i _ => fun m n => m = i ∧ i < 150 ∧ n = 0
  | .sweep (some true) => fun m n => m < 150 ∧ n = 0
  | .sweep (some false) => fun m n => m = 150 ∧ n = 0
  | .await i => fun m n => m ≤ 150 ∧ n = i ∧ i ≤ 50
  | .kill => fun m n => m ≤ 150 ∧ n = 50
  | .awaitKill i => fun m n => m ≤ 150 ∧ n = 50 + i ∧ i ≤ 20
  | .done _ => fun m n => m ≤ 150 ∧ n ≤ 70

/-- What it has sent after the signals to Steam. -/
def ShutdownPc.tails : ShutdownPc → List (List Signal)
  | .await _ | .kill => [[.termGroup]]
  | .awaitKill _ => [[.termGroup, .killGroup]]
  | .done _ => [[.termGroup], [.termGroup, .killGroup]]
  | _ => [[]]

/-- The thread is on time, and has sent its signals in order. -/
structure ShutdownState.Orderly (st : ShutdownState) : Prop where
  waited : st.pc.Waited st.steamWait st.groupWait
  signals : ∃ pids : List Pid, ∃ tail ∈ st.pc.tails, st.signals = pids.map Signal.term ++ tail
  killed : .killGroup ∈ st.signals → 50 ≤ st.groupWait

theorem orderly_proceed (hst : st.Orderly) (h : st.proceed pgid = some st') : st'.Orderly := by
  obtain ⟨hwaited, ⟨pids, tail, htail, hsignals⟩, hkilled⟩ := hst
  -- a step that sends nothing
  have hquiet : ∀ {pc : ShutdownPc} {m n : ℕ}, pc.Waited m n → tail ∈ pc.tails →
      st.groupWait ≤ n → ShutdownState.Orderly { st with pc, steamWait := m, groupWait := n } :=
    fun hwaited htail hle =>
      ⟨hwaited, ⟨pids, tail, htail, hsignals⟩, fun hmem => (hkilled hmem).trans hle⟩
  cases proceeds_of_proceed h with
  | start hpc | found hpc | passed hpc | noSteam hpc | steam hpc | signalled hpc =>
    rw [hpc] at hwaited htail
    refine hquiet ?_ htail le_rfl
    simpa [ShutdownPc.Waited] using hwaited
  | @signalSteam p todo hpc =>
    rw [hpc] at hwaited htail
    obtain rfl := List.mem_singleton.mp htail
    refine ⟨hwaited, ⟨pids ++ [p], [], htail, ?_⟩, fun hmem => hkilled ?_⟩
    · rw [hsignals, List.append_nil, List.append_nil, List.map_append]
      rfl
    · simpa using hmem
  | look hpc hi | timeout hpc hi | client hpc | other hpc | clean hpc | alive hpc hi
  | lingering hpc hi | ignored hpc hi =>
    rw [hpc] at hwaited htail
    refine hquiet ?_ htail (by omega)
    simp only [ShutdownPc.Waited] at hwaited ⊢
    omega
  | sweep hpc =>
    rename_i clean
    rw [hpc] at hwaited htail
    have hle : st.steamWait ≤ 150 ∧ st.groupWait = 0 := by
      rcases clean with - | - | - <;> simp only [ShutdownPc.Waited] at hwaited <;> omega
    obtain rfl := List.mem_singleton.mp htail
    refine ⟨⟨hle.1, hle.2, Nat.zero_le _⟩, ⟨pids, _, List.mem_singleton_self _, ?_⟩,
      fun hmem => hkilled ?_⟩
    · rw [hsignals, List.append_nil]
    · simpa using hmem
  | ended hpc | killed hpc | abandoned hpc =>
    rw [hpc] at hwaited htail
    refine hquiet ?_ ?_ le_rfl
    · simp only [ShutdownPc.Waited] at hwaited ⊢
      omega
    · simp only [ShutdownPc.tails, List.mem_singleton] at htail ⊢
      simp [htail]
  | kill hpc =>
    rw [hpc] at hwaited htail
    obtain rfl := List.mem_singleton.mp htail
    refine ⟨?_, ⟨pids, _, List.mem_singleton_self _, ?_⟩, fun _ => hwaited.2.ge⟩
    · simp only [ShutdownPc.Waited] at hwaited ⊢
      omega
    · rw [hsignals, List.append_assoc]
      rfl

/-! ### What the thread has seen -/

/-- The processes of the client that are in the group are still to be looked at; once the client
has exited cleanly there are none. -/
def ShutdownState.Looked (pgid : Pid) (st : ShutdownState) : Prop :=
  match st.pc with
  | .read _ todo => ∀ q ∈ st.table.procs, q.pgid = pgid → IsClient q.comm → q.pid ∈ todo
  | .sweep (some true) => ∀ q ∈ st.table.procs, q.pgid = pgid → ¬ IsClient q.comm
  | _ => True

/-- What has become of a Steam that is in the group: it is still to be looked at, it has been found,
or it has been asked to terminate. -/
def ShutdownState.Accounted (st : ShutdownState) (pid : Pid) : Prop :=
  match st.pc with
  | .gather todo found => pid ∈ todo ∨ pid ∈ found
  | .signalSteam todo => pid ∈ todo ∨ .term pid ∈ st.signals
  | .look _ | .read .. => .term pid ∈ st.signals
  | .sweep none => False
  | _ => True

/-- No Steam that is in the group has been overlooked. -/
def ShutdownState.Asked (pgid : Pid) (st : ShutdownState) : Prop :=
  ∀ q ∈ st.table.procs, q.pgid = pgid → q.comm = steam → st.Accounted q.pid

/-- The table is in order, and a group that was found to be gone is gone. -/
structure ShutdownState.Sound (pgid : Pid) (st : ShutdownState) : Prop where
  ok : st.table.Ok pgid
  gone : st.pc = .done true → ∀ q ∈ st.table.procs, q.pgid ≠ pgid

theorem gone_of_groupAlive {t : ProcTable} (h : t.groupAlive pgid = false) :
    ∀ q ∈ t.procs, q.pgid ≠ pgid := fun q hq hsame =>
  List.any_eq_false.mp h q hq (decide_eq_true hsame)

/-- What is read of a process there is. -/
theorem procComm_of_mem {t : ProcTable} {q : Proc} (h : (t.procs.map Proc.pid).Nodup)
    (hq : q ∈ t.procs) : t.procComm q.pid = q.comm := by
  have hfind : t.procs.find? (fun p => p.pid = q.pid) = some q := by
    obtain ⟨p, hp⟩ : ∃ p, t.procs.find? (fun p => p.pid = q.pid) = some p :=
      Option.isSome_iff_exists.mp (List.find?_isSome.mpr ⟨q, hq, by simp⟩)
    have hpid : p.pid = q.pid :=
      of_decide_eq_true (List.find?_some (p := fun p : Proc => decide (p.pid = q.pid)) hp)
    rw [hp, List.inj_on_of_nodup_map h (List.mem_of_find?_eq_some hp) hq hpid]
  rw [ProcTable.procComm, hfind]

theorem sound_proceed (hst : st.Sound pgid) (h : st.proceed pgid = some st') :
    st'.Sound pgid := by
  obtain ⟨hok, -⟩ := hst
  cases proceeds_of_proceed h with
  | ended _ hgone | killed _ hgone => exact ⟨hok, fun _ => gone_of_groupAlive hgone⟩
  | kill => exact ⟨hok.map fun p => by split_ifs <;> exact ⟨rfl, rfl⟩, nofun⟩
  | start | found | passed | noSteam | steam | signalSteam | signalled | look | timeout | client
  | other | clean | sweep | alive | ignored | lingering | abandoned => exact ⟨hok, nofun⟩

/-- The group is listed whole. -/
theorem mem_groupPids {t : ProcTable} {q : Proc} (ht : t.Ok pgid) (hq : q ∈ t.procs)
    (hgroup : q.pgid = pgid) : q.pid ∈ t.groupPids pgid :=
  List.mem_map_of_mem (List.mem_filter.mpr ⟨hq, decide_eq_true ⟨ht.pos q hq, hgroup⟩⟩)

theorem looked_proceed (hst : st.Sound pgid) (hlooked : st.Looked pgid)
    (h : st.proceed pgid = some st') : st'.Looked pgid := by
  cases proceeds_of_proceed h with
  | look hpc hi =>
    exact fun q hq hgroup _ => mem_groupPids hst.ok hq hgroup
  | @other i p todo hpc hcomm =>
    intro q hq hgroup hclient
    rw [ShutdownState.Looked, hpc] at hlooked
    rcases List.mem_cons.mp (hlooked q hq hgroup hclient) with rfl | hmem
    · rw [procComm_of_mem hst.ok.nodup hq] at hcomm
      exact absurd hclient hcomm
    · exact hmem
  | clean hpc =>
    intro q hq hgroup hclient
    rw [ShutdownState.Looked, hpc] at hlooked
    exact List.not_mem_nil (hlooked q hq hgroup hclient)
  | start | found | passed | noSteam | steam | signalSteam | signalled | timeout | client | sweep
  | alive | ended | ignored | kill | lingering | killed | abandoned => trivial

theorem asked_proceed (hst : st.Sound pgid) (hasked : st.Asked pgid)
    (h : st.proceed pgid = some st') : st'.Asked pgid := by
  cases proceeds_of_proceed h with
  | start hpc => exact fun q hq hgroup _ => .inl (mem_groupPids hst.ok hq hgroup)
  | @found p todo found hpc hcomm =>
    intro q hq hgroup hsteam
    have haccounted := hasked q hq hgroup hsteam
    rw [ShutdownState.Accounted, hpc] at haccounted
    rcases haccounted with hmem | hmem
    · rcases List.mem_cons.mp hmem with rfl | hmem
      · exact .inr (List.mem_append_right _ (List.mem_singleton_self _))
      · exact .inl hmem
    · exact .inr (List.mem_append_left _ hmem)
  | @passed p todo found hpc hcomm =>
    intro q hq hgroup hsteam
    have haccounted := hasked q hq hgroup hsteam
    rw [ShutdownState.Accounted, hpc] at haccounted
    refine haccounted.imp_left fun hmem => ?_
    rcases List.mem_cons.mp hmem with rfl | hmem
    · rw [procComm_of_mem hst.ok.nodup hq] at hcomm
      exact absurd hsteam hcomm
    · exact hmem
  | noSteam hpc =>
    intro q hq hgroup hsteam
    have haccounted := hasked q hq hgroup hsteam
    rw [ShutdownState.Accounted, hpc] at haccounted
    exact haccounted.elim List.not_mem_nil List.not_mem_nil
  | steam hpc =>
    intro q hq hgroup hsteam
    have haccounted := hasked q hq hgroup hsteam
    rw [ShutdownState.Accounted, hpc] at haccounted
    exact .inl (haccounted.resolve_left List.not_mem_nil)
  | signalled hpc =>
    intro q hq hgroup hsteam
    have haccounted := hasked q hq hgroup hsteam
    rw [ShutdownState.Accounted, hpc] at haccounted
    exact haccounted.resolve_left List.not_mem_nil
  | @signalSteam p todo hpc =>
    intro q hq hgroup hsteam
    have haccounted := hasked q hq hgroup hsteam
    rw [ShutdownState.Accounted, hpc] at haccounted
    rcases haccounted with hmem | hmem
    · rcases List.mem_cons.mp hmem with rfl | hmem
      · exact .inr (List.mem_append_right _ (List.mem_singleton_self _))
      · exact .inl hmem
    · exact .inr (List.mem_append_left _ hmem)
  | look hpc | client hpc | other hpc =>
    intro q hq hgroup hsteam
    have haccounted := hasked q hq hgroup hsteam
    rw [ShutdownState.Accounted, hpc] at haccounted
    exact haccounted
  | timeout | clean | sweep | alive | ended | ignored | kill | lingering | killed | abandoned =>
    exact fun _ _ _ _ => trivial

/-! ### Runs -/

/-- No process becomes one of the client's in the group. -/
def ShutdownEvent.Quiet (pgid : Pid) (st : ShutdownState) : ShutdownEvent → Prop
  | .proceed => True
  | .proc event => event.Quiet pgid st.table

variable {table : ProcTable} {events : List ShutdownEvent}

/-- A step is one of the thread or one of the processes. -/
private theorem step_cases {e : ShutdownEvent} (h : shutdownStep pgid st e = some st') :
    (e = .proceed ∧ st.proceed pgid = some st') ∨
      ∃ event t, e = .proc event ∧ procStep pgid st.table event = some t ∧
        st' = { st with table := t } := by
  cases e with
  | proceed => exact .inl ⟨rfl, h⟩
  | proc event =>
    obtain ⟨t, ht, rfl⟩ := Option.map_eq_some_iff.mp h
    exact .inr ⟨event, t, rfl, ht, rfl⟩

theorem orderly_isInvariant :
    (shutdownSystem pgid table).IsInvariant ShutdownState.Orderly where
  init := ⟨⟨rfl, rfl⟩, ⟨[], [], List.mem_singleton_self _, rfl⟩, nofun⟩
  step hst h := by
    rcases step_cases h with ⟨-, h⟩ | ⟨event, t, -, -, rfl⟩
    · exact orderly_proceed hst h
    · exact ⟨hst.waited, hst.signals, hst.killed⟩

theorem sound_isInvariant (hok : table.Ok pgid) :
    (shutdownSystem pgid table).IsInvariant (ShutdownState.Sound pgid) where
  init := ⟨hok, nofun⟩
  step hst h := by
    rcases step_cases h with ⟨-, h⟩ | ⟨event, t, -, ht, rfl⟩
    · exact sound_proceed hst h
    · exact ⟨ok_procStep hst.ok ht, fun hpc => gone_procStep (hst.gone hpc) ht⟩

theorem looked_isInvariantUnder (hok : table.Ok pgid) :
    (shutdownSystem pgid table).IsInvariantUnder (fun st e => e.Quiet pgid st)
      fun st => st.Sound pgid ∧ st.Looked pgid ∧ st.Asked pgid where
  init := ⟨(sound_isInvariant hok).init, trivial, fun _ _ _ _ => trivial⟩
  step := by
    rintro st st' e ⟨hst, hlooked, hasked⟩ hquiet h
    refine ⟨(sound_isInvariant hok).step hst h, ?_⟩
    rcases step_cases h with ⟨-, h⟩ | ⟨event, t, rfl, ht, rfl⟩
    · exact ⟨looked_proceed hst hlooked h, asked_proceed hst hasked h⟩
    · refine ⟨?_, fun q hq hgroup hsteam => ?_⟩
      · rw [ShutdownState.Looked] at hlooked ⊢
        dsimp only
        split
        · rename_i i todo hpc
          rw [hpc] at hlooked
          intro q hq hgroup hclient
          obtain ⟨p, hp, hpid, hpgid, hcomm⟩ := client_procStep hquiet ht hq hgroup hclient
          exact hpid ▸ hlooked p hp hpgid (hcomm ▸ hclient)
        · rename_i hpc
          rw [hpc] at hlooked
          intro q hq hgroup hclient
          obtain ⟨p, hp, hpid, hpgid, hcomm⟩ := client_procStep hquiet ht hq hgroup hclient
          exact hlooked p hp hpgid (hcomm ▸ hclient)
        · trivial
      · obtain ⟨p, hp, hpid, hpgid, hcomm⟩ := client_procStep hquiet ht hq hgroup (.inl hsteam)
        exact hpid ▸ hasked p hp hpgid (hcomm.trans hsteam)

/-! ### Who has been asked to terminate -/

/-- In a state of the run the pid was that of a process in the group. -/
def Listed (pgid : Pid) (table : ProcTable) (events : List ShutdownEvent) (pid : Pid) : Prop :=
  ∃ before after st, events = before ++ after ∧
    (shutdownSystem pgid table).run (shutdownSystem pgid table).init before = some st ∧
    0 < pid ∧ ∃ q ∈ st.table.procs, q.pid = pid ∧ q.pgid = pgid

/-- In a state after such a one it was that of a process named `steam`. -/
def WasSteam (pgid : Pid) (table : ProcTable) (events : List ShutdownEvent) (pid : Pid) : Prop :=
  ∃ before after st, events = before ++ after ∧ Listed pgid table before pid ∧
    (shutdownSystem pgid table).run (shutdownSystem pgid table).init before = some st ∧
    ∃ q ∈ st.table.procs, q.pid = pid ∧ q.comm = steam

section Asked

variable {pid : Pid} {e : ShutdownEvent}

theorem Listed.concat (h : Listed pgid table events pid) :
    Listed pgid table (events ++ [e]) pid := by
  obtain ⟨before, after, st, rfl, h⟩ := h
  exact ⟨before, after ++ [e], st, List.append_assoc .., h⟩

theorem WasSteam.concat (h : WasSteam pgid table events pid) :
    WasSteam pgid table (events ++ [e]) pid := by
  obtain ⟨before, after, st, rfl, h⟩ := h
  exact ⟨before, after ++ [e], st, List.append_assoc .., h⟩

/-- Whoever the thread is going to look at has been listed, and whoever it has found or asked to
terminate was Steam. -/
structure Known (pgid : Pid) (table : ProcTable) (events : List ShutdownEvent)
    (st : ShutdownState) : Prop where
  todo : ∀ todo found, st.pc = .gather todo found → ∀ pid ∈ todo, Listed pgid table events pid
  found : ∀ todo found, st.pc = .gather todo found → ∀ pid ∈ found, WasSteam pgid table events pid
  signal : ∀ todo, st.pc = .signalSteam todo → ∀ pid ∈ todo, WasSteam pgid table events pid
  signalled : ∀ pid, .term pid ∈ st.signals → WasSteam pgid table events pid

theorem Known.concat (h : Known pgid table events st) :
    Known pgid table (events ++ [e]) st where
  todo todo found hpc pid hpid := (h.todo todo found hpc pid hpid).concat
  found todo found hpc pid hpid := (h.found todo found hpc pid hpid).concat
  signal todo hpc pid hpid := (h.signal todo hpc pid hpid).concat
  signalled pid hpid := (h.signalled pid hpid).concat

theorem listed_of_mem_groupPids
    (hrun : (shutdownSystem pgid table).run (shutdownSystem pgid table).init events = some st)
    (hpid : pid ∈ st.table.groupPids pgid) : Listed pgid table events pid := by
  obtain ⟨q, hq, rfl⟩ := List.mem_map.mp hpid
  obtain ⟨hq, hgroup⟩ := List.mem_filter.mp hq
  obtain ⟨hpos, hgroup⟩ := of_decide_eq_true hgroup
  exact ⟨events, [], st, (List.append_nil _).symm, hrun, hpos, q, hq, rfl, hgroup⟩

/-- Only a process has a name. -/
theorem exists_of_procComm {t : ProcTable} (h : t.procComm pid = steam) :
    ∃ q ∈ t.procs, q.pid = pid ∧ q.comm = steam := by
  rw [ProcTable.procComm] at h
  split at h
  · exact absurd h.symm (by decide)
  · rename_i q hq
    exact ⟨q, List.mem_of_find?_eq_some hq, of_decide_eq_true
      (List.find?_some (p := fun q : Proc => decide (q.pid = pid)) hq), h⟩

theorem known_proceed
    (hrun : (shutdownSystem pgid table).run (shutdownSystem pgid table).init events = some st)
    (hst : Known pgid table events st) (h : st.proceed pgid = some st') :
    Known pgid table events st' := by
  cases proceeds_of_proceed h with
  | start hpc =>
    refine ⟨fun todo found heq pid hpid => ?_, fun todo found heq pid hpid => ?_, nofun,
      hst.signalled⟩
    · obtain ⟨rfl, -⟩ := ShutdownPc.gather.inj heq
      exact listed_of_mem_groupPids hrun hpid
    · obtain ⟨-, rfl⟩ := ShutdownPc.gather.inj heq
      exact absurd hpid List.not_mem_nil
  | @found p rest found hpc hcomm =>
    refine ⟨fun todo found' heq pid hpid => ?_, fun todo found' heq pid hpid => ?_, nofun,
      hst.signalled⟩
    · obtain ⟨rfl, -⟩ := ShutdownPc.gather.inj heq
      exact hst.todo _ _ hpc pid (List.mem_cons_of_mem p hpid)
    · obtain ⟨-, rfl⟩ := ShutdownPc.gather.inj heq
      rcases List.mem_append.mp hpid with hpid | hpid
      · exact hst.found _ _ hpc pid hpid
      · obtain rfl := List.mem_singleton.mp hpid
        exact ⟨events, [], st, (List.append_nil _).symm,
          hst.todo _ _ hpc pid List.mem_cons_self, hrun, exists_of_procComm hcomm⟩
  | @passed p rest found hpc hcomm =>
    refine ⟨fun todo found' heq pid hpid => ?_, fun todo found' heq pid hpid => ?_, nofun,
      hst.signalled⟩
    · obtain ⟨rfl, -⟩ := ShutdownPc.gather.inj heq
      exact hst.todo _ _ hpc pid (List.mem_cons_of_mem p hpid)
    · obtain ⟨-, rfl⟩ := ShutdownPc.gather.inj heq
      exact hst.found _ _ hpc pid hpid
  | steam hpc =>
    refine ⟨nofun, nofun, fun todo heq pid hpid => ?_, hst.signalled⟩
    obtain rfl := ShutdownPc.signalSteam.inj heq
    exact hst.found _ _ hpc pid hpid
  | @signalSteam p rest hpc =>
    refine ⟨nofun, nofun, fun todo heq pid hpid => ?_, fun pid hpid => ?_⟩
    · obtain rfl := ShutdownPc.signalSteam.inj heq
      exact hst.signal _ hpc pid (List.mem_cons_of_mem p hpid)
    · rcases List.mem_append.mp hpid with hpid | hpid
      · exact hst.signalled pid hpid
      · obtain rfl := Signal.term.inj (List.mem_singleton.mp hpid)
        exact hst.signal _ hpc pid List.mem_cons_self
  | sweep | kill =>
    refine ⟨nofun, nofun, nofun, fun pid hpid => hst.signalled pid ?_⟩
    simpa using hpid
  | noSteam | signalled | look | timeout | client | other | clean | alive | ended | ignored
  | lingering | killed | abandoned => exact ⟨nofun, nofun, nofun, hst.signalled⟩

theorem known_run
    (hrun : (shutdownSystem pgid table).run (shutdownSystem pgid table).init events = some st) :
    Known pgid table events st := by
  induction events using List.reverseRecOn generalizing st with
  | nil =>
    obtain rfl := Option.some.inj hrun
    exact ⟨nofun, nofun, nofun, nofun⟩
  | append_singleton events e ih =>
    obtain ⟨t, hinit, hlast⟩ := System.run_concat_eq_some.mp hrun
    rcases step_cases hlast with ⟨-, h⟩ | ⟨event, table', -, -, rfl⟩
    · exact (known_proceed hinit (ih hinit) h).concat
    · obtain ⟨htodo, hfound, hsignal, hsignalled⟩ := (ih hinit).concat (e := e)
      exact ⟨htodo, hfound, hsignal, hsignalled⟩

end Asked

end Thread

/-- The shell that has been launched, and Steam, which it has started. -/
def shellAndSteam : ProcTable where
  procs := [⟨10, 10, ascii "startup-app.sh", true⟩, ⟨11, 10, steam, true⟩]
  used := [10, 11]

/-- Steam is found once more, ends, and is not found again. -/
def steamExits : List ShutdownEvent :=
  List.replicate 9 .proceed ++ [.proc (.exit 11), .proc (.reap 11)] ++ List.replicate 3 .proceed

end SteamStream.Media
