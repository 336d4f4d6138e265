import SteamStream.Library.History
import SteamStream.Library.Runs
import Mathlib.Algebra.Order.Group.Int
import Mathlib.Algebra.Order.Group.Unbundled.Abs

/-!
# The pointer of gamescope

`PointerSync` polls the cursor of every Xwayland of gamescope and moves the pointer of the parent
compositor after it. A motion it injects comes back to it as a motion of the cursor, and so does
what the client does with its mouse; neither must be injected again.

The thread keeps the last position it has read and the last it has injected for each connection,
and the time of the client's last motion. What it does is explained by the history alone
(`explains_log`): a reading is injected exactly if it differs from the reading of the same
connection before it, is not the origin, comes more than 250 milliseconds after every motion of the
client, and is two pixels or more away from what that connection has injected last.
-/

namespace SteamStream.Input

open Runs History

/-- What an X server answers to `is_gamescope`. -/
structure XServer where
  /-- The atom has a name there. -/
  internsAtom : Bool
  /-- The root window has the property. -/
  hasProperty : Bool
  deriving DecidableEq, Repr

def isGamescope (server : XServer) : Bool := server.internsAtom && server.hasProperty

/-- A connection, with the number it has among all that have been opened. -/
structure Conn where
  c : ℕ
  server : XServer
  primed : Bool := false
  lastX : ℤ := 0
  lastY : ℤ := 0
  injected : Bool := false
  injX : ℤ := 0
  injY : ℤ := 0
  deriving DecidableEq, Repr

/-- Two pixels or more away. -/
def far (x y x' y' : ℤ) : Bool := 2 ≤ |x - x'| || 2 ≤ |y - y'|

def Conn.setLast (cn : Conn) (x y : ℤ) : Conn := { cn with lastX := x, lastY := y }

def Conn.setInjected (cn : Conn) (x y : ℤ) : Conn :=
  { cn with injected := true, injX := x, injY := y }

/-- What is done with a position that has been read: whether it is injected. -/
def Conn.read (cn : Conn) (clientQuiet : Bool) (x y : ℤ) : Conn × Bool :=
  if !cn.primed then ({ cn.setLast x y with primed := true }, false)
  else if x ≠ cn.lastX ∨ y ≠ cn.lastY then
    -- the origin is what is reported while there is no pointer focus
    if x = 0 ∧ y = 0 then (cn.setLast x y, false)
    else if clientQuiet && (!cn.injected || far x y cn.injX cn.injY) then
      ((cn.setLast x y).setInjected x y, true)
    else (cn.setLast x y, false)
  else (cn, false)

/-- The thread of a `PointerSync`. -/
structure PointerSync where
  /-- By the number of the display. -/
  conns : Fin 5 → Option Conn := fun _ => none
  nextDiscovery : ℤ := 0
  lastClientMs : ℤ := 0
  /-- The latest time that has been read; the clock is steady. -/
  clock : ℤ := 0
  /-- The connections that are still to be polled in this round. -/
  remaining : List (Fin 5) := []
  nextConn : ℕ := 0

/-- What the X server answers to a poll. -/
inductive Answer
  | broken
  | noReply
  | pointer (x y : ℤ)
  deriving DecidableEq, Repr

inductive PointerEvent
  /-- `note_client_mouse`, from another thread. -/
  | clientMouse (now : ℤ)
  /-- The beginning of a round, with the servers that can be connected to. The time is read twice. -/
  | round (now later : ℤ) (servers : Fin 5 → Option XServer)
  /-- The next connection is polled. -/
  | poll (now : ℤ) (answer : Answer)

/-- What the thread has seen and done. -/
inductive PointerEntry
  | client (now : ℤ)
  | reading (c : ℕ) (server : XServer) (now : ℤ) (x y : ℤ) (injected : Bool)
  deriving DecidableEq, Repr

namespace PointerSync

def setConn (s : PointerSync) (n : Fin 5) (cn : Option Conn) : PointerSync :=
  { s with conns := Function.update s.conns n cn }

/-- Connect to a display, if that has not been done. -/
def connect (servers : Fin 5 → Option XServer) (s : PointerSync) (n : Fin 5) : PointerSync :=
  match s.conns n, servers n with
  | none, some server =>
    if isGamescope server then
      { s with
        conns := Function.update s.conns n (some { c := s.nextConn, server := server })
        nextConn := s.nextConn + 1 }
    else s
  | _, _ => s

def discover (servers : Fin 5 → Option XServer) (s : PointerSync) : PointerSync :=
  (List.finRange 5).foldl (connect servers) s

/-- Poll the next connection. -/
def pollNext (s : PointerSync) (now : ℤ) (answer : Answer) :
    Option (PointerSync × List PointerEntry) :=
  match s.remaining with
  | [] => none
  | n :: rest =>
    match s.conns n with
    | none => none
    | some cn =>
      if s.clock ≤ now then
        let s := { s with clock := now, remaining := rest }
        match answer with
        | .broken => some (s.setConn n none, [])
        | .noReply => some (s, [])
        | .pointer x y =>
          let (cn', injected) := cn.read (250 < now - s.lastClientMs) x y
          some (s.setConn n (some cn'), [.reading cn.c cn.server now x y injected])
      else none

/-- A step of the thread, or a motion of the client, and what has been seen and done. -/
def act (s : PointerSync) : PointerEvent → Option (PointerSync × List PointerEntry)
  | .clientMouse now =>
    if s.clock ≤ now then some ({ s with clock := now, lastClientMs := now }, [.client now])
    else none
  | .round now later servers =>
    if s.remaining = [] ∧ s.clock ≤ now ∧ now ≤ later then
      let s := { s with clock := later }
      let s :=
        if s.nextDiscovery ≤ now then
          discover servers { s with nextDiscovery := later + 2000 }
        else s
      some ({ s with remaining := (List.finRange 5).filter fun n => (s.conns n).isSome }, [])
    else none
  | .poll now answer => s.pollNext now answer

end PointerSync

/-- The thread and the client, in any order. -/
def pointerSystem : System PointerSync PointerEvent where
  init := {}
  step s event := (s.act event).map Prod.fst

/-- What has been seen and done in a run. -/
def pointerLog (events : List PointerEvent) : List PointerEntry :=
  pointerSystem.outputs (fun s event => ((s.act event).map Prod.snd).getD []) {} events

/-! ### What the history says -/

def PointerEntry.position? (c : ℕ) : PointerEntry → Option (ℤ × ℤ)
  | .client _ => none
  | .reading c' _ _ x y _ => if c' = c then some (x, y) else none

def PointerEntry.injection? (c : ℕ) : PointerEntry → Option (ℤ × ℤ)
  | .client _ => none
  | .reading c' _ _ x y injected => if c' = c ∧ injected = true then some (x, y) else none

/-- No motion of the client within the last 250 milliseconds, the start of the clock included. -/
def Quiet (log : List PointerEntry) (now : ℤ) : Prop :=
  250 < now ∧ ∀ u, .client u ∈ log → 250 < now - u

/-- A reading is to be injected. -/
structure Due (log : List PointerEntry) (c : ℕ) (now : ℤ) (p : ℤ × ℤ) : Prop where
  moved : ∃ q, last (PointerEntry.position? c) log = some q ∧ q ≠ p
  focused : p ≠ (0, 0)
  quiet : Quiet log now
  far : ∀ q, last (PointerEntry.injection? c) log = some q → far p.1 p.2 q.1 q.2 = true

/-- An entry is as it has to be after those before it. -/
def PointerEntry.Explained (log : List PointerEntry) : PointerEntry → Prop
  | .client _ => True
  | .reading c server now x y injected =>
    isGamescope server = true ∧ (injected = true ↔ Due log c now (x, y))

def Conn.position? (cn : Conn) : Option (ℤ × ℤ) :=
  if cn.primed then some (cn.lastX, cn.lastY) else none

def Conn.injection? (cn : Conn) : Option (ℤ × ℤ) :=
  if cn.injected then some (cn.injX, cn.injY) else none

/-- The connection has what the history says of it. -/
structure Conn.Recorded (log : List PointerEntry) (cn : Conn) : Prop where
  server : isGamescope cn.server = true
  position : last (PointerEntry.position? cn.c) log = cn.position?
  injection : last (PointerEntry.injection? cn.c) log = cn.injection?

/-- The state of the thread is what the history says. -/
structure PointerSync.Tracks (log : List PointerEntry) (s : PointerSync) : Prop where
  explains : Explains PointerEntry.Explained log
  quiet : ∀ now, 250 < now - s.lastClientMs ↔ Quiet log now
  clock : s.lastClientMs ≤ s.clock
  recorded : ∀ n cn, s.conns n = some cn → cn.Recorded log ∧ cn.c < s.nextConn
  distinct : ∀ n m cn cm, s.conns n = some cn → s.conns m = some cm → cn.c = cm.c → n = m
  fresh : ∀ c server now x y injected, .reading c server now x y injected ∈ log → c < s.nextConn

section Connections

variable {log : List PointerEntry} {cn : Conn} {c : ℕ} {server : XServer} {now x y : ℤ}
  {injected clientQuiet : Bool}

theorem Conn.Recorded.concat_of_ne (h : cn.Recorded log) {e : PointerEntry}
    (hposition : e.position? cn.c = none) (hinjection : e.injection? cn.c = none) :
    cn.Recorded (log ++ [e]) :=
  ⟨h.server, (last_concat_of_none hposition).trans h.position,
    (last_concat_of_none hinjection).trans h.injection⟩

/-- Another connection's reading says nothing of this one. -/
theorem Conn.Recorded.concat_other (h : cn.Recorded log) (hc : c ≠ cn.c) :
    cn.Recorded (log ++ [.reading c server now x y injected]) :=
  h.concat_of_ne (if_neg hc) (if_neg fun h' => hc h'.1)

/-- `read` injects what is due. -/
theorem Conn.Recorded.read_snd (h : cn.Recorded log)
    (hquiet : clientQuiet = true ↔ Quiet log now) :
    (cn.read clientQuiet x y).2 = true ↔ Due log cn.c now (x, y) := by
  have hfar : (!cn.injected || far x y cn.injX cn.injY) = true ↔
      ∀ q, last (PointerEntry.injection? cn.c) log = some q → far x y q.1 q.2 = true := by
    rw [h.injection, Conn.injection?]
    cases cn.injected <;> simp
  have hposition := h.position
  rw [Conn.position?] at hposition
  unfold Conn.read
  split_ifs with hprimed hmoved horigin hdue
  · refine iff_of_false not_false fun hd => ?_
    obtain ⟨q, hq, -⟩ := hd.moved
    rw [hposition, if_neg (by simpa using hprimed)] at hq
    cases hq
  · exact iff_of_false not_false fun hd => hd.focused (Prod.ext horigin.1 horigin.2)
  · obtain ⟨hclient, hdistance⟩ := Bool.and_eq_true_iff.mp hdue
    refine iff_of_true rfl ⟨⟨(cn.lastX, cn.lastY), ?_, fun heq => ?_⟩, fun heq => ?_,
      hquiet.mp hclient, hfar.mp hdistance⟩
    · rw [hposition, if_pos (by simpa using hprimed)]
    · obtain ⟨hx, hy⟩ := Prod.mk.inj heq
      exact hmoved.elim (fun hne => hne hx.symm) (fun hne => hne hy.symm)
    · exact horigin (Prod.mk.inj heq)
  · exact iff_of_false not_false fun hd =>
      hdue (Bool.and_eq_true_iff.mpr ⟨hquiet.mpr hd.quiet, hfar.mpr hd.far⟩)
  · refine iff_of_false not_false fun hd => hmoved ?_
    obtain ⟨q, hq, hne⟩ := hd.moved
    rw [hposition, if_pos (by simpa using hprimed)] at hq
    obtain rfl := Option.some.inj hq
    by_contra hsame
    obtain ⟨hx, hy⟩ := not_or.mp hsame
    exact hne (Prod.ext (not_not.mp hx).symm (not_not.mp hy).symm)

theorem Conn.read_c : (cn.read clientQuiet x y).1.c = cn.c := by
  fun_cases Conn.read cn clientQuiet x y <;> rfl

theorem Conn.read_server : (cn.read clientQuiet x y).1.server = cn.server := by
  fun_cases Conn.read cn clientQuiet x y <;> rfl

/-- The position is recorded whether it is injected or not. -/
theorem Conn.position?_read : (cn.read clientQuiet x y).1.position? = some (x, y) := by
  fun_cases Conn.read cn clientQuiet x y with
  | case1 hprimed => exact if_pos rfl
  | case2 hprimed hmoved => exact if_pos (show cn.primed = true by simpa using hprimed)
  | case3 hprimed hmoved => exact if_pos (show cn.primed = true by simpa using hprimed)
  | case4 hprimed hmoved => exact if_pos (show cn.primed = true by simpa using hprimed)
  | case5 hprimed hmoved =>
    obtain ⟨hx, hy⟩ := not_or.mp hmoved
    rw [Conn.position?, if_pos (by simpa using hprimed), not_not.mp hx, not_not.mp hy]

theorem Conn.injection?_read : (cn.read clientQuiet x y).1.injection? =
    if (cn.read clientQuiet x y).2 then some (x, y) else cn.injection? := by
  fun_cases Conn.read cn clientQuiet x y <;> rfl

/-- `read` keeps the record. -/
theorem Conn.Recorded.read_fst (h : cn.Recorded log) :
    (cn.read clientQuiet x y).1.Recorded
      (log ++ [.reading cn.c cn.server now x y (cn.read clientQuiet x y).2]) := by
  refine ⟨by rw [Conn.read_server, h.server], ?_, ?_⟩
  · rw [Conn.read_c, Conn.position?_read]
    exact last_concat_of_some (if_pos rfl)
  · rw [Conn.read_c, Conn.injection?_read, last_concat, h.injection]
    cases (cn.read clientQuiet x y).2 <;> simp [PointerEntry.injection?]

end Connections

/-! ### The thread and its history -/

namespace PointerSync

section Steps

variable {log : List PointerEntry} {s s' : PointerSync} {os : List PointerEntry}
  {event : PointerEvent} {now : ℤ} {n : Fin 5} {cn : Conn} {servers : Fin 5 → Option XServer}

theorem update_eq_some {conns : Fin 5 → Option Conn} {m : Fin 5} {o : Option Conn} {cm : Conn}
    (h : Function.update conns n o m = some cm) :
    (m = n ∧ o = some cm) ∨ (m ≠ n ∧ conns m = some cm) := by
  rw [Function.update_apply] at h
  split_ifs at h with hmn
  · exact .inl ⟨hmn, h⟩
  · exact .inr ⟨hmn, h⟩

theorem tracks_init : Tracks [] {} where
  explains := explains_nil
  quiet now := by
    rw [sub_zero]
    exact ⟨fun h => ⟨h, fun _ hu => absurd hu List.not_mem_nil⟩, fun h => h.1⟩
  clock := le_rfl
  recorded _ _ h := by cases h
  distinct _ _ _ _ h := by cases h
  fresh _ _ _ _ _ _ h := absurd h List.not_mem_nil

/-- What is not recorded does not matter. -/
theorem Tracks.congr (h : Tracks log s) (hconns : s'.conns = s.conns)
    (hclient : s'.lastClientMs = s.lastClientMs) (hnext : s'.nextConn = s.nextConn)
    (hclock : s.clock ≤ s'.clock) : Tracks log s' where
  explains := h.explains
  quiet := hclient ▸ h.quiet
  clock := hclient ▸ h.clock.trans hclock
  recorded := by
    rw [hconns, hnext]
    exact h.recorded
  distinct := hconns ▸ h.distinct
  fresh := hnext ▸ h.fresh

/-- A connection is closed. -/
theorem Tracks.close (h : Tracks log s) : Tracks log (s.setConn n none) where
  explains := h.explains
  quiet := h.quiet
  clock := h.clock
  recorded m cm hm := by
    obtain ⟨-, hnone⟩ | ⟨-, hm⟩ := update_eq_some hm
    · cases hnone
    · exact h.recorded m cm hm
  distinct m k cm ck hm hk := by
    obtain ⟨-, hnone⟩ | ⟨-, hm⟩ := update_eq_some hm
    · cases hnone
    · obtain ⟨-, hnone⟩ | ⟨-, hk⟩ := update_eq_some hk
      · cases hnone
      · exact h.distinct m k cm ck hm hk
  fresh := h.fresh

/-- Nothing is recorded of the number a new connection gets. -/
theorem Tracks.not_mem_next (h : Tracks log s) {e : PointerEntry} (he : e ∈ log) :
    e.position? s.nextConn = none ∧ e.injection? s.nextConn = none := by
  cases e with
  | client now => exact ⟨rfl, rfl⟩
  | reading c server now x y injected =>
    have hc : c ≠ s.nextConn := (h.fresh c server now x y injected he).ne
    exact ⟨if_neg hc, if_neg fun h' => hc h'.1⟩

theorem Tracks.connect (h : Tracks log s) : Tracks log (connect servers s n) := by
  fun_cases PointerSync.connect servers s n with
  | case1 server hserver hnone hgamescope =>
    refine ⟨h.explains, h.quiet, h.clock, fun m cm hm => ?_, fun m k cm ck hm hk hc => ?_,
      fun c server now x y injected he => Nat.lt_succ_of_lt (h.fresh c server now x y injected he)⟩
    · obtain ⟨-, hnew⟩ | ⟨-, hm⟩ := update_eq_some hm
      · obtain rfl := Option.some.inj hnew
        exact ⟨⟨hgamescope, last_eq_none fun e he => (h.not_mem_next he).1,
          last_eq_none fun e he => (h.not_mem_next he).2⟩, Nat.lt_succ_self _⟩
      · obtain ⟨hrecorded, hlt⟩ := h.recorded m cm hm
        exact ⟨hrecorded, Nat.lt_succ_of_lt hlt⟩
    · obtain ⟨hmn, hnew⟩ | ⟨-, hm'⟩ := update_eq_some hm
      · obtain ⟨hkn, -⟩ | ⟨-, hk'⟩ := update_eq_some hk
        · exact hmn.trans hkn.symm
        · obtain rfl := Option.some.inj hnew
          exact absurd hc (h.recorded k ck hk').2.ne'
      · obtain ⟨-, hnew⟩ | ⟨-, hk'⟩ := update_eq_some hk
        · obtain rfl := Option.some.inj hnew
          exact absurd hc (h.recorded m cm hm').2.ne
        · exact h.distinct m k cm ck hm' hk' hc
  | case2 => exact h
  | case3 => exact h

theorem Tracks.discover (h : Tracks log s) : Tracks log (discover servers s) := by
  rw [PointerSync.discover]
  generalize List.finRange 5 = ns
  induction ns generalizing s with
  | nil => exact h
  | cons n ns ih => exact ih h.connect

/-- The client has moved its mouse. -/
theorem Tracks.client (h : Tracks log s) (hnow : s.clock ≤ now) :
    Tracks (log ++ [.client now]) { s with clock := now, lastClientMs := now } where
  explains := explains_concat.mpr ⟨h.explains, trivial⟩
  quiet t := by
    have hlog := h.quiet t
    have hclient := h.clock.trans hnow
    constructor
    · intro ht
      obtain ⟨hstart, hquiet⟩ := hlog.mp (ht.trans_le (sub_le_sub_left hclient t))
      refine ⟨hstart, fun u hu => ?_⟩
      rcases List.mem_append.mp hu with hu | hu
      · exact hquiet u hu
      · obtain rfl := PointerEntry.client.inj (List.mem_singleton.mp hu)
        exact ht
    · intro ht
      exact ht.2 now (List.mem_append_right _ (List.mem_singleton_self _))
  clock := le_rfl
  recorded m cm hm := ⟨(h.recorded m cm hm).1.concat_of_ne rfl rfl, (h.recorded m cm hm).2⟩
  distinct := h.distinct
  fresh c server now x y injected he := by
    rcases List.mem_append.mp he with he | he
    · exact h.fresh c server now x y injected he
    · cases List.mem_singleton.mp he

/-- A position has been read. -/
theorem Tracks.read (h : Tracks log s) (hcn : s.conns n = some cn) (x y : ℤ) :
    Tracks (log ++ [.reading cn.c cn.server now x y
        (cn.read (250 < now - s.lastClientMs) x y).2])
      (s.setConn n (some (cn.read (250 < now - s.lastClientMs) x y).1)) where
  explains := by
    refine explains_concat.mpr ⟨h.explains, (h.recorded n cn hcn).1.server, ?_⟩
    exact (h.recorded n cn hcn).1.read_snd (decide_eq_true_iff.trans (h.quiet now))
  quiet t := by
    refine (h.quiet t).trans (and_congr_right fun _ => forall_congr' fun u => ?_)
    rw [List.mem_append, List.mem_singleton, or_iff_left PointerEntry.noConfusion]
  clock := h.clock
  recorded m cm hm := by
    obtain ⟨-, hread⟩ | ⟨hmn, hm⟩ := update_eq_some hm
    · obtain rfl := Option.some.inj hread
      exact ⟨(h.recorded n cn hcn).1.read_fst, Conn.read_c.trans_lt (h.recorded n cn hcn).2⟩
    · have hc : cn.c ≠ cm.c := fun hc => hmn (h.distinct n m cn cm hcn hm hc).symm
      exact ⟨(h.recorded m cm hm).1.concat_other hc, (h.recorded m cm hm).2⟩
  distinct m k cm ck hm hk hc := by
    obtain ⟨hmn, hread⟩ | ⟨-, hm'⟩ := update_eq_some hm
    · obtain ⟨hkn, -⟩ | ⟨-, hk'⟩ := update_eq_some hk
      · exact hmn.trans hkn.symm
      · obtain rfl := Option.some.inj hread
        exact hmn.trans (h.distinct n k cn ck hcn hk' (Conn.read_c.symm.trans hc))
    · obtain ⟨hkn, hread⟩ | ⟨-, hk'⟩ := update_eq_some hk
      · obtain rfl := Option.some.inj hread
        exact (h.distinct m n cm cn hm' hcn (hc.trans Conn.read_c)).trans hkn.symm
      · exact h.distinct m k cm ck hm' hk' hc
  fresh c server t x' y' injected he := by
    rcases List.mem_append.mp he with he | he
    · exact h.fresh c server t x' y' injected he
    · obtain ⟨rfl, -⟩ := PointerEntry.reading.inj (List.mem_singleton.mp he)
      exact (h.recorded n cn hcn).2

/-- Every step keeps the state to what the history says. -/
theorem Tracks.act (h : Tracks log s) (hact : s.act event = some (s', os)) :
    Tracks (log ++ os) s' := by
  cases event with
  | clientMouse now =>
    obtain ⟨hnow, hpair⟩ := Option.ite_none_right_eq_some.mp hact
    obtain ⟨rfl, rfl⟩ := Prod.mk.inj (Option.some.inj hpair)
    exact h.client hnow
  | round now later servers =>
    obtain ⟨⟨-, hnow, hlater⟩, hpair⟩ := Option.ite_none_right_eq_some.mp hact
    obtain ⟨rfl, rfl⟩ := Prod.mk.inj (Option.some.inj hpair)
    rw [List.append_nil]
    have hs : ∀ next, Tracks log { s with clock := later, nextDiscovery := next } :=
      fun _ => h.congr rfl rfl rfl (hnow.trans hlater)
    dsimp only
    split_ifs
    · exact (hs (later + 2000)).discover.congr rfl rfl rfl le_rfl
    · exact (hs s.nextDiscovery).congr rfl rfl rfl le_rfl
  | poll now answer =>
    change s.pollNext now answer = _ at hact
    rw [pollNext] at hact
    cases hremaining : s.remaining with
    | nil =>
      rw [hremaining] at hact
      cases hact
    | cons n rest =>
      rw [hremaining] at hact
      dsimp only at hact
      cases hcn : s.conns n with
      | none =>
        rw [hcn] at hact
        cases hact
      | some cn =>
        rw [hcn] at hact
        obtain ⟨hnow, hpair⟩ := Option.ite_none_right_eq_some.mp hact
        have hs : Tracks log { s with clock := now, remaining := rest } :=
          h.congr rfl rfl rfl hnow
        cases answer with
        | broken =>
          obtain ⟨rfl, rfl⟩ := Prod.mk.inj (Option.some.inj hpair)
          rw [List.append_nil]
          exact hs.close
        | noReply =>
          obtain ⟨rfl, rfl⟩ := Prod.mk.inj (Option.some.inj hpair)
          rw [List.append_nil]
          exact hs
        | pointer x y =>
          obtain ⟨rfl, rfl⟩ := Prod.mk.inj (Option.some.inj hpair)
          exact hs.read hcn x y

end Steps

end PointerSync

section Log

variable {events : List PointerEvent} {log before after : List PointerEntry} {c : ℕ}
  {server : XServer} {now x y : ℤ}

theorem exists_tracks_log (events : List PointerEvent) :
    ∃ s, PointerSync.Tracks (pointerLog events) s := by
  refine System.outputs_induction (I := fun s log => PointerSync.Tracks log s)
    (fun {s event s' os} h hstep => ?_) (fun {s event} hstep => ?_) PointerSync.tracks_init
  · obtain ⟨⟨t, entries⟩, hact, rfl⟩ := Option.map_eq_some_iff.mp hstep
    rw [hact]
    exact h.act hact
  · rw [Option.map_eq_none_iff.mp hstep]
    rfl

/-- **What the thread injects is what is due.** -/
theorem explains_log (events : List PointerEvent) :
    Explains PointerEntry.Explained (pointerLog events) := by
  obtain ⟨s, hs⟩ := exists_tracks_log events
  exact hs.explains

/-- As long as nothing is far from the last injection, there is no other. -/
theorem injection?_eq_none
    (h : Explains PointerEntry.Explained (before ++ .reading c server now x y true :: after))
    (hnear : ∀ server now x' y' injected,
      .reading c server now x' y' injected ∈ after → far x' y' x y = false) :
    ∀ e ∈ after, e.injection? c = none := by
  induction after using List.reverseRecOn with
  | nil => exact fun e he => absurd he List.not_mem_nil
  | append_singleton after e ih =>
    rw [← List.cons_append, ← List.append_assoc] at h
    obtain ⟨hbefore, he⟩ := explains_concat.mp h
    have hquiet := ih hbefore fun server now x' y' injected hmem =>
      hnear server now x' y' injected (List.mem_append_left _ hmem)
    have hlast : last (PointerEntry.injection? c)
        (before ++ .reading c server now x y true :: after) = some (x, y) := by
      rw [← List.singleton_append, ← List.append_assoc, last_append_of_forall hquiet]
      exact last_concat_of_some (if_pos ⟨rfl, rfl⟩)
    rw [List.forall_mem_append, List.forall_mem_singleton]
    refine ⟨hquiet, ?_⟩
    cases e with
    | client u => rfl
    | reading c' server' now' x' y' injected =>
      refine if_neg ?_
      rintro ⟨rfl, hinjected⟩
      have hfar := (he.2.mp hinjected).far (x, y) hlast
      rw [hnear server' now' x' y' injected (List.mem_append_right _ (List.mem_singleton_self _))]
        at hfar
      cases hfar

/-- **The loop settles.** After an injection, as long as what is read on the connection stays within
two pixels of it, as the motion does that comes back, nothing more is injected there. -/
theorem not_injected_of_near (hlog : pointerLog events = before ++ .reading c server now x y true :: after)
    (hnear : ∀ server now x' y' injected,
      .reading c server now x' y' injected ∈ after → far x' y' x y = false) :
    ∀ server now x' y' injected, .reading c server now x' y' injected ∈ after →
      injected = false := by
  intro server' now' x' y' injected hmem
  have h := injection?_eq_none (hlog ▸ explains_log events) hnear _ hmem
  cases injected with
  | false => rfl
  | true =>
    rw [PointerEntry.injection?, if_pos ⟨rfl, rfl⟩] at h
    cases h

end Log

/-- A display of gamescope, whose cursor is moved by a chord, and comes back where it has been
injected. -/
def chordEvents : List PointerEvent :=
  let gamescope : Fin 5 → Option XServer := fun n => if n = 0 then some ⟨true, true⟩ else none
  [.round 1000 1000 gamescope, .poll 1000 (.pointer 5 5), .round 1016 1016 gamescope,
    .poll 1016 (.pointer 40 5), .round 1032 1032 gamescope, .poll 1032 (.pointer 41 5)]

theorem not_injected_chordEvents :
    pointerLog chordEvents =
      [.reading 0 ⟨true, true⟩ 1000 5 5 false, .reading 0 ⟨true, true⟩ 1016 40 5 true,
        .reading 0 ⟨true, true⟩ 1032 41 5 false] ∧
    ∀ server now x y injected,
      PointerEntry.reading 0 server now x y injected ∈
        [.reading 0 ⟨true, true⟩ 1032 41 5 false] → injected = false := by
  have hlog : pointerLog chordEvents =
      [.reading 0 ⟨true, true⟩ 1000 5 5 false, .reading 0 ⟨true, true⟩ 1016 40 5 true,
        .reading 0 ⟨true, true⟩ 1032 41 5 false] := by decide
  refine ⟨hlog, @not_injected_of_near chordEvents [.reading 0 ⟨true, true⟩ 1000 5 5 false] _ 0 ⟨true, true⟩
    1016 40 5 hlog ?_⟩
  intro server now x y injected hmem
  obtain ⟨-, -, -, rfl, rfl, -⟩ := PointerEntry.reading.inj (List.mem_singleton.mp hmem)
  decide

end SteamStream.Input
