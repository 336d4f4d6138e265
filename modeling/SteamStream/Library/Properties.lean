import Mathlib.Data.List.Flatten
import Mathlib.Data.List.Perm.Subperm
import Mathlib.Data.List.TakeWhile

/-!
# Lists of properties as text

A property is a key and a value with `eq` between them, and every property ends in `stop`. What was
printed without these two where they do not belong is read back (`parse_print`).
-/

namespace Properties

variable {α : Type*} {eq stop : α}

/-- The text of some properties. -/
def print (eq stop : α) (ps : List (List α × List α)) : List α :=
  ps.flatMap fun p => p.1 ++ eq :: (p.2 ++ [stop])

/-- A text is at least as long as two of its properties. -/
theorem add_le_length_print {ps : List (List α × List α)} {p q : List α × List α} (hp : p ∈ ps)
    (hq : q ∈ ps) (hne : p ≠ q) :
    p.1.length + p.2.length + q.1.length + q.2.length + 4 ≤ (print eq stop ps).length := by
  obtain ⟨l, hperm, hsub⟩ : [p, q].Subperm ps :=
    List.subperm_of_subset (by simp [hne]) (by simp [hp, hq])
  have htwo : (print eq stop [p, q]).length =
      p.1.length + p.2.length + q.1.length + q.2.length + 4 := by
    simp only [print, List.flatMap_cons, List.flatMap_nil, List.length_append, List.length_cons,
      List.length_nil]
    omega
  rw [← htwo]
  exact ((hperm.flatMap_right _).length_eq.symm).trans_le (hsub.flatMap _).length_le

variable [DecidableEq α]

/-- The pieces of a text that end in `stop`. -/
def records (stop : α) (s : List α) : List (List α) := (s.splitOn stop).dropLast

/-- What is in front of the first `eq`, and what follows it. -/
def cut (eq : α) (s : List α) : Option (List α × List α) :=
  match s.dropWhile (· ≠ eq) with
  | [] => none
  | _ :: value => some (s.takeWhile (· ≠ eq), value)

/-- The properties in a text; all of its pieces have to be some. -/
def parse (eq stop : α) (s : List α) : Option (List (List α × List α)) :=
  (records stop s).mapM (cut eq)

theorem records_flatMap {ls : List (List α)} (h : ∀ l ∈ ls, stop ∉ l) :
    records stop (ls.flatMap (· ++ [stop])) = ls := by
  have hlast : ls.flatMap (· ++ [stop]) = [stop].intercalate (ls ++ [[]]) := by
    induction ls with
    | nil => rfl
    | cons l ls ih =>
      obtain ⟨-, hls⟩ := List.forall_mem_cons.mp h
      have hne : ls ++ [[]] ≠ [] := List.append_ne_nil_of_right_ne_nil ls (List.cons_ne_nil [] [])
      rw [List.flatMap_cons, ih hls, List.cons_append, List.intercalate_cons_of_ne_nil hne,
        List.append_assoc]
  have hstop : ∀ l ∈ ls ++ [[]], stop ∉ l :=
    List.forall_mem_append.mpr ⟨h, List.forall_mem_singleton.mpr List.not_mem_nil⟩
  rw [records, hlast, List.splitOn_intercalate stop hstop (by simp), List.dropLast_concat]

theorem cut_append {k v : List α} (h : eq ∉ k) : cut eq (k ++ eq :: v) = some (k, v) := by
  have hk : ∀ c ∈ k, decide (c ≠ eq) = true :=
    fun c hc => decide_eq_true (ne_of_mem_of_not_mem hc h)
  rw [cut, List.dropWhile_append_of_pos hk, List.takeWhile_append_of_pos hk,
    List.dropWhile_cons_of_neg (by simp), List.takeWhile_cons_of_neg (by simp), List.append_nil]

/-- What was printed is read back. -/
theorem parse_print {ps : List (List α × List α)} (hkey : ∀ p ∈ ps, eq ∉ p.1)
    (hstop : ∀ p ∈ ps, stop ∉ p.1 ++ eq :: p.2) : parse eq stop (print eq stop ps) = some ps := by
  have hrecords : records stop (print eq stop ps) = ps.map fun p => p.1 ++ eq :: p.2 := by
    have hprint : print eq stop ps = (ps.map fun p => p.1 ++ eq :: p.2).flatMap (· ++ [stop]) := by
      rw [print, List.flatMap_map]
      exact List.flatMap_congr fun p _ => by rw [List.append_assoc]; rfl
    rw [hprint]
    exact records_flatMap (List.forall_mem_map.mpr hstop)
  rw [parse, hrecords]
  clear hstop hrecords
  induction ps with
  | nil => rfl
  | cons p ps ih =>
    obtain ⟨hp, hps⟩ := List.forall_mem_cons.mp hkey
    rw [List.map_cons, List.mapM_cons, cut_append hp, ih hps]
    rfl

end Properties
