import Mathlib.Data.List.Basic
import Mathlib.Data.List.TakeWhile

/-!
# Texts of lines

A text whose lines all end in the two characters `cr` and `lf`. `lines` takes it apart, and a text
that was put together from lines without `cr` comes apart into the same lines (`lines_unlines`).

A header is the lines up to the first empty one (`header`), its body those after (`body`).
-/

namespace Lines

variable {α : Type*} {cr lf : α}

/-- The text of some lines. -/
def unlines (cr lf : α) (ls : List (List α)) : List α := ls.flatMap (· ++ [cr, lf])

@[simp]
theorem unlines_nil : unlines cr lf [] = [] := rfl

theorem unlines_cons {l : List α} {ls : List (List α)} :
    unlines cr lf (l :: ls) = l ++ (cr :: lf :: unlines cr lf ls) := by
  rw [unlines, List.flatMap_cons, List.append_assoc]
  rfl

theorem unlines_append {ls ls' : List (List α)} :
    unlines cr lf (ls ++ ls') = unlines cr lf ls ++ unlines cr lf ls' := List.flatMap_append

/-- A character in front of the first line. -/
def push (c : α) : List (List α) → List (List α)
  | [] => [[c]]
  | l :: ls => (c :: l) :: ls

section Split

variable [DecidableEq α]

/-- The lines of a text; what follows the last line end is a line too, unless it is empty. -/
def lines (cr lf : α) : List α → List (List α)
  | [] => []
  | [c] => [[c]]
  | c :: d :: s => if c = cr ∧ d = lf then [] :: lines cr lf s else push c (lines cr lf (d :: s))

/-- A character that does not begin a line end belongs to the first line. -/
theorem lines_cons_of_ne {c d : α} {s : List α} (h : c ≠ cr) :
    lines cr lf (c :: d :: s) = push c (lines cr lf (d :: s)) := by
  rw [lines, if_neg fun hc => h hc.1]

/-- A line without `cr`, and what follows its end. -/
theorem lines_line {l s : List α} (h : cr ∉ l) :
    lines cr lf (l ++ (cr :: lf :: s)) = l :: lines cr lf s := by
  induction l with
  | nil => exact if_pos ⟨rfl, rfl⟩
  | cons c l ih =>
    obtain ⟨hc, hl⟩ := not_or.mp (List.mem_cons.not.mp h)
    obtain ⟨d, t, ht⟩ : ∃ d t, l ++ (cr :: lf :: s) = d :: t := by
      cases l with
      | nil => exact ⟨cr, lf :: s, rfl⟩
      | cons d l => exact ⟨d, l ++ (cr :: lf :: s), rfl⟩
    rw [List.cons_append, ht, lines_cons_of_ne (Ne.symm hc), ← ht, ih hl, push]

/-- What was put together from lines comes apart into them. -/
theorem lines_unlines {ls : List (List α)} (h : ∀ l ∈ ls, cr ∉ l) :
    lines cr lf (unlines cr lf ls) = ls := by
  induction ls with
  | nil => rfl
  | cons l ls ih =>
    obtain ⟨hl, hls⟩ := List.forall_mem_cons.mp h
    rw [unlines_cons, lines_line hl, ih hls]

end Split

/-! ### Header and body -/

/-- The lines up to the first empty one. -/
def header (ls : List (List α)) : List (List α) := ls.takeWhile fun l => !l.isEmpty

/-- The lines after it. -/
def body (ls : List (List α)) : List (List α) := (ls.dropWhile fun l => !l.isEmpty).tail

variable {front back : List (List α)}

private theorem nonempty_of_ne_nil (h : ∀ l ∈ front, l ≠ []) :
    ∀ l ∈ front, (!l.isEmpty) = true := fun l hl => by
  rw [Bool.not_eq_true', List.isEmpty_eq_false_iff]
  exact h l hl

theorem header_append (h : ∀ l ∈ front, l ≠ []) : header (front ++ [] :: back) = front := by
  rw [header, List.takeWhile_append_of_pos (nonempty_of_ne_nil h)]
  exact List.append_nil front

theorem body_append (h : ∀ l ∈ front, l ≠ []) : body (front ++ [] :: back) = back := by
  rw [body, List.dropWhile_append_of_pos (nonempty_of_ne_nil h)]
  rfl

end Lines
