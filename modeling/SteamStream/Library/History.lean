import Mathlib.Data.List.Basic
import Mathlib.Data.List.Induction

/-!
# Logs

What a system has done is a list of entries, the latest at the end. `last f` is what the latest
entry says that says anything to `f`; a state that keeps such a value keeps it by the one rule
`last_concat`. `Explains P` says of a log that each of its entries is as `P` has it, given the
entries before it: a specification of the system that speaks of the log alone.
-/

namespace History

variable {ε α : Type*} {f : ε → Option α} {log before after : List ε} {e : ε} {a : α}

/-- What the latest entry says that says anything. -/
def last (f : ε → Option α) (log : List ε) : Option α := (log.filterMap f).getLast?

@[simp]
theorem last_nil : last f [] = none := rfl

theorem last_concat : last f (log ++ [e]) = (f e).or (last f log) := by
  rw [last, List.filterMap_append, List.filterMap_cons, List.filterMap_nil]
  cases f e with
  | none => exact congrArg List.getLast? (List.append_nil _)
  | some a => exact List.getLast?_concat

theorem last_concat_of_some (h : f e = some a) : last f (log ++ [e]) = some a := by
  rw [last_concat, h, Option.some_or]

theorem last_concat_of_none (h : f e = none) : last f (log ++ [e]) = last f log := by
  rw [last_concat, h, Option.none_or]

theorem last_eq_none (h : ∀ e ∈ log, f e = none) : last f log = none := by
  rw [last, List.filterMap_eq_nil_iff.mpr h, List.getLast?_nil]

/-- Entries that say nothing do not change what is said. -/
theorem last_append_of_forall (h : ∀ e ∈ after, f e = none) :
    last f (before ++ after) = last f before := by
  rw [last, List.filterMap_append, List.filterMap_eq_nil_iff.mpr h, List.append_nil, last]

/-- Every entry of the log is as it has to be after those before it. -/
def Explains (P : List ε → ε → Prop) (log : List ε) : Prop :=
  ∀ before e after, log = before ++ e :: after → P before e

variable {P : List ε → ε → Prop}

theorem explains_nil : Explains P [] := fun _ _ _ h =>
  absurd h.symm (List.append_ne_nil_of_right_ne_nil _ (List.cons_ne_nil _ _))

theorem explains_concat : Explains P (log ++ [e]) ↔ Explains P log ∧ P log e := by
  constructor
  · intro h
    refine ⟨fun before e' after hsplit => h before e' (after ++ [e]) ?_, h log e [] rfl⟩
    rw [hsplit, List.append_assoc, List.cons_append]
  · rintro ⟨hlog, he⟩ before e' after hsplit
    rcases List.eq_nil_or_concat' after with rfl | ⟨after, e'', rfl⟩
    · obtain ⟨rfl, hlast⟩ := List.append_inj' hsplit rfl
      exact List.cons.inj hlast |>.1 ▸ he
    · rw [← List.cons_append, ← List.append_assoc] at hsplit
      exact hlog before e' after (List.append_inj' hsplit rfl).1

/-- A part of a log, after what is before it. -/
theorem Explains.append (h : Explains P (before ++ after)) : Explains P before :=
  fun b e a hsplit => h b e (a ++ after) (by rw [hsplit, List.append_assoc, List.cons_append])

end History
