import Mathlib.Data.Option.Basic
import Mathlib.Logic.Function.Basic

/-!
# Tables that mirror their owners

Owners come and go, and each of them may have a row, a key with a value, in a table they share.
The table `Mirrors` the rows if it holds exactly them. An owner that writes or removes its row keeps
that (`Mirrors.set`, `Mirrors.clear`), as long as no other owner has a row under the same key.
-/

namespace Mirror

variable {ι κ ν : Type*} {table : κ → Option ν} {rows : ι → Option (κ × ν)} {i : ι} {k : κ}

/-- The table holds exactly the rows of the owners. -/
def Mirrors (table : κ → Option ν) (rows : ι → Option (κ × ν)) : Prop :=
  ∀ k v, table k = some v ↔ ∃ i, rows i = some (k, v)

/-- No other owner has a row under the key. -/
def Owns (rows : ι → Option (κ × ν)) (i : ι) (k : κ) : Prop :=
  ∀ j, j ≠ i → ∀ v, rows j ≠ some (k, v)

/-- What has not changed. -/
theorem Mirrors.of_eq {rows' : ι → Option (κ × ν)} (h : Mirrors table rows)
    (heq : ∀ j, rows' j = rows j) : Mirrors table rows' := by
  rwa [show rows' = rows from funext heq]

/-- An empty table for owners without rows. -/
theorem mirrors_none (h : ∀ i, rows i = none) : Mirrors (fun _ : κ => (none : Option ν)) rows := by
  refine fun k v => iff_of_false (Option.some_ne_none v).symm ?_
  rintro ⟨i, hrow⟩
  exact Option.some_ne_none _ (hrow.symm.trans (h i))

variable [DecidableEq κ]

/-- An owner writes its row, over the one it had under the key if it had one. -/
theorem Mirrors.set {rows' : ι → Option (κ × ν)} {v : ν} (h : Mirrors table rows)
    (howns : Owns rows i k) (hold : ∀ row, rows i = some row → row.1 = k)
    (hnew : rows' i = some (k, v)) (hother : ∀ j, j ≠ i → rows' j = rows j) :
    Mirrors (Function.update table k (some v)) rows' := by
  intro k' v'
  by_cases hk : k' = k
  · subst hk
    rw [Function.update_self, Option.some.injEq]
    constructor
    · rintro rfl
      exact ⟨i, hnew⟩
    · rintro ⟨j, hrow⟩
      by_cases hj : j = i
      · rw [hj, hnew, Option.some.injEq] at hrow
        exact congrArg Prod.snd hrow
      · exact absurd ((hother j hj).symm.trans hrow) (howns j hj v')
  · rw [Function.update_of_ne hk, h k' v']
    refine exists_congr fun j => ?_
    by_cases hj : j = i
    · rw [hj, hnew]
      refine iff_of_false (fun hrow => hk (hold _ hrow)) fun hrow => ?_
      exact hk (congrArg Prod.fst (Option.some.inj hrow)).symm
    · rw [hother j hj]

/-- An owner removes its row. -/
theorem Mirrors.clear {rows' : ι → Option (κ × ν)} (h : Mirrors table rows)
    (howns : Owns rows i k) (hold : ∀ row, rows i = some row → row.1 = k)
    (hnew : rows' i = none) (hother : ∀ j, j ≠ i → rows' j = rows j) :
    Mirrors (Function.update table k none) rows' := by
  intro k' v'
  by_cases hk : k' = k
  · subst hk
    rw [Function.update_self]
    refine iff_of_false (Option.some_ne_none v').symm ?_
    rintro ⟨j, hrow⟩
    by_cases hj : j = i
    · rw [hj, hnew] at hrow
      exact Option.some_ne_none _ hrow.symm
    · exact howns j hj v' ((hother j hj).symm.trans hrow)
  · rw [Function.update_of_ne hk, h k' v']
    refine exists_congr fun j => ?_
    by_cases hj : j = i
    · rw [hj, hnew]
      exact iff_of_false (fun hrow => hk (hold _ hrow)) (Option.some_ne_none _).symm
    · rw [hother j hj]

/-- An owner writes a row or removes it. -/
theorem Mirrors.write {rows' : ι → Option (κ × ν)} {v : Option ν} (h : Mirrors table rows)
    (howns : Owns rows i k) (hold : ∀ row, rows i = some row → row.1 = k)
    (hnew : rows' i = v.map (Prod.mk k)) (hother : ∀ j, j ≠ i → rows' j = rows j) :
    Mirrors (Function.update table k v) rows' := by
  cases v with
  | none => exact h.clear howns hold hnew hother
  | some v => exact h.set howns hold hnew hother

end Mirror
