import Mathlib.Data.List.Basic
import Mathlib.Order.Lattice

/-!
# What arrives of what was sent

A receiver looks for each thing it expects among those that have arrived, by something only that
thing has: a number in a header. `find?_of_unique` says that it finds it if it is there, and
`kept` is the answer. Losses are counted with `countP_isNone_map_kept`.
-/

namespace Slots

variable {α β γ : Type*}

/-- A thing that was sent, as far as the receiver is concerned. -/
def kept [BEq α] [LawfulBEq α] (arrived : List α) (x : α) : Option α :=
  if x ∈ arrived then some x else none

section Kept

variable [BEq α] [LawfulBEq α] {arrived : List α} {x y : α}

theorem kept_of_mem (h : x ∈ arrived) : kept arrived x = some x := if_pos h

theorem kept_eq_some : kept arrived x = some y ↔ x ∈ arrived ∧ x = y := by
  rw [kept]
  split_ifs with h
  · rw [Option.some.injEq, and_iff_right h]
  · exact iff_of_false nofun fun hxy => h hxy.1

theorem isSome_kept : (kept arrived x).isSome = decide (x ∈ arrived) := by
  by_cases h : x ∈ arrived <;> simp [kept, h]

theorem isNone_kept : (kept arrived x).isNone = decide (x ∉ arrived) := by
  rw [← Option.not_isSome, isSome_kept, decide_not]

/-- A search that only one thing can answer finds it if it is there. -/
theorem find?_of_unique {p : α → Bool} (hx : p x = true)
    (honly : ∀ y ∈ arrived, p y = true → y = x) : arrived.find? p = kept arrived x := by
  rw [kept]
  split_ifs with hmem
  · obtain ⟨y, hy⟩ := Option.isSome_iff_exists.mp (List.find?_isSome.mpr ⟨x, hmem, hx⟩)
    rw [hy, honly y (List.mem_of_find?_eq_some hy) (List.find?_some hy)]
  · exact List.find?_eq_none.mpr fun y hy hpy => hmem (honly y hy hpy ▸ hy)

/-- The losses are the things that have not arrived. -/
theorem countP_isNone_map_kept (f : β → α) (g : α → γ) (sent : List β) :
    (sent.map fun s => (kept arrived (f s)).map g).countP Option.isNone =
      (sent.filter fun s => f s ∉ arrived).length := by
  rw [List.countP_map, List.countP_eq_length_filter]
  refine congrArg List.length (List.filter_congr fun s _ => ?_)
  rw [Function.comp_apply, Option.isNone_map, isNone_kept]

end Kept

/-- The largest of some numbers is the one that bounds them. -/
theorem foldr_max_eq {ns : List ℕ} {w : ℕ} (hle : ∀ n ∈ ns, n ≤ w) (hmem : w ∈ ns) :
    ns.foldr max 0 = w := by
  refine le_antisymm ?_ ?_
  · clear hmem
    induction ns with
    | nil => exact Nat.zero_le w
    | cons n ns ih =>
      rw [List.foldr_cons]
      exact max_le (hle n List.mem_cons_self) (ih fun m hm => hle m (List.mem_cons_of_mem _ hm))
  · clear hle
    induction ns with
    | nil => cases hmem
    | cons n ns ih =>
      rw [List.foldr_cons]
      rcases List.mem_cons.mp hmem with rfl | hmem
      · exact le_max_left _ _
      · exact (ih hmem).trans (le_max_right _ _)

end Slots
