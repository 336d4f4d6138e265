import Mathlib.Data.List.Basic
import Mathlib.Data.Nat.Notation

/-!
# Finding a text in a text

`find` is the first place from a given one on at which a pattern occurs, as `std::string::find`
computes it. What is found in a prefix of a text is what is found in the text, as far as it lies
in the prefix (`find_take`), so a reader that searches a growing buffer sees one answer come
into view.
-/

namespace Search

variable {α : Type*} {text pattern : List α} {pos i p : ℕ}

/-- The pattern stands in the text at the place. -/
def OccursAt (pattern text : List α) (i : ℕ) : Prop := pattern <+: text.drop i

instance [DecidableEq α] (pattern text : List α) (i : ℕ) : Decidable (OccursAt pattern text i) :=
  inferInstanceAs (Decidable (_ <+: _))

/-- The first occurrence from `pos` on. -/
def find [DecidableEq α] (text pattern : List α) (pos : ℕ) : Option ℕ :=
  (List.range (text.length + 1)).find? fun i => pos ≤ i ∧ OccursAt pattern text i

theorem OccursAt.le_length (h : OccursAt pattern text i) (hne : pattern ≠ []) :
    i + pattern.length ≤ text.length := by
  have hlength := h.length_le
  have hpos := List.length_pos_iff.mpr hne
  rw [List.length_drop] at hlength
  omega

/-- An occurrence in a prefix is one that ends in it. -/
theorem occursAt_take_iff (hne : pattern ≠ []) :
    OccursAt pattern (text.take p) i ↔ OccursAt pattern text i ∧ i + pattern.length ≤ p := by
  have hpos := List.length_pos_iff.mpr hne
  rw [OccursAt, List.drop_take, List.prefix_take_iff]
  refine and_congr_right fun _ => ?_
  omega

/-- An occurrence in the middle of three texts. -/
theorem occursAt_append {before after : List α} :
    OccursAt pattern (before ++ pattern ++ after) before.length := by
  rw [OccursAt, List.append_assoc, List.drop_left]
  exact List.prefix_append ..

/-- Where two occurrences overlap, the first character of the second one is one of the first. -/
theorem mem_of_occursAt {c : α} {rest : List α} {j : ℕ} (h : OccursAt pattern text i)
    (hj : OccursAt (c :: rest) text j) (hfrom : i ≤ j) (hto : j < i + pattern.length) :
    c ∈ pattern := by
  obtain ⟨after, hafter⟩ := h
  obtain ⟨k, rfl⟩ := Nat.exists_eq_add_of_le hfrom
  have hk : k < pattern.length := by omega
  have hdrop : text.drop (i + k) = pattern.drop k ++ after := by
    rw [← List.drop_drop, ← hafter, List.drop_append_of_le_length (Nat.le_of_lt hk)]
  rw [OccursAt, hdrop, List.drop_eq_getElem_cons hk, List.cons_append, List.cons_prefix_cons] at hj
  rw [hj.1]
  exact List.getElem_mem hk

variable [DecidableEq α]

theorem find_eq_some_iff (hne : pattern ≠ []) :
    find text pattern pos = some i ↔
      (pos ≤ i ∧ OccursAt pattern text i) ∧ ∀ j < i, pos ≤ j → ¬ OccursAt pattern text j := by
  rw [find, List.find?_range_eq_some]
  simp only [decide_eq_true_eq, List.mem_range, Bool.not_eq_true', decide_eq_false_iff_not,
    not_and]
  constructor
  · rintro ⟨hi, -, hfirst⟩
    exact ⟨hi, hfirst⟩
  · rintro ⟨hi, hfirst⟩
    have hlength := hi.2.le_length hne
    exact ⟨hi, by omega, hfirst⟩

theorem find_eq_none_iff (hne : pattern ≠ []) :
    find text pattern pos = none ↔ ∀ i, pos ≤ i → ¬ OccursAt pattern text i := by
  rw [find, List.find?_eq_none]
  simp only [decide_eq_true_eq, List.mem_range, not_and]
  constructor
  · intro h i hi hoccurs
    have hlength := hoccurs.le_length hne
    exact h i (by omega) hi hoccurs
  · exact fun h i _ => h i

/-- Where the pattern occurs, it is found. -/
theorem exists_find (hne : pattern ≠ []) (hpos : pos ≤ i) (h : OccursAt pattern text i) :
    ∃ j, find text pattern pos = some j := by
  rw [← Option.isSome_iff_exists, Option.isSome_iff_ne_none]
  exact fun hnone => (find_eq_none_iff hne).mp hnone i hpos h

/-- In a prefix the same is found, if it ends in the prefix, and nothing else. -/
theorem find_take (hne : pattern ≠ []) :
    find (text.take p) pattern pos =
      (find text pattern pos).filter fun i => i + pattern.length ≤ p := by
  cases hfind : find text pattern pos with
  | none =>
    rw [find_eq_none_iff hne] at hfind
    rw [Option.filter_none, find_eq_none_iff hne]
    exact fun i hi hoccurs => hfind i hi ((occursAt_take_iff hne).mp hoccurs).1
  | some i =>
    obtain ⟨hi, hfirst⟩ := (find_eq_some_iff hne).mp hfind
    rw [Option.filter_some]
    split_ifs with hp
    · rw [find_eq_some_iff hne]
      refine ⟨⟨hi.1, (occursAt_take_iff hne).mpr ⟨hi.2, of_decide_eq_true hp⟩⟩, ?_⟩
      exact fun j hj hpos hoccurs => hfirst j hj hpos ((occursAt_take_iff hne).mp hoccurs).1
    · rw [find_eq_none_iff hne]
      intro j hpos hoccurs
      obtain ⟨hoccurs, hend⟩ := (occursAt_take_iff hne).mp hoccurs
      have hle : i ≤ j := Nat.not_lt.mp fun hlt => hfirst j hlt hpos hoccurs
      rw [decide_eq_true_eq] at hp
      omega

end Search
