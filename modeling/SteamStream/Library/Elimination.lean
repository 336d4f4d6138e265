import Mathlib.Algebra.BigOperators.Ring.Finset
import Mathlib.Algebra.Field.Basic

/-!
# Elimination without choice of pivots

Gaussian elimination that takes the diagonal entries as pivots in their order: each step divides
the row of the pivot by it and clears the column below (`pivot`), and when the matrix is upper
triangular the columns above are cleared on the right-hand side alone (`back`). Both are sequences
of operations on single rows (`scaleRow`, `clearRow`, `backRow`).

Every row operation keeps what solves the system, and that is all the correctness there is to it:
where no pivot is zero (`Regular`), the right-hand side ends as the solution (`backward_forward`).
-/

namespace Elimination

/-- A system of linear equations; its size is a parameter of what is done with it. -/
structure LinSys (F : Type*) where
  mat : ℕ → ℕ → F
  rhs : ℕ → F

namespace LinSys

variable {F : Type*} [Field F]

/-- The first `n` unknowns solve the first `n` equations. -/
def Solves (S : LinSys F) (n : ℕ) (y : ℕ → F) : Prop :=
  ∀ i < n, ∑ j ∈ Finset.range n, S.mat i j * y j = S.rhs i

/-- Multiply a row. -/
def scaleRow (S : LinSys F) (x : ℕ) (u : F) : LinSys F where
  mat i j := if i = x then u * S.mat i j else S.mat i j
  rhs i := if i = x then u * S.rhs i else S.rhs i

/-- Take a multiple of row `x` from row `r`, so that column `x` of it is cleared if the pivot of row
`x` is one. -/
def clearRow (x : ℕ) (S : LinSys F) (r : ℕ) : LinSys F where
  mat i j := if i = r then S.mat i j - S.mat r x * S.mat x j else S.mat i j
  rhs i := if i = r then S.rhs i - S.mat r x * S.rhs x else S.rhs i

/-- Make the pivot of row `x` one and the entries below it zero. -/
def pivot (n : ℕ) (S : LinSys F) (x : ℕ) : LinSys F :=
  (List.range' (x + 1) (n - (x + 1))).foldl (clearRow x) (S.scaleRow x (S.mat x x)⁻¹)

/-- Eliminate the first columns. -/
def forward (n : ℕ) (S : LinSys F) (x : ℕ) : LinSys F := (List.range x).foldl (pivot n) S

/-- Take the unknown `x`, which has been found, out of row `r`; the matrix is not needed again. -/
def backRow (x : ℕ) (S : LinSys F) (r : ℕ) : LinSys F where
  mat := S.mat
  rhs i := if i = r then S.rhs i - S.mat r x * S.rhs x else S.rhs i

/-- Take the unknown `x` out of the rows above it. -/
def back (S : LinSys F) (x : ℕ) : LinSys F := (List.range x).foldl (backRow x) S

/-- Substitute the first unknowns, the last of them first. -/
def backward (S : LinSys F) (x : ℕ) : LinSys F := (List.range x).reverse.foldl back S

/-- No pivot is zero. -/
def Regular (n : ℕ) (S : LinSys F) : Prop := ∀ x < n, (S.forward n x).mat x x ≠ 0

instance [DecidableEq F] {n : ℕ} {S : LinSys F} : Decidable (Regular n S) :=
  inferInstanceAs (Decidable (∀ x < n, (S.forward n x).mat x x ≠ 0))

/-- The first columns are those of an upper triangular matrix with ones on the diagonal. -/
structure Eliminated (n : ℕ) (S : LinSys F) (x : ℕ) : Prop where
  diag : ∀ c < x, S.mat c c = 1
  below : ∀ c < x, ∀ r < n, c < r → S.mat r c = 0

variable {S : LinSys F} {n x r : ℕ} {u : F} {y : ℕ → F}

/-! ### What solves the system -/

theorem Solves.scaleRow (h : S.Solves n y) : (S.scaleRow x u).Solves n y := by
  intro i hi
  simp only [LinSys.scaleRow]
  split_ifs
  · rw [← h i hi, Finset.mul_sum]
    exact Finset.sum_congr rfl fun j _ => mul_assoc ..
  · exact h i hi

theorem Solves.clearRow (h : S.Solves n y) (hx : x < n) : (S.clearRow x r).Solves n y := by
  intro i hi
  simp only [LinSys.clearRow]
  split_ifs
  · calc ∑ j ∈ Finset.range n, (S.mat i j - S.mat r x * S.mat x j) * y j
        = ∑ j ∈ Finset.range n, S.mat i j * y j -
            S.mat r x * ∑ j ∈ Finset.range n, S.mat x j * y j := by
          rw [Finset.mul_sum, ← Finset.sum_sub_distrib]
          exact Finset.sum_congr rfl fun j _ => by rw [sub_mul, mul_assoc]
      _ = S.rhs i - S.mat r x * S.rhs x := by rw [h i hi, h x hx]
  · exact h i hi

theorem Solves.pivot (h : S.Solves n y) (hx : x < n) : (S.pivot n x).Solves n y :=
  List.foldlRecOn (motive := fun T : LinSys F => T.Solves n y) _ _ h.scaleRow
    fun _ hT _ _ => hT.clearRow hx

theorem Solves.forward (h : S.Solves n y) (hx : x ≤ n) : (S.forward n x).Solves n y :=
  List.foldlRecOn (motive := fun T : LinSys F => T.Solves n y) _ _ h
    fun _ hT _ hr => hT.pivot ((List.mem_range.mp hr).trans_le hx)

/-! ### What the rounds do -/

omit [Field F] in
/-- If each step changes one row, by what it and the row `x` hold, then each of the rows is changed
once and independently of the others. -/
theorem foldl_row {α : Type*} (row : LinSys F → ℕ → α) (f : LinSys F → ℕ → LinSys F)
    (g : α → α → α) (hf : ∀ S r i, row (f S r) i = if i = r then g (row S i) (row S x) else row S i)
    {rows : List ℕ} (hnodup : rows.Nodup) (hx : x ∉ rows) (i : ℕ) :
    row (rows.foldl f S) i = if i ∈ rows then g (row S i) (row S x) else row S i := by
  induction rows generalizing S with
  | nil => exact (if_neg List.not_mem_nil).symm
  | cons r rows ih =>
    obtain ⟨hr, hnodup⟩ := List.nodup_cons.mp hnodup
    obtain ⟨hxr, hx⟩ := List.ne_and_not_mem_of_not_mem_cons hx
    rw [List.foldl_cons, ih hnodup hx, hf, hf, if_neg hxr]
    by_cases hir : i = r
    · simp [hir, hr]
    · simp [hir]

theorem mat_foldl_clearRow {rows : List ℕ} (hnodup : rows.Nodup) (hx : x ∉ rows) (i j : ℕ) :
    (rows.foldl (clearRow x) S).mat i j =
      if i ∈ rows then S.mat i j - S.mat i x * S.mat x j else S.mat i j := by
  have hstep : ∀ (S : LinSys F) (r i : ℕ), (S.clearRow x r).mat i =
      if i = r then fun j => S.mat i j - S.mat i x * S.mat x j else S.mat i := by
    intro S r i
    funext j
    simp only [LinSys.clearRow]
    split_ifs with hir
    · rw [hir]
    · rfl
  rw [foldl_row mat (clearRow x) (fun a b j => a j - a x * b j) hstep hnodup hx]
  split_ifs <;> rfl

theorem mat_pivot (i j : ℕ) :
    (S.pivot n x).mat i j =
      if i = x then (S.mat x x)⁻¹ * S.mat x j
      else if x < i ∧ i < n then S.mat i j - S.mat i x * ((S.mat x x)⁻¹ * S.mat x j)
      else S.mat i j := by
  have hrows : ∀ k, k ∈ List.range' (x + 1) (n - (x + 1)) ↔ x < k ∧ k < n := by
    intro k
    rw [List.mem_range'_1]
    omega
  rw [LinSys.pivot, mat_foldl_clearRow List.nodup_range' fun h => lt_irrefl x ((hrows x).mp h).1]
  simp only [hrows]
  by_cases hix : i = x
  · simp [LinSys.scaleRow, hix]
  · simp [LinSys.scaleRow, hix]

theorem Eliminated.pivot (h : S.Eliminated n x) (hx : S.mat x x ≠ 0) :
    (S.pivot n x).Eliminated n (x + 1) where
  diag c hc := by
    rw [mat_pivot]
    rcases Nat.lt_succ_iff_lt_or_eq.mp hc with hlt | rfl
    · rw [if_neg hlt.ne, if_neg fun hcx => hlt.not_gt hcx.1]
      exact h.diag c hlt
    · rw [if_pos rfl]
      exact inv_mul_cancel₀ hx
  below c hc r hr hcr := by
    rw [mat_pivot]
    rcases Nat.lt_succ_iff_lt_or_eq.mp hc with hlt | rfl
    · split_ifs with hrx hxr
      · rw [h.below c hlt x (hrx ▸ hr) hlt, mul_zero]
      · rw [h.below c hlt r hr hcr, h.below c hlt x (hxr.1.trans hr) hlt, mul_zero, mul_zero,
          sub_zero]
      · exact h.below c hlt r hr hcr
    · rw [if_neg hcr.ne', if_pos ⟨hcr, hr⟩, inv_mul_cancel₀ hx, mul_one, sub_self]

theorem forward_succ : S.forward n (x + 1) = (S.forward n x).pivot n x := by
  rw [forward, List.range_succ, List.foldl_append]
  rfl

theorem Regular.eliminated (h : Regular n S) (hx : x ≤ n) : (S.forward n x).Eliminated n x := by
  induction x with
  | zero =>
    exact ⟨fun c hc => absurd hc (Nat.not_lt_zero c), fun c hc => absurd hc (Nat.not_lt_zero c)⟩
  | succ x ih =>
    rw [forward_succ]
    exact (ih (Nat.le_of_succ_le hx)).pivot (h x hx)

/-- The pivots depend on the matrix alone. -/
theorem mat_forward_congr {T : LinSys F} (h : S.mat = T.mat) :
    (S.forward n x).mat = (T.forward n x).mat := by
  induction x with
  | zero => exact h
  | succ x ih =>
    funext i j
    rw [forward_succ, forward_succ, mat_pivot, mat_pivot, ih]

theorem Regular.congr {T : LinSys F} (h : S.mat = T.mat) (hS : Regular n S) : Regular n T := by
  intro x hx
  rw [← mat_forward_congr h]
  exact hS x hx

/-! ### Back -/

theorem mat_back : (S.back x).mat = S.mat :=
  List.foldlRecOn (motive := fun T : LinSys F => T.mat = S.mat) _ _ rfl fun _ hT _ _ => hT

theorem rhs_foldl_backRow {rows : List ℕ} (hnodup : rows.Nodup) (hx : x ∉ rows) (i : ℕ) :
    (rows.foldl (backRow x) S).rhs i =
      if i ∈ rows then S.rhs i - S.mat i x * S.rhs x else S.rhs i := by
  -- a row with its right-hand side
  have hstep : ∀ (S : LinSys F) (r i : ℕ), ((S.backRow x r).mat i, (S.backRow x r).rhs i) =
      if i = r then (S.mat i, S.rhs i - S.mat i x * S.rhs x) else (S.mat i, S.rhs i) := by
    intro S r i
    simp only [LinSys.backRow]
    split_ifs with hir
    · rw [hir]
    · rfl
  have hrow := foldl_row (fun S i => (S.mat i, S.rhs i)) (backRow x)
    (fun a b => (a.1, a.2 - a.1 x * b.2)) hstep hnodup hx i (S := S)
  refine (congrArg Prod.snd hrow).trans ?_
  split_ifs <;> rfl

theorem rhs_back (i : ℕ) :
    (S.back x).rhs i = if i < x then S.rhs i - S.mat i x * S.rhs x else S.rhs i := by
  rw [back, rhs_foldl_backRow List.nodup_range List.not_mem_range_self]
  simp only [List.mem_range]

theorem backward_succ : S.backward (x + 1) = (S.back x).backward x := by
  rw [backward, List.range_succ, List.reverse_append]
  rfl

/-- In a triangular system whose last unknowns are already on the right-hand side, substituting them
puts the other ones there. -/
theorem Eliminated.backward (h : S.Eliminated n n) (hx : x ≤ n)
    (hdone : ∀ i < n, x ≤ i → S.rhs i = y i)
    (hrest : ∀ i < x, ∑ j ∈ Finset.range x, S.mat i j * y j = S.rhs i) :
    ∀ i < n, (S.backward x).rhs i = y i := by
  induction x generalizing S with
  | zero => exact fun i hi => hdone i hi (Nat.zero_le i)
  | succ x ih =>
    -- in row `x` only the unknown `x` is left
    have hrow : S.rhs x = y x := by
      rw [← hrest x (Nat.lt_succ_self x), Finset.sum_range_succ, h.diag x hx, one_mul]
      refine add_eq_right.mpr (Finset.sum_eq_zero fun j hj => ?_)
      have hjx := Finset.mem_range.mp hj
      rw [h.below j (hjx.trans hx) x hx hjx, zero_mul]
    have hback : (S.back x).Eliminated n n := by
      constructor <;> rw [mat_back]
      · exact h.diag
      · exact h.below
    rw [backward_succ]
    refine ih hback (Nat.le_of_succ_le hx) ?_ ?_
    · intro i hi hxi
      rw [rhs_back, if_neg (not_lt.mpr hxi)]
      rcases hxi.eq_or_lt with rfl | hlt
      · exact hrow
      · exact hdone i hi hlt
    · intro i hi
      rw [rhs_back, if_pos hi, mat_back, ← hrest i (hi.trans (Nat.lt_succ_self x)),
        Finset.sum_range_succ, hrow, add_sub_cancel_right]

/-- **Elimination solves the system** where no pivot is zero. -/
theorem backward_forward (h : S.Solves n y) (hreg : Regular n S) :
    ∀ i < n, ((S.forward n n).backward n).rhs i = y i :=
  (hreg.eliminated le_rfl).backward le_rfl (fun _ hi hni => absurd hi (not_lt.mpr hni))
    (h.forward le_rfl)

end LinSys

end Elimination
