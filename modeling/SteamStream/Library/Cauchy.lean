import SteamStream.Library.Elimination
import Mathlib.Tactic.FieldSimp
import Mathlib.Tactic.Ring

/-!
# Cauchy matrices need no choice of pivots

A Cauchy matrix has the entries `(p i + q j)⁻¹`, the `p i` being pairwise distinct, the `q j` too,
and no sum zero. Its rows and columns may be scaled by numbers that are not zero.

Clearing a column leaves such a matrix (`IsCauchy.pivot`): what a row loses is again a quotient over
the same sum, because

`(p i + q j)⁻¹ - (p x + q x) / ((p i + q x) (p x + q j))`

has the numerator `(p i - p x) (q j - q x)`. So no pivot is ever zero (`IsCauchy.regular`), and
elimination that takes the diagonal entries in their order gets through.
-/

namespace Elimination.LinSys

variable {F : Type*} [Field F]

/-- Nodes of a Cauchy matrix of that size. -/
structure CauchyNodes (n : ℕ) (p q : ℕ → F) : Prop where
  row : ∀ i < n, ∀ j < n, i ≠ j → p i ≠ p j
  col : ∀ i < n, ∀ j < n, i ≠ j → q i ≠ q j
  sum : ∀ i < n, ∀ j < n, p i + q j ≠ 0

/-- From row and column `x` on, the matrix is a Cauchy matrix with its rows and columns scaled. -/
def IsCauchy (n x : ℕ) (p q : ℕ → F) (S : LinSys F) : Prop :=
  ∃ u v : ℕ → F, (∀ i, x ≤ i → i < n → u i ≠ 0 ∧ v i ≠ 0) ∧
    ∀ i j, x ≤ i → i < n → x ≤ j → j < n → S.mat i j = u i * v j / (p i + q j)

variable {S : LinSys F} {n x : ℕ} {p q : ℕ → F}

/-- What clearing a column leaves of an entry. -/
private theorem cauchy_clear {ui vj ux vx pi qj px qx : F} (hux : ux ≠ 0) (hvx : vx ≠ 0)
    (hij : pi + qj ≠ 0) (hix : pi + qx ≠ 0) (hxj : px + qj ≠ 0) :
    ui * vj / (pi + qj) - ui * vx / (pi + qx) * ((ux * vx / (px + qx))⁻¹ * (ux * vj / (px + qj))) =
      ui * (pi - px) / (pi + qx) * (vj * (qj - qx) / (px + qj)) / (pi + qj) := by
  field_simp
  ring

theorem IsCauchy.ne_zero (hnodes : CauchyNodes n p q) (h : S.IsCauchy n x p q) (hx : x < n) :
    S.mat x x ≠ 0 := by
  obtain ⟨u, v, hne, hmat⟩ := h
  obtain ⟨hu, hv⟩ := hne x le_rfl hx
  rw [hmat x x le_rfl hx le_rfl hx]
  exact div_ne_zero (mul_ne_zero hu hv) (hnodes.sum x hx x hx)

/-- A round of the elimination leaves a scaled Cauchy matrix on the nodes that remain. -/
theorem IsCauchy.pivot (hnodes : CauchyNodes n p q) (h : S.IsCauchy n x p q) (hx : x < n) :
    (S.pivot n x).IsCauchy n (x + 1) p q := by
  obtain ⟨u, v, hne, hmat⟩ := h
  obtain ⟨hux, hvx⟩ := hne x le_rfl hx
  refine ⟨fun i => u i * (p i - p x) / (p i + q x), fun j => v j * (q j - q x) / (p x + q j),
    fun i hxi hi => ?_, fun i j hxi hi hxj hj => ?_⟩
  · have hix : i ≠ x := Nat.ne_of_gt hxi
    obtain ⟨hui, hvi⟩ := hne i (Nat.le_of_succ_le hxi) hi
    constructor
    · exact div_ne_zero (mul_ne_zero hui (sub_ne_zero.mpr (hnodes.row i hi x hx hix)))
        (hnodes.sum i hi x hx)
    · exact div_ne_zero (mul_ne_zero hvi (sub_ne_zero.mpr (hnodes.col i hi x hx hix)))
        (hnodes.sum x hx i hi)
  · have hxi' := Nat.le_of_succ_le hxi
    have hxj' := Nat.le_of_succ_le hxj
    rw [mat_pivot, if_neg (Nat.ne_of_gt hxi), if_pos ⟨hxi, hi⟩, hmat i j hxi' hi hxj' hj,
      hmat i x hxi' hi le_rfl hx, hmat x x le_rfl hx le_rfl hx, hmat x j le_rfl hx hxj' hj]
    exact cauchy_clear hux hvx (hnodes.sum i hi j hj) (hnodes.sum i hi x hx)
      (hnodes.sum x hx j hj)

/-- Every round of the elimination. -/
theorem IsCauchy.forward (hnodes : CauchyNodes n p q) (h : S.IsCauchy n 0 p q) (hx : x ≤ n) :
    (S.forward n x).IsCauchy n x p q := by
  induction x with
  | zero => exact h
  | succ x ih =>
    rw [forward_succ]
    exact (ih (Nat.le_of_succ_le hx)).pivot hnodes hx

/-- **No pivot of a Cauchy matrix is zero.** -/
theorem IsCauchy.regular (hnodes : CauchyNodes n p q) (h : S.IsCauchy n 0 p q) : Regular n S :=
  fun _ hx => (h.forward hnodes hx.le).ne_zero hnodes hx

/-- A matrix of inverses of sums. -/
theorem isCauchy_of_inv (h : ∀ i < n, ∀ j < n, S.mat i j = (p i + q j)⁻¹) :
    S.IsCauchy n 0 p q := by
  refine ⟨fun _ => 1, fun _ => 1, fun _ _ _ => ⟨one_ne_zero, one_ne_zero⟩, fun i j _ hi _ hj => ?_⟩
  rw [h i hi j hj, one_mul, one_div]

end Elimination.LinSys
