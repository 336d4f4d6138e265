import Mathlib.Data.Int.Log
import Mathlib.Data.Rat.Floor
import Mathlib.Tactic.Linarith
import Mathlib.Tactic.Positivity
import Mathlib.Tactic.FieldSimp
import Mathlib.Tactic.NormNum

/-!
# Binary floating point: round to nearest, ties to even

`round p x` is the number with a `p`-bit significand nearest to the rational `x`, a midpoint
going to the even significand; exponents are unbounded, so the format has neither overflow nor
subnormals. IEEE single precision agrees with `round 24` on every magnitude between `2⁻¹²⁶`
and `2¹²⁸`.

The facts a program that counts in floats rests on:

* integers up to `2 ^ p` are represented exactly (`round_natCast`);
* rounding is monotone on the nonnegative numbers (`round_mono`);
* the ceiling of a rounded quotient `a / b` is the ceiling of the exact one as long as
  `a < 2 ^ p` (`ceil_round_div`): the distance of a non-integral quotient from the integer
  below it is at least `1 / b`, and half an ulp is less than that.
-/

namespace BinaryFloat

/-! ### Rounding to an integer -/

/-- The integer nearest to `x`, the even one at a midpoint. -/
def nearestInt (x : ℚ) : ℤ :=
  if x - ⌊x⌋ < 1 / 2 then ⌊x⌋
  else if 1 / 2 < x - ⌊x⌋ then ⌊x⌋ + 1
  else ⌊x⌋ + ⌊x⌋ % 2

theorem nearestInt_bounds (x : ℚ) : ⌊x⌋ ≤ nearestInt x ∧ nearestInt x ≤ ⌊x⌋ + 1 := by
  unfold nearestInt
  split_ifs <;> omega

@[simp]
theorem nearestInt_intCast (k : ℤ) : nearestInt (k : ℚ) = k := by
  simp [nearestInt]

/-- The rounding error is at most one half. -/
theorem nearestInt_error (x : ℚ) : |(nearestInt x : ℚ) - x| ≤ 1 / 2 := by
  have hlo : (⌊x⌋ : ℚ) ≤ x := Int.floor_le x
  have hhi : x < ⌊x⌋ + 1 := Int.lt_floor_add_one x
  have hmod : (0 : ℚ) ≤ ((⌊x⌋ % 2 : ℤ) : ℚ) ∧ ((⌊x⌋ % 2 : ℤ) : ℚ) ≤ 1 :=
    ⟨by exact_mod_cast Int.emod_nonneg _ two_ne_zero, by exact_mod_cast (by omega : ⌊x⌋ % 2 ≤ 1)⟩
  unfold nearestInt
  split_ifs <;> push_cast <;> rw [abs_le] <;> constructor <;> linarith [hmod.1, hmod.2]

theorem nearestInt_mono {x y : ℚ} (h : x ≤ y) : nearestInt x ≤ nearestInt y := by
  rcases (Int.floor_mono h).lt_or_eq with hlt | heq
  · calc nearestInt x ≤ ⌊x⌋ + 1 := (nearestInt_bounds x).2
      _ ≤ ⌊y⌋ := hlt
      _ ≤ nearestInt y := (nearestInt_bounds y).1
  · unfold nearestInt
    rw [heq]
    split_ifs <;> first | omega | (exfalso; linarith)

/-! ### Rounding to a significand -/

/-- The spacing of the `p`-bit numbers in the binade of `x`. -/
def ulp (p : ℕ) (x : ℚ) : ℚ := 2 ^ (Int.log 2 |x| - ((p : ℤ) - 1))

/-- The `p`-bit number nearest to `x`. -/
def round (p : ℕ) (x : ℚ) : ℚ := nearestInt (x / ulp p x) * ulp p x

theorem ulp_pos (p : ℕ) (x : ℚ) : 0 < ulp p x := zpow_pos two_pos _

@[simp]
theorem round_zero (p : ℕ) : round p 0 = 0 := by
  have h : nearestInt 0 = 0 := by simpa using nearestInt_intCast 0
  simp [round, h]

/-- The error is at most half the spacing. -/
theorem round_error (p : ℕ) (x : ℚ) : |round p x - x| ≤ ulp p x / 2 := by
  have hu := ulp_pos p x
  have hx : round p x - x = (nearestInt (x / ulp p x) - x / ulp p x) * ulp p x := by
    rw [round, sub_mul, div_mul_cancel₀ _ hu.ne']
  calc |round p x - x| = |(nearestInt (x / ulp p x) : ℚ) - x / ulp p x| * ulp p x := by
        rw [hx, abs_mul, abs_of_pos hu]
    _ ≤ 1 / 2 * ulp p x := mul_le_mul_of_nonneg_right (nearestInt_error _) hu.le
    _ = ulp p x / 2 := by ring

/-- A multiple of the spacing is represented exactly. -/
theorem round_eq_self {p : ℕ} {x : ℚ} {k : ℤ} (h : x = k * ulp p x) : round p x = x := by
  have hk : x / ulp p x = k := by rw [div_eq_iff (ulp_pos p x).ne']; exact h
  rw [round, hk, nearestInt_intCast]
  exact h.symm

/-- `2 ^ e ≤ x < 2 ^ (e + 1)`, for the exponent `e` of a positive `x`. -/
private theorem binade {x : ℚ} (hx : 0 < x) :
    (2 : ℚ) ^ Int.log 2 |x| ≤ x ∧ x < (2 : ℚ) ^ (Int.log 2 |x| + 1) := by
  rw [abs_of_pos hx]
  have hlo := Int.zpow_log_le_self (b := 2) (by norm_num) hx
  have hhi := Int.lt_zpow_succ_log_self (b := 2) (by norm_num) x
  exact ⟨by exact_mod_cast hlo, by exact_mod_cast hhi⟩

/-- Integers up to `2 ^ p` are represented exactly. -/
theorem round_natCast {p n : ℕ} (hp : 0 < p) (hn : n ≤ 2 ^ p) : round p n = n := by
  rcases Nat.eq_zero_or_pos n with rfl | hpos
  · simp
  have hx : (0 : ℚ) < n := by exact_mod_cast hpos
  obtain ⟨hlo, hhi⟩ := binade hx
  set e := Int.log 2 |(n : ℚ)| with he
  have hele : e ≤ p := by
    have h2 : (2 : ℚ) ^ e ≤ 2 ^ (p : ℤ) := hlo.trans (by exact_mod_cast hn)
    exact (zpow_le_zpow_iff_right₀ (by norm_num)).mp h2
  rcases hele.lt_or_eq with hlt | heq
  · -- the spacing is `2⁻ᵏ`, so every integer is a multiple of it
    obtain ⟨k, hk⟩ : ∃ k : ℕ, (p : ℤ) - 1 - e = k := ⟨((p : ℤ) - 1 - e).toNat, by omega⟩
    refine round_eq_self (k := n * 2 ^ k) ?_
    have hu : ulp p (n : ℚ) = (2 ^ k : ℚ)⁻¹ := by
      rw [ulp, ← he, show e - ((p : ℤ) - 1) = -(k : ℤ) by omega, zpow_neg, zpow_natCast]
    rw [hu]
    push_cast
    field_simp
  · -- the only integer of this binade is `2 ^ p` itself
    have hnp : n = 2 ^ p := by
      refine le_antisymm hn ?_
      have h2 : (2 : ℚ) ^ (p : ℤ) ≤ n := heq ▸ hlo
      exact_mod_cast h2
    refine round_eq_self (k := 2 ^ (p - 1)) ?_
    have hu : ulp p (n : ℚ) = 2 := by
      rw [ulp, ← he, heq, sub_sub_cancel, zpow_one]
    rw [hu, hnp]
    push_cast
    rw [← pow_succ, Nat.sub_add_cancel hp]

/-- In the binade of `x` the rounded value stays between the binade's two ends. -/
private theorem round_mem_binade {p : ℕ} (hp : 0 < p) {x : ℚ} (hx : 0 < x) :
    (2 : ℚ) ^ Int.log 2 |x| ≤ round p x ∧ round p x ≤ (2 : ℚ) ^ (Int.log 2 |x| + 1) := by
  obtain ⟨hlo, hhi⟩ := binade hx
  have hu := ulp_pos p x
  have hlow : ((2 ^ (p - 1) : ℤ) : ℚ) * ulp p x = 2 ^ Int.log 2 |x| := by
    push_cast
    rw [ulp, ← zpow_natCast, ← zpow_add₀ two_ne_zero]
    congr 1
    omega
  have hhigh : ((2 ^ p : ℤ) : ℚ) * ulp p x = 2 ^ (Int.log 2 |x| + 1) := by
    push_cast
    rw [ulp, ← zpow_natCast, ← zpow_add₀ two_ne_zero]
    congr 1
    omega
  have h1 : (2 ^ (p - 1) : ℤ) ≤ nearestInt (x / ulp p x) := by
    rw [← nearestInt_intCast (2 ^ (p - 1))]
    exact nearestInt_mono (by rw [le_div_iff₀ hu, hlow]; exact hlo)
  have h2 : nearestInt (x / ulp p x) ≤ (2 ^ p : ℤ) := by
    rw [← nearestInt_intCast (2 ^ p)]
    exact nearestInt_mono (by rw [div_le_iff₀ hu, hhigh]; exact hhi.le)
  constructor
  · rw [← hlow, round]
    exact mul_le_mul_of_nonneg_right (by exact_mod_cast h1) hu.le
  · rw [← hhigh, round]
    exact mul_le_mul_of_nonneg_right (by exact_mod_cast h2) hu.le

theorem round_pos {p : ℕ} (hp : 0 < p) {x : ℚ} (hx : 0 < x) : 0 < round p x :=
  lt_of_lt_of_le (zpow_pos two_pos _) (round_mem_binade hp hx).1

/-- Rounding is monotone. -/
theorem round_mono {p : ℕ} (hp : 0 < p) {x y : ℚ} (hx : 0 ≤ x) (h : x ≤ y) :
    round p x ≤ round p y := by
  rcases hx.eq_or_lt with rfl | hx
  · rcases h.eq_or_lt with rfl | hy
    · exact le_rfl
    · simpa using (round_pos hp hy).le
  have hy := hx.trans_le h
  have hlog : Int.log 2 |x| ≤ Int.log 2 |y| := by
    rw [abs_of_pos hx, abs_of_pos hy]
    exact Int.log_mono_right hx h
  rcases hlog.lt_or_eq with hlt | heq
  · calc round p x ≤ (2 : ℚ) ^ (Int.log 2 |x| + 1) := (round_mem_binade hp hx).2
      _ ≤ (2 : ℚ) ^ Int.log 2 |y| := zpow_le_zpow_right₀ (by norm_num) hlt
      _ ≤ round p y := (round_mem_binade hp hy).1
  · have hulp : ulp p x = ulp p y := by rw [ulp, ulp, heq]
    rw [round, round, hulp]
    refine mul_le_mul_of_nonneg_right ?_ (ulp_pos p y).le
    exact_mod_cast nearestInt_mono (div_le_div_of_nonneg_right h (ulp_pos p y).le)

theorem round_nonneg {p : ℕ} (hp : 0 < p) {x : ℚ} (hx : 0 ≤ x) : 0 ≤ round p x := by
  simpa using round_mono hp le_rfl hx

theorem round_nonpos (p : ℕ) {x : ℚ} (hx : x ≤ 0) : round p x ≤ 0 := by
  have h : nearestInt (x / ulp p x) ≤ 0 := by
    rw [← nearestInt_intCast 0]
    exact nearestInt_mono (by simpa using div_nonpos_of_nonpos_of_nonneg hx (ulp_pos p x).le)
  exact mul_nonpos_of_nonpos_of_nonneg (by exact_mod_cast h) (ulp_pos p x).le

/-- Half the spacing, scaled to the start of the binade. -/
private theorem half_ulp_mul (p : ℕ) (x : ℚ) : ulp p x / 2 * 2 ^ p = 2 ^ Int.log 2 |x| := by
  rw [ulp, div_mul_eq_mul_div, ← zpow_natCast, ← zpow_add₀ two_ne_zero, div_eq_mul_inv,
    ← zpow_neg_one, ← zpow_add₀ two_ne_zero]
  congr 1
  omega

/-- Relative to the number rounded, the error is at most `2⁻ᵖ`. -/
theorem round_le {p : ℕ} {x : ℚ} (hx : 0 < x) : round p x ≤ x + x / 2 ^ p := by
  have herr := (abs_le.mp (round_error p x)).2
  have hulp : ulp p x / 2 ≤ x / 2 ^ p := by
    rw [le_div_iff₀ (by positivity), half_ulp_mul]
    exact (binade hx).1
  linarith

theorem abs_round_sub_le {p : ℕ} {x : ℚ} (hx : 0 ≤ x) : |round p x - x| ≤ x / 2 ^ p := by
  rcases hx.eq_or_lt with rfl | hx
  · simp
  · refine (round_error p x).trans ?_
    rw [le_div_iff₀ (by positivity), half_ulp_mul]
    exact (binade hx).1

/-! ### Ceilings of quotients -/

/-- A quotient above the integer `n` is above it by at least one part in the denominator. -/
theorem add_inv_le_div {a b n : ℕ} (hb : 0 < b) (h : (n : ℚ) < (a : ℚ) / b) :
    (n : ℚ) + 1 / b ≤ (a : ℚ) / b := by
  have hbq : (0 : ℚ) < b := by exact_mod_cast hb
  have hlt : n * b < a := by
    have hq : (n : ℚ) * b < a := (lt_div_iff₀ hbq).mp h
    exact_mod_cast hq
  have hle : (n : ℚ) * b + 1 ≤ a := by exact_mod_cast hlt
  rwa [le_div_iff₀ hbq, add_mul, one_div, inv_mul_cancel₀ hbq.ne']

/-- Half the spacing around `a / b` is less than `1 / b` when `a` fits the significand. -/
theorem half_ulp_lt_inv {p a b : ℕ} (ha : a < 2 ^ p) (hapos : 0 < a) (hb : 0 < b) :
    ulp p ((a : ℚ) / b) / 2 < 1 / b := by
  have hbq : (0 : ℚ) < b := by exact_mod_cast hb
  have hx : (0 : ℚ) < (a : ℚ) / b := div_pos (by exact_mod_cast hapos) hbq
  have haq : (a : ℚ) < 2 ^ p := by exact_mod_cast ha
  have hscale : ulp p ((a : ℚ) / b) / 2 * 2 ^ p = 2 ^ Int.log 2 |(a : ℚ) / b| := half_ulp_mul ..
  refine lt_of_mul_lt_mul_right (a := (2 : ℚ) ^ p) ?_ (by positivity)
  calc ulp p ((a : ℚ) / b) / 2 * 2 ^ p = 2 ^ Int.log 2 |(a : ℚ) / b| := hscale
    _ ≤ (a : ℚ) / b := (binade hx).1
    _ < 2 ^ p / b := div_lt_div_of_pos_right haq hbq
    _ = 1 / b * 2 ^ p := by ring

/-- A quotient above the integer `n` is still above it once rounded. -/
theorem lt_round_div {p a b n : ℕ} (hp : 0 < p) (ha : a < 2 ^ p) (hb : 0 < b)
    (h : (n : ℚ) < (a : ℚ) / b) : (n : ℚ) < round p ((a : ℚ) / b) := by
  have hapos : 0 < a := by
    rcases Nat.eq_zero_or_pos a with rfl | hpos
    · have hn : (0 : ℚ) ≤ n := by positivity
      simp only [Nat.cast_zero, zero_div] at h
      exact absurd h (not_lt.mpr hn)
    · exact hpos
  rcases Nat.eq_zero_or_pos n with rfl | hn
  · simpa using round_pos hp (by simpa using h)
  · have hgap := add_inv_le_div hb h
    have hulp := half_ulp_lt_inv ha hapos hb
    have herr := abs_le.mp (round_error p ((a : ℚ) / b))
    linarith [herr.1]

/-- **The ceiling survives rounding.** A quotient of a numerator below `2 ^ p` has the same
ceiling before and after it is rounded to `p` bits. -/
theorem ceil_round_div {p a b : ℕ} (hp : 0 < p) (ha : a < 2 ^ p) (hb : 0 < b) :
    ⌈round p ((a : ℚ) / b)⌉ = ⌈(a : ℚ) / b⌉ := by
  rcases Nat.eq_zero_or_pos a with rfl | hapos
  · simp
  have hx : (0 : ℚ) < (a : ℚ) / b :=
    div_pos (by exact_mod_cast hapos) (by exact_mod_cast hb)
  obtain ⟨n, hn⟩ : ∃ n : ℕ, ⌈(a : ℚ) / b⌉ = ((n + 1 : ℕ) : ℤ) :=
    ⟨(⌈(a : ℚ) / b⌉ - 1).toNat, by have := Int.ceil_pos.mpr hx; omega⟩
  obtain ⟨hlt, hle⟩ := Int.ceil_eq_iff.mp hn
  have hlt' : (n : ℚ) < (a : ℚ) / b := by simpa using hlt
  have hle' : (a : ℚ) / b ≤ ((n + 1 : ℕ) : ℚ) := by exact_mod_cast hle
  have hna : n + 1 ≤ 2 ^ p := by
    have h1 : (n : ℚ) < a := hlt'.trans_le
      (div_le_self (by positivity) (by exact_mod_cast hb))
    have h2 : n < a := by exact_mod_cast h1
    omega
  rw [hn, Int.ceil_eq_iff]
  constructor
  · have := lt_round_div hp ha hb hlt'
    simpa using this
  · calc round p ((a : ℚ) / b) ≤ round p ((n + 1 : ℕ) : ℚ) := round_mono hp hx.le hle'
      _ = (((n + 1 : ℕ) : ℤ) : ℚ) := by rw [round_natCast hp hna, Int.cast_natCast]

end BinaryFloat
