import SteamStream.Library.Wire
import Mathlib.Data.List.TakeWhile
import Mathlib.Data.Nat.Digits.Defs

/-!
# Decimal numbers in C strings

`strtol` skips white space, takes an optional sign and the digits that follow, and leaves the
rest; `std::stoi` and the `%d` of `sscanf` are both built on it and differ in what they do with
a missing or an oversized number. `toDecimal` prints, and `stoi_toDecimal` says that a printed
number that fits an `int` is read back.
-/

namespace CText

open Wire

/-- `isspace`. -/
def isSpace (c : UInt8) : Bool := c = 32 ∨ (9 ≤ c ∧ c ≤ 13)

/-- `isdigit`. -/
def isDigit (c : UInt8) : Bool := 48 ≤ c ∧ c ≤ 57

/-- The number a run of digits denotes. -/
def digitsValue (ds : Bytes) : ℕ := ds.foldl (fun v d => 10 * v + (d.toNat - 48)) 0

/-- The sign a number starts with, and what follows it. -/
def scanSign : Bytes → Bool × Bytes
  | 45 :: s => (true, s)
  | 43 :: s => (false, s)
  | s => (false, s)

/-- The number `strtol` reads in base ten, unbounded, and the text after it; `none` when there
is no digit to convert. -/
def scanDecimal (s : Bytes) : Option (ℤ × Bytes) :=
  let (negative, s) := scanSign (s.dropWhile isSpace)
  let digits := s.takeWhile isDigit
  if digits = [] then none
  else
    let v : ℤ := digitsValue digits
    some (if negative then -v else v, s.dropWhile isDigit)

/-- The conversion of a `long` to an `int`. -/
def toInt32 (v : ℤ) : ℤ := (v + 2 ^ 31) % 2 ^ 32 - 2 ^ 31

/-- `%d`: a number outside `long` saturates, and what is left is converted to `int`. -/
def scanInt (s : Bytes) : Option (ℤ × Bytes) :=
  (scanDecimal s).map fun (v, rest) => (toInt32 (max (-2 ^ 63) (min v (2 ^ 63 - 1))), rest)

/-- `std::stoi`, `none` when it throws: no digits, or a number outside `int`. -/
def stoi (s : Bytes) : Option ℤ :=
  match scanDecimal (cString s) with
  | none => none
  | some (v, _) => if -2 ^ 31 ≤ v ∧ v < 2 ^ 31 then some v else none

/-- `std::stoul`, `none` when it throws: no digits, or a number outside `unsigned long`. A minus
sign negates in that type. -/
def stoul (s : Bytes) : Option ℕ :=
  match scanDecimal (cString s) with
  | none => none
  | some (v, _) => if v.natAbs < 2 ^ 64 then some (v % 2 ^ 64).toNat else none

/-- `std::to_string` of an unsigned number. -/
def toDecimal (n : ℕ) : Bytes :=
  if n = 0 then [48] else (Nat.digits 10 n).reverse.map fun d => UInt8.ofNat (48 + d)

/-! ### Reading back what was printed -/

private theorem toNat_ofNat_digit {d : ℕ} (hd : d < 10) : (UInt8.ofNat (48 + d)).toNat = 48 + d := by
  rw [UInt8.toNat_ofNat']
  omega

private theorem isDigit_ofNat {d : ℕ} (hd : d < 10) : isDigit (UInt8.ofNat (48 + d)) = true := by
  simp only [isDigit, UInt8.le_iff_toNat_le, toNat_ofNat_digit hd, decide_eq_true_eq]
  exact ⟨Nat.le_add_right 48 d, by change 48 + d ≤ 57; omega⟩

theorem isDigit_of_mem_toDecimal {n : ℕ} {c : UInt8} (h : c ∈ toDecimal n) :
    isDigit c = true := by
  unfold toDecimal at h
  split_ifs at h with hn
  · rw [List.mem_singleton] at h
    exact h ▸ isDigit_ofNat (d := 0) (by omega)
  · obtain ⟨d, hd, rfl⟩ := List.mem_map.mp h
    exact isDigit_ofNat (Nat.digits_lt_base (by omega) (List.mem_reverse.mp hd))

theorem toDecimal_ne_nil (n : ℕ) : toDecimal n ≠ [] := by
  unfold toDecimal
  split_ifs with hn
  · exact List.cons_ne_nil 48 []
  · simpa using Nat.digits_ne_nil_iff_ne_zero.mpr hn

/-- The digits of a printed number denote it. -/
theorem digitsValue_toDecimal (n : ℕ) : digitsValue (toDecimal n) = n := by
  unfold toDecimal
  split_ifs with hn
  · exact hn.symm
  · have hfold : ∀ ds : List ℕ, (∀ d ∈ ds, d < 10) →
        digitsValue (ds.reverse.map fun d => UInt8.ofNat (48 + d)) = Nat.ofDigits 10 ds := by
      intro ds hds
      induction ds with
      | nil => rfl
      | cons d ds ih =>
        obtain ⟨hd, hds⟩ := List.forall_mem_cons.mp hds
        -- the last digit printed is the least significant one
        have hlast : digitsValue ((d :: ds).reverse.map fun d => UInt8.ofNat (48 + d)) =
            10 * digitsValue (ds.reverse.map fun d => UInt8.ofNat (48 + d)) + d := by
          simp only [digitsValue, List.reverse_cons, List.map_append, List.map_singleton,
            List.foldl_append, List.foldl_cons, List.foldl_nil, toNat_ofNat_digit hd]
          omega
        rw [hlast, ih hds, Nat.ofDigits_cons]
        exact Nat.add_comm ..
    rw [hfold _ fun d hd => Nat.digits_lt_base (by omega) hd, Nat.ofDigits_digits]

/-- White space and signs are not digits. -/
private theorem not_isSpace_of_isDigit {c : UInt8} (h : isDigit c = true) : isSpace c = false := by
  simp only [isDigit, isSpace, decide_eq_true_eq, decide_eq_false_iff_not, UInt8.le_iff_toNat_le,
    ← UInt8.toNat_inj] at h ⊢
  change 48 ≤ c.toNat ∧ c.toNat ≤ 57 at h
  change ¬ (c.toNat = 32 ∨ 9 ≤ c.toNat ∧ c.toNat ≤ 13)
  omega

private theorem scanSign_of_isDigit {c : UInt8} {s : Bytes} (h : isDigit c = true) :
    scanSign (c :: s) = (false, c :: s) := by
  unfold scanSign
  split
  · rename_i heq; obtain ⟨rfl, -⟩ := List.cons.inj heq; exact absurd h (by decide)
  · rename_i heq; obtain ⟨rfl, -⟩ := List.cons.inj heq; exact absurd h (by decide)
  · rfl

/-- A minus sign, if there is one. -/
def sign (negative : Bool) : Bytes := if negative then [45] else []

private theorem scanSign_sign_append (negative : Bool) {ds : Bytes} (hne : ds ≠ [])
    (hdigits : ∀ c ∈ ds, isDigit c = true) (rest : Bytes) :
    scanSign ((sign negative ++ (ds ++ rest)).dropWhile isSpace) = (negative, ds ++ rest) := by
  cases negative with
  | true => rfl
  | false =>
    obtain ⟨c, cs, rfl⟩ := List.exists_cons_of_ne_nil hne
    have hc : isDigit c = true := hdigits c (List.mem_cons_self ..)
    rw [sign, if_neg Bool.false_ne_true, List.nil_append, List.cons_append, List.dropWhile_cons,
      not_isSpace_of_isDigit hc]
    exact scanSign_of_isDigit hc

/-- Scanning reads a sign and a run of digits to its end. -/
theorem scanDecimal_digits_append (negative : Bool) {ds rest : Bytes} (hne : ds ≠ [])
    (hdigits : ∀ c ∈ ds, isDigit c = true) (hrest : ∀ c ∈ rest.head?, isDigit c = false) :
    scanDecimal (sign negative ++ (ds ++ rest)) =
      some (if negative then -(digitsValue ds : ℤ) else digitsValue ds, rest) := by
  have htake : (ds ++ rest).takeWhile isDigit = ds := by
    rw [List.takeWhile_append_of_pos hdigits]
    cases rest with
    | nil => simp
    | cons c rest => simp [hrest c rfl]
  have hdrop : (ds ++ rest).dropWhile isDigit = rest := by
    rw [List.dropWhile_append_of_pos hdigits]
    cases rest with
    | nil => rfl
    | cons c rest => simp [hrest c rfl]
  simp only [scanDecimal, scanSign_sign_append negative hne hdigits, htake, hdrop]
  rw [if_neg hne]

/-- Scanning stops where the printed digits end. -/
theorem scanDecimal_toDecimal_append (n : ℕ) {rest : Bytes}
    (hrest : ∀ c ∈ rest.head?, isDigit c = false) :
    scanDecimal (toDecimal n ++ rest) = some ((n : ℤ), rest) := by
  have hscan := scanDecimal_digits_append false (toDecimal_ne_nil n)
    (fun c hc => isDigit_of_mem_toDecimal hc) hrest
  rwa [digitsValue_toDecimal] at hscan

/-- Digits hold no NUL, nor does a sign. -/
private theorem cString_sign_append (negative : Bool) {ds : Bytes}
    (hdigits : ∀ c ∈ ds, isDigit c = true) : cString (sign negative ++ ds) = sign negative ++ ds := by
  refine List.takeWhile_eq_self_iff.mpr fun c hc => decide_eq_true fun h0 => ?_
  subst h0
  rcases List.mem_append.mp hc with hsign | hdigit
  · unfold sign at hsign
    split_ifs at hsign
    · exact absurd (List.mem_singleton.mp hsign) (by decide)
    · exact absurd hsign List.not_mem_nil
  · exact absurd (hdigits 0 hdigit) (by decide)

/-- `std::stoul` takes a negative number modulo its type. -/
theorem stoul_digits (negative : Bool) {ds : Bytes} (hne : ds ≠ [])
    (hdigits : ∀ c ∈ ds, isDigit c = true) (hbound : digitsValue ds < 2 ^ 64) :
    stoul (sign negative ++ ds) =
      some ((if negative then -(digitsValue ds : ℤ) else digitsValue ds) % 2 ^ 64).toNat := by
  have hscan := @scanDecimal_digits_append negative ds [] hne hdigits nofun
  rw [List.append_nil] at hscan
  rw [stoul, cString_sign_append negative hdigits, hscan]
  refine if_pos ?_
  split_ifs
  · rwa [Int.natAbs_neg, Int.natAbs_natCast]
  · rwa [Int.natAbs_natCast]

/-- `std::stoi` reads back a printed number that fits an `int`. -/
theorem stoi_toDecimal {n : ℕ} (h : n < 2 ^ 31) : stoi (toDecimal n) = some (n : ℤ) := by
  have hscan : scanDecimal (toDecimal n ++ []) = some ((n : ℤ), []) :=
    scanDecimal_toDecimal_append n (by simp)
  have hstring : cString (toDecimal n) = toDecimal n :=
    cString_sign_append false fun c hc => isDigit_of_mem_toDecimal hc
  rw [List.append_nil] at hscan
  rw [stoi, hstring, hscan]
  exact if_pos ⟨by omega, by exact_mod_cast h⟩

end CText
