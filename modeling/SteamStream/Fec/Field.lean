import SteamStream.Fec.Nanors
import Mathlib.Algebra.Field.Basic

/-!
# GF(2⁸) is a field

The bytes with exclusive or and the multiplication of the tables are a field, so that what is known
about linear equations holds for the rows of the FEC library.

A product is additive in both factors (`gf28Mul_xor_left`, `gf28Mul_xor_right`), and a function that
is additive is determined by its values at the eight bytes with one bit (`XorHom.eq`). The laws of
the product therefore only have to be checked at those, and its inverses at every byte.
-/

namespace SteamStream.Nanors

/-! ### Additive functions of bytes -/

/-- The function takes sums to sums. -/
def XorHom (f : UInt8 → UInt8) : Prop := ∀ a b, f (a ^^^ b) = f a ^^^ f b

/-- The byte with one bit. -/
def bit (k : ℕ) : UInt8 := UInt8.ofNat (2 ^ k)

/-- The byte from its bits, as a sum of those that are set. -/
def sumBits (f : UInt8 → UInt8) (a : UInt8) : UInt8 :=
  (List.range 8).foldl (fun acc k => acc ^^^ if a.toNat.testBit k then f (bit k) else 0) 0

private theorem sumBits_ofNat : ∀ n < 256, sumBits id (UInt8.ofNat n) = UInt8.ofNat n := by
  decide +kernel

theorem sumBits_id (a : UInt8) : sumBits id a = a := by
  simpa using sumBits_ofNat a.toNat a.toNat_lt

theorem XorHom.zero {f : UInt8 → UInt8} (h : XorHom f) : f 0 = 0 := by
  have hself := h 0 0
  rwa [UInt8.xor_self, UInt8.xor_self] at hself

/-- An additive function is determined by its values at single bits. -/
theorem XorHom.eq_sumBits {f : UInt8 → UInt8} (h : XorHom f) (a : UInt8) : f a = sumBits f a := by
  have hfold : ∀ (ks : List ℕ) (acc : UInt8),
      f (ks.foldl (fun acc k => acc ^^^ if a.toNat.testBit k then bit k else 0) acc) =
        ks.foldl (fun acc k => acc ^^^ if a.toNat.testBit k then f (bit k) else 0) (f acc) := by
    intro ks
    induction ks with
    | nil => exact fun acc => rfl
    | cons k ks ih =>
      intro acc
      rw [List.foldl_cons, List.foldl_cons, ih, h]
      split_ifs
      · rfl
      · rw [h.zero]
  have hbits := hfold (List.range 8) 0
  rw [h.zero] at hbits
  exact (congrArg f (sumBits_id a).symm).trans hbits

theorem XorHom.eq {f g : UInt8 → UInt8} (hf : XorHom f) (hg : XorHom g)
    (h : ∀ k < 8, f (bit k) = g (bit k)) : f = g := by
  funext a
  rw [hf.eq_sumBits, hg.eq_sumBits, sumBits, sumBits]
  refine List.foldl_ext _ _ 0 fun acc k hk => ?_
  rw [h k (List.mem_range.mp hk)]

theorem XorHom.comp {f g : UInt8 → UInt8} (hf : XorHom f) (hg : XorHom g) :
    XorHom fun a => f (g a) := by
  intro a b
  change f (g (a ^^^ b)) = f (g a) ^^^ f (g b)
  rw [hg a b, hf]

/-! ### The product -/

private theorem xor_xor_xor_comm (a b c d : UInt8) :
    (a ^^^ b) ^^^ (c ^^^ d) = (a ^^^ c) ^^^ (b ^^^ d) := by ac_rfl

/-- A byte that is there or not, according to the sum of two bits. -/
private theorem ite_xor (p q : Bool) (c : UInt8) :
    (if (p ^^ q) = true then c else 0) = (if p then c else 0) ^^^ if q then c else 0 := by
  cases p <;> cases q <;> simp

private theorem le_ofNat : ∀ n < 256, (128 ≤ UInt8.ofNat n ↔ n.testBit 7 = true) := by
  decide +kernel

private theorem odd_ofNat : ∀ n < 256, (UInt8.ofNat n % 2 = 1 ↔ n.testBit 0 = true) := by
  decide +kernel

theorem xtime_eq (a : UInt8) :
    xtime a = (a <<< 1) ^^^ if a.toNat.testBit 7 then 29 else 0 := by
  have hhigh : 128 ≤ a ↔ a.toNat.testBit 7 = true := by
    simpa using le_ofNat a.toNat a.toNat_lt
  rw [xtime]
  simp only [hhigh]
  split_ifs
  · rfl
  · exact UInt8.xor_zero.symm

theorem xorHom_xtime : XorHom xtime := by
  intro a b
  rw [xtime_eq, xtime_eq, xtime_eq, UInt8.shiftLeft_xor, UInt8.toNat_xor, Nat.testBit_xor, ite_xor,
    xor_xor_xor_comm]

theorem gf28MulBits_xor_left (n : ℕ) (b : UInt8) : XorHom fun a => gf28MulBits n a b := by
  induction n generalizing b with
  | zero => exact fun a a' => UInt8.xor_self.symm
  | succ n ih =>
    intro a a'
    have hrest : gf28MulBits n (xtime a ^^^ xtime a') (b >>> 1) =
        gf28MulBits n (xtime a) (b >>> 1) ^^^ gf28MulBits n (xtime a') (b >>> 1) :=
      ih (b >>> 1) (xtime a) (xtime a')
    have hfirst : (if b % 2 = 1 then a ^^^ a' else 0) =
        (if b % 2 = 1 then a else 0) ^^^ if b % 2 = 1 then a' else 0 := by
      split_ifs
      · rfl
      · exact UInt8.xor_self.symm
    simp only [gf28MulBits]
    rw [xorHom_xtime, hrest, hfirst, xor_xor_xor_comm]

theorem gf28MulBits_xor_right (n : ℕ) (a : UInt8) : XorHom (gf28MulBits n a) := by
  have hodd : ∀ b : UInt8, b % 2 = 1 ↔ b.toNat.testBit 0 = true := by
    intro b
    simpa using odd_ofNat b.toNat b.toNat_lt
  induction n generalizing a with
  | zero => exact fun b b' => UInt8.xor_self.symm
  | succ n ih =>
    intro b b'
    simp only [gf28MulBits, hodd]
    rw [UInt8.shiftRight_xor, ih, UInt8.toNat_xor, Nat.testBit_xor, ite_xor, xor_xor_xor_comm]

theorem gf28Mul_xor_left (b : UInt8) : XorHom fun a => gf28Mul a b := gf28MulBits_xor_left 8 b

theorem gf28Mul_xor_right (a : UInt8) : XorHom (gf28Mul a) := gf28MulBits_xor_right 8 a

private theorem gf28Mul_bit_comm :
    ∀ k < 8, ∀ l < 8, gf28Mul (bit k) (bit l) = gf28Mul (bit l) (bit k) := by
  decide +kernel

private theorem bit_succ : ∀ k < 7, bit (k + 1) = xtime (bit k) := by
  decide +kernel

private theorem gf28Mul_bit_xtime :
    ∀ k < 8, ∀ l < 8, gf28Mul (bit k) (xtime (bit l)) = xtime (gf28Mul (bit k) (bit l)) := by
  decide +kernel

theorem gf28Mul_comm (a b : UInt8) : gf28Mul a b = gf28Mul b a := by
  have hbit : ∀ k < 8, gf28Mul (bit k) = fun b => gf28Mul b (bit k) := fun k hk =>
    (gf28Mul_xor_right (bit k)).eq (gf28Mul_xor_left (bit k)) (gf28Mul_bit_comm k hk)
  have hall : (fun a => gf28Mul a b) = gf28Mul b :=
    (gf28Mul_xor_left b).eq (gf28Mul_xor_right b) fun k hk => congrFun (hbit k hk) b
  exact congrFun hall a

theorem gf28Mul_xtime (a b : UInt8) : gf28Mul a (xtime b) = xtime (gf28Mul a b) := by
  have hbit : ∀ k < 8, (fun b => gf28Mul (bit k) (xtime b)) = fun b => xtime (gf28Mul (bit k) b) :=
    fun k hk => ((gf28Mul_xor_right (bit k)).comp xorHom_xtime).eq
      (xorHom_xtime.comp (gf28Mul_xor_right (bit k))) (gf28Mul_bit_xtime k hk)
  have hall : (fun a => gf28Mul a (xtime b)) = fun a => xtime (gf28Mul a b) :=
    (gf28Mul_xor_left (xtime b)).eq (xorHom_xtime.comp (gf28Mul_xor_left b))
      fun k hk => congrFun (hbit k hk) b
  exact congrFun hall a

theorem gf28Mul_assoc (a b c : UInt8) : gf28Mul (gf28Mul a b) c = gf28Mul a (gf28Mul b c) := by
  -- the bits are the powers of the generator
  have hbit : ∀ k < 8, gf28Mul (gf28Mul a b) (bit k) = gf28Mul a (gf28Mul b (bit k)) := by
    intro k hk
    induction k with
    | zero =>
      have hone : ∀ a, gf28Mul a (bit 0) = a := fun a =>
        (gf28Mul_comm a (bit 0)).trans (gf28Mul_one_left a)
      rw [hone, hone]
    | succ k ih =>
      rw [bit_succ k (Nat.lt_of_succ_lt_succ hk), gf28Mul_xtime, gf28Mul_xtime, gf28Mul_xtime,
        ih (Nat.lt_of_succ_lt hk)]
  exact congrFun ((gf28Mul_xor_right (gf28Mul a b)).eq
    ((gf28Mul_xor_right a).comp (gf28Mul_xor_right b)) hbit) c

/-- The table is gone through once, as looking each entry up would be slow. -/
private theorem gf28Mul_zipIdx_inv :
    ∀ p ∈ gf28InvTable.zipIdx, p.2 ≠ 0 → gf28Mul (UInt8.ofNat p.2) p.1 = 1 := by
  decide +kernel

theorem gf28Mul_inv {a : UInt8} (h : a ≠ 0) : gf28Mul a (gf28Inv a.toNat) = 1 := by
  have hne : a.toNat ≠ 0 := fun h0 => h (UInt8.toNat_inj.mp h0)
  have hentry : gf28InvTable[a.toNat]? = some (gf28Inv a.toNat) := by
    have hlength : gf28InvTable.length = 256 := by decide +kernel
    have hlt : a.toNat < gf28InvTable.length := hlength ▸ a.toNat_lt
    rw [gf28Inv, List.getD_eq_getElem _ _ hlt, List.getElem?_eq_getElem hlt]
  simpa using gf28Mul_zipIdx_inv (gf28Inv a.toNat, a.toNat)
    (List.mk_mem_zipIdx_iff_getElem?.mpr hentry) hne

/-! ### The field -/

/-- A byte as an element of the field. -/
@[ext]
structure GF256 where
  byte : UInt8
  deriving DecidableEq, Repr

namespace GF256

instance : Zero GF256 := ⟨⟨0⟩⟩
instance : One GF256 := ⟨⟨1⟩⟩
instance : Add GF256 := ⟨fun a b => ⟨a.byte ^^^ b.byte⟩⟩
instance : Mul GF256 := ⟨fun a b => ⟨gf28Mul a.byte b.byte⟩⟩
instance : Neg GF256 := ⟨id⟩
instance : Inv GF256 := ⟨fun a => ⟨gf28Inv a.byte.toNat⟩⟩

instance : Field GF256 where
  add_assoc a b c := GF256.ext (UInt8.xor_assoc ..)
  zero_add a := GF256.ext UInt8.zero_xor
  add_zero a := GF256.ext UInt8.xor_zero
  add_comm a b := GF256.ext (UInt8.xor_comm ..)
  neg_add_cancel a := GF256.ext UInt8.xor_self
  left_distrib a b c := GF256.ext (gf28Mul_xor_right a.byte b.byte c.byte)
  right_distrib a b c := GF256.ext (gf28Mul_xor_left c.byte a.byte b.byte)
  zero_mul a := GF256.ext (gf28Mul_zero_left a.byte)
  mul_zero a := GF256.ext (gf28Mul_xor_right a.byte).zero
  mul_assoc a b c := GF256.ext (gf28Mul_assoc a.byte b.byte c.byte)
  one_mul a := GF256.ext (gf28Mul_one_left a.byte)
  mul_one a := GF256.ext ((gf28Mul_comm a.byte 1).trans (gf28Mul_one_left a.byte))
  mul_comm a b := GF256.ext (gf28Mul_comm a.byte b.byte)
  exists_pair_ne := ⟨0, 1, fun h => absurd (congrArg byte h) (by decide)⟩
  mul_inv_cancel a ha := GF256.ext (gf28Mul_inv fun h => ha (GF256.ext h))
  inv_zero := rfl
  nsmul := nsmulRec
  zsmul := zsmulRec
  nnqsmul := _
  qsmul := _

theorem mk_xor (a b : UInt8) : (⟨a ^^^ b⟩ : GF256) = ⟨a⟩ + ⟨b⟩ := rfl

theorem mk_mul (a b : UInt8) : (⟨gf28Mul a b⟩ : GF256) = ⟨a⟩ * ⟨b⟩ := rfl

theorem mk_inv (a : UInt8) : (⟨gf28Inv a.toNat⟩ : GF256) = ⟨a⟩⁻¹ := rfl

/-- Sums and differences are the same. -/
theorem sub_eq_add (a b : GF256) : a - b = a + b := rfl

theorem add_self (a : GF256) : a + a = 0 := GF256.ext UInt8.xor_self

end GF256

end SteamStream.Nanors
