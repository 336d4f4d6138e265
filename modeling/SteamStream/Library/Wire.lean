import Mathlib.Algebra.Order.Ring.Nat
import Mathlib.Data.List.Basic
import Mathlib.Data.List.TakeWhile
import Mathlib.Tactic.Ring

/-!
# Byte strings with fixed-layout fields

A packed C struct overlaid on a buffer is a set of `Field`s: an offset and a width. Assigning
a member through the cast pointer is `Field.put`, reading one is `Field.slice`. `put` never
changes the length, so the laws that matter are unconditional:

* a field reads back what was put into it (`Field.slice_put_self`);
* a field disjoint from the one written is untouched (`Field.slice_put_of_disjoint`);
* a byte outside the written field is untouched (`Field.getElem?_put_of_outside`).

Numbers are stored in little-endian (`leBytes`, `ofLE`) or big-endian (`beBytes`, `ofBE`)
order; storing truncates to the width of the field, as an assignment to a fixed-width member
does.
-/

namespace Wire

/-- A byte string. -/
abbrev Bytes := List UInt8

/-- A string literal, as the bytes it denotes. -/
def ascii (s : String) : Bytes := s.toUTF8.data.toList

/-- What a C function sees of a string: the bytes before its first NUL. -/
def cString (bs : Bytes) : Bytes := bs.takeWhile (· ≠ 0)

theorem cString_eq_self_iff {bs : Bytes} : cString bs = bs ↔ 0 ∉ bs := by
  rw [cString, List.takeWhile_eq_self_iff]
  simp only [decide_eq_true_eq]
  exact ⟨fun h hmem => h 0 hmem rfl, fun h b hb => ne_of_mem_of_not_mem hb h⟩

/-! ### Numbers as bytes -/

/-- The low `w` bytes of `v`, least significant first. -/
def leBytes : ℕ → ℕ → Bytes
  | 0, _ => []
  | w + 1, v => UInt8.ofNat v :: leBytes w (v / 256)

/-- The number a little-endian byte string denotes. -/
def ofLE : Bytes → ℕ
  | [] => 0
  | b :: bs => b.toNat + 256 * ofLE bs

/-- The low `w` bytes of `v`, most significant first. -/
def beBytes (w v : ℕ) : Bytes := (leBytes w v).reverse

/-- The number a big-endian byte string denotes. -/
def ofBE (bs : Bytes) : ℕ := ofLE bs.reverse

@[simp]
theorem length_leBytes (w v : ℕ) : (leBytes w v).length = w := by
  induction w generalizing v with
  | zero => rfl
  | succ w ih => simp [leBytes, ih]

@[simp]
theorem length_beBytes (w v : ℕ) : (beBytes w v).length = w := by simp [beBytes]

/-- Reading back a stored number loses exactly what does not fit the width. -/
@[simp]
theorem ofLE_leBytes (w v : ℕ) : ofLE (leBytes w v) = v % 256 ^ w := by
  induction w generalizing v with
  | zero => simp [leBytes, ofLE, Nat.mod_one]
  | succ w ih =>
    have hb : (UInt8.ofNat v).toNat = v % 256 := by simp
    rw [leBytes, ofLE, ih, hb, pow_succ', Nat.mod_mul]

@[simp]
theorem ofBE_beBytes (w v : ℕ) : ofBE (beBytes w v) = v % 256 ^ w := by
  simp [ofBE, beBytes]

/-- Only what fits the width is stored. -/
theorem leBytes_congr {w v v' : ℕ} (h : v % 256 ^ w = v' % 256 ^ w) :
    leBytes w v = leBytes w v' := by
  induction w generalizing v v' with
  | zero => rfl
  | succ w ih =>
    rw [pow_succ', Nat.mod_mul, Nat.mod_mul] at h
    have hlow : v % 256 = v' % 256 := by omega
    have hhigh : v / 256 % 256 ^ w = v' / 256 % 256 ^ w := by omega
    have hbyte : UInt8.ofNat v = UInt8.ofNat v' := by
      rw [← UInt8.toNat_inj, UInt8.toNat_ofNat', UInt8.toNat_ofNat']
      exact hlow
    rw [leBytes, leBytes, hbyte, ih hhigh]

theorem beBytes_congr {w v v' : ℕ} (h : v % 256 ^ w = v' % 256 ^ w) :
    beBytes w v = beBytes w v' := by rw [beBytes, beBytes, leBytes_congr h]

/-- A little-endian number is bounded by its width. -/
theorem ofLE_lt (bs : Bytes) : ofLE bs < 256 ^ bs.length := by
  induction bs with
  | nil => simp [ofLE]
  | cons b bs ih =>
    have hb : b.toNat < 256 := b.toNat_lt
    calc b.toNat + 256 * ofLE bs < 256 * (ofLE bs + 1) := by omega
      _ ≤ 256 * 256 ^ bs.length := Nat.mul_le_mul_left _ ih
      _ = 256 ^ (b :: bs).length := by simp [pow_succ']

/-! ### Fields -/

/-- A member of a packed layout: where it starts and how many bytes it takes. -/
structure Field where
  off : ℕ
  width : ℕ
  deriving DecidableEq, Repr

namespace Field

/-- One past the last byte of the field. -/
def stop (f : Field) : ℕ := f.off + f.width

/-- The position `i` lies in the field. -/
def Covers (f : Field) (i : ℕ) : Prop := f.off ≤ i ∧ i < f.stop

instance (f : Field) (i : ℕ) : Decidable (f.Covers i) := inferInstanceAs (Decidable (_ ∧ _))

/-- The two fields share no byte. -/
def Disjoint (f g : Field) : Prop := f.stop ≤ g.off ∨ g.stop ≤ f.off

instance (f g : Field) : Decidable (f.Disjoint g) := inferInstanceAs (Decidable (_ ∨ _))

/-- The bytes the field holds. -/
def slice (f : Field) (bs : Bytes) : Bytes := (bs.drop f.off).take f.width

/-- Overwrite the field in place. -/
def put (f : Field) (bs new : Bytes) : Bytes :=
  bs.mapIdx fun i b => if f.Covers i then new.getD (i - f.off) b else b

/-- Store a number in the field, little-endian. -/
def setLE (f : Field) (bs : Bytes) (v : ℕ) : Bytes := f.put bs (leBytes f.width v)

/-- Store a number in the field, big-endian. -/
def setBE (f : Field) (bs : Bytes) (v : ℕ) : Bytes := f.put bs (beBytes f.width v)

/-- The number in the field, little-endian. -/
def getLE (f : Field) (bs : Bytes) : ℕ := ofLE (f.slice bs)

/-- The number in the field, big-endian. -/
def getBE (f : Field) (bs : Bytes) : ℕ := ofBE (f.slice bs)

variable {f g : Field} {bs new : Bytes}

@[simp]
theorem length_put : (f.put bs new).length = bs.length := by simp [put]

@[simp]
theorem length_setLE {v : ℕ} : (f.setLE bs v).length = bs.length := length_put

@[simp]
theorem length_setBE {v : ℕ} : (f.setBE bs v).length = bs.length := length_put

/-- A byte outside the written field is untouched. -/
theorem getElem?_put_of_outside {i : ℕ} (h : ¬ f.Covers i) : (f.put bs new)[i]? = bs[i]? := by
  rw [put, List.getElem?_mapIdx]
  simp [h]

/-- Bytes past the written field are untouched, as a block. -/
theorem drop_put {n : ℕ} (h : f.stop ≤ n) : (f.put bs new).drop n = bs.drop n := by
  refine List.ext_getElem? fun i => ?_
  rw [List.getElem?_drop, List.getElem?_drop]
  exact getElem?_put_of_outside fun hc => absurd hc.2 (by omega)

/-- Reading the field back gives what was put. -/
theorem slice_put_self (h : f.stop ≤ bs.length) (hn : new.length = f.width) :
    f.slice (f.put bs new) = new := by
  have hcov : ∀ i, i < f.width → f.Covers (f.off + i) := fun i hi =>
    ⟨Nat.le_add_right _ _, Nat.add_lt_add_left hi _⟩
  refine List.ext_getElem? fun i => ?_
  simp only [slice, List.getElem?_take, List.getElem?_drop]
  by_cases hi : i < f.width
  · have hlt : f.off + i < bs.length := lt_of_lt_of_le (hcov i hi).2 h
    rw [if_pos hi, put, List.getElem?_mapIdx, List.getElem?_eq_getElem hlt, Option.map_some,
      if_pos (hcov i hi), Nat.add_sub_cancel_left, List.getD_eq_getElem?_getD,
      List.getElem?_eq_getElem (by omega), Option.getD_some]
  · rw [if_neg hi, List.getElem?_eq_none (by omega)]

/-- A field disjoint from the written one reads the same bytes. -/
theorem slice_put_of_disjoint (h : g.Disjoint f) : g.slice (f.put bs new) = g.slice bs := by
  refine List.ext_getElem? fun i => ?_
  simp only [slice, List.getElem?_take, List.getElem?_drop]
  split_ifs with hi
  · refine getElem?_put_of_outside fun hc => ?_
    simp only [Covers, Disjoint, stop] at hc h
    omega
  · rfl

/-- A field that has been written reads back, cut to its width. -/
theorem getLE_setLE_self {v : ℕ} (h : f.stop ≤ bs.length) :
    f.getLE (f.setLE bs v) = v % 256 ^ f.width := by
  rw [getLE, setLE, slice_put_self h (length_leBytes _ _), ofLE_leBytes]

theorem getBE_setBE_self {v : ℕ} (h : f.stop ≤ bs.length) :
    f.getBE (f.setBE bs v) = v % 256 ^ f.width := by
  rw [getBE, setBE, slice_put_self h (length_beBytes _ _), ofBE_beBytes]

theorem slice_setLE_of_disjoint {v : ℕ} (h : g.Disjoint f) :
    g.slice (f.setLE bs v) = g.slice bs := slice_put_of_disjoint h

theorem slice_setBE_of_disjoint {v : ℕ} (h : g.Disjoint f) :
    g.slice (f.setBE bs v) = g.slice bs := slice_put_of_disjoint h

theorem getLE_setLE_of_disjoint {v : ℕ} (h : g.Disjoint f) :
    g.getLE (f.setLE bs v) = g.getLE bs := by rw [getLE, getLE, slice_setLE_of_disjoint h]

theorem getLE_setBE_of_disjoint {v : ℕ} (h : g.Disjoint f) :
    g.getLE (f.setBE bs v) = g.getLE bs := by rw [getLE, getLE, slice_setBE_of_disjoint h]

theorem getBE_setLE_of_disjoint {v : ℕ} (h : g.Disjoint f) :
    g.getBE (f.setLE bs v) = g.getBE bs := by rw [getBE, getBE, slice_setLE_of_disjoint h]

theorem getBE_setBE_of_disjoint {v : ℕ} (h : g.Disjoint f) :
    g.getBE (f.setBE bs v) = g.getBE bs := by rw [getBE, getBE, slice_setBE_of_disjoint h]

/-- A field that lies in a prefix of the buffer is read from that prefix. -/
theorem slice_append_left {rest : Bytes} (h : f.stop ≤ bs.length) :
    f.slice (bs ++ rest) = f.slice bs := by
  simp only [stop] at h
  rw [slice, slice, List.drop_append_of_le_length (by omega),
    List.take_append_of_le_length (by rw [List.length_drop]; omega)]

theorem getLE_append_left {rest : Bytes} (h : f.stop ≤ bs.length) :
    f.getLE (bs ++ rest) = f.getLE bs := by rw [getLE, getLE, slice_append_left h]

theorem getBE_append_left {rest : Bytes} (h : f.stop ≤ bs.length) :
    f.getBE (bs ++ rest) = f.getBE bs := by rw [getBE, getBE, slice_append_left h]

end Field

end Wire
