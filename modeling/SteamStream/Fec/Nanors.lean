import SteamStream.Library.Erasure
import SteamStream.Library.Wire
import Mathlib.Data.Nat.Bitwise

/-!
# nanors: the Reed–Solomon encoder

The vendored C library behind the video and audio FEC. `reedSolomonNew` builds the parity
matrix, `reedSolomonEncode` multiplies it with the data shards (`gemm`), one `axpy` per matrix
entry. Arithmetic is that of GF(2⁸) modulo the polynomial 285, the one the lookup tables of the
library were generated from; `gf28Inv` is its table of inverses, with `0 ↦ 0`.

The shards are rows of bytes and no operation mixes two positions of a row, so the encoder is a
systematic code applied to every byte column: `column_gemm` and `code`.
-/

namespace SteamStream.Nanors

open Wire Erasure

/-! ### GF(2⁸) -/

/-- Multiplication by the generator: a shift, reduced by the polynomial 285. -/
def xtime (a : UInt8) : UInt8 := if 128 ≤ a then (a <<< 1) ^^^ 29 else a <<< 1

/-- Shift-and-add multiplication over the low `n` bits of `b`. -/
def gf28MulBits : ℕ → UInt8 → UInt8 → UInt8
  | 0, _, _ => 0
  | n + 1, a, b => (if b % 2 = 1 then a else 0) ^^^ gf28MulBits n (xtime a) (b >>> 1)

/-- The entry `GF2_8_MUL[a << 8 | b]` of the multiplication table. -/
def gf28Mul (a b : UInt8) : UInt8 := gf28MulBits 8 a b

/-- The table `GF2_8_INV`. -/
def gf28InvTable : List UInt8 :=
  [0, 1, 142, 244, 71, 167, 122, 186, 173, 157, 221, 152, 61, 170, 93, 150,
   216, 114, 192, 88, 224, 62, 76, 102, 144, 222, 85, 128, 160, 131, 75, 42,
   108, 237, 57, 81, 96, 86, 44, 138, 112, 208, 31, 74, 38, 139, 51, 110,
   72, 137, 111, 46, 164, 195, 64, 94, 80, 34, 207, 169, 171, 12, 21, 225,
   54, 95, 248, 213, 146, 78, 166, 4, 48, 136, 43, 30, 22, 103, 69, 147,
   56, 35, 104, 140, 129, 26, 37, 97, 19, 193, 203, 99, 151, 14, 55, 65,
   36, 87, 202, 91, 185, 196, 23, 77, 82, 141, 239, 179, 32, 236, 47, 50,
   40, 209, 17, 217, 233, 251, 218, 121, 219, 119, 6, 187, 132, 205, 254, 252,
   27, 84, 161, 29, 124, 204, 228, 176, 73, 49, 39, 45, 83, 105, 2, 245,
   24, 223, 68, 79, 155, 188, 15, 92, 11, 220, 189, 148, 172, 9, 199, 162,
   28, 130, 159, 198, 52, 194, 70, 5, 206, 59, 13, 60, 156, 8, 190, 183,
   135, 229, 238, 107, 235, 242, 191, 175, 197, 100, 7, 123, 149, 154, 174, 182,
   18, 89, 165, 53, 101, 184, 163, 158, 210, 247, 98, 90, 133, 125, 168, 58,
   41, 113, 200, 246, 249, 67, 215, 214, 16, 115, 118, 120, 153, 10, 25, 145,
   20, 63, 230, 240, 134, 177, 226, 241, 250, 116, 243, 180, 109, 33, 178, 106,
   227, 231, 181, 234, 3, 143, 211, 201, 66, 212, 232, 117, 127, 255, 126, 253]

/-- The multiplicative inverse, `0` for `0`. -/
def gf28Inv (a : ℕ) : UInt8 := gf28InvTable.getD a 0

private theorem gf28MulBits_zero_left (n : ℕ) (b : UInt8) : gf28MulBits n 0 b = 0 := by
  induction n generalizing b with
  | zero => rfl
  | succ n ih =>
    have h : xtime 0 = 0 := by decide
    rw [gf28MulBits, h, ih]
    split_ifs <;> rfl

@[simp]
theorem gf28Mul_zero_left (b : UInt8) : gf28Mul 0 b = 0 := gf28MulBits_zero_left 8 b

private theorem gf28Mul_one_ofNat : ∀ n < 256, gf28Mul 1 (UInt8.ofNat n) = UInt8.ofNat n := by
  decide +kernel

@[simp]
theorem gf28Mul_one_left (b : UInt8) : gf28Mul 1 b = b := by
  simpa using gf28Mul_one_ofNat b.toNat b.toNat_lt

/-! ### Row operations -/

/-- `a += u * b`, with the shortcuts of the source for the scalars `0` and `1`. -/
def axpy (a b : Bytes) (u : UInt8) : Bytes :=
  if u = 0 then a
  else if u = 1 then a.mapIdx fun i x => x ^^^ b.getD i 0
  else a.mapIdx fun i x => x ^^^ gf28Mul u (b.getD i 0)

/-- The rows of a matrix product: each row starts at zero and accumulates one scaled shard for
every matrix entry. -/
def gemm (a : List (List UInt8)) (b : List Bytes) (m : ℕ) : List Bytes :=
  a.map fun ap => (ap.zip b).foldl (fun c p => axpy c p.2 p.1) (List.replicate m 0)

/-- The shortcuts compute what the general case would. -/
theorem axpy_eq_mapIdx (a b : Bytes) (u : UInt8) :
    axpy a b u = a.mapIdx fun i x => x ^^^ gf28Mul u (b.getD i 0) := by
  unfold axpy
  split_ifs with h0 h1
  · subst h0
    refine List.ext_getElem? fun i => ?_
    simp
  · simp [h1]
  · rfl

@[simp]
theorem length_axpy (a b : Bytes) (u : UInt8) : (axpy a b u).length = a.length := by
  rw [axpy_eq_mapIdx, List.length_mapIdx]

/-- `axpy` acts on every position separately. -/
theorem getD_axpy {a b : Bytes} (u : UInt8) {c : ℕ} (hc : c < a.length) :
    (axpy a b u).getD c 0 = a.getD c 0 ^^^ gf28Mul u (b.getD c 0) := by
  rw [axpy_eq_mapIdx]
  simp only [List.getD_eq_getElem?_getD, List.getElem?_mapIdx, List.getElem?_eq_getElem hc,
    Option.map_some, Option.getD_some]

/-- The scalar product of a matrix row with a column of symbols. -/
def dot (row col : List UInt8) : UInt8 :=
  (row.zip col).foldl (fun acc p => acc ^^^ gf28Mul p.1 p.2) 0

private theorem getD_foldl_axpy {c : ℕ} (ps : List (UInt8 × Bytes)) (acc : Bytes)
    (hc : c < acc.length) :
    (ps.foldl (fun acc p => axpy acc p.2 p.1) acc).getD c 0 =
      (ps.map fun p => (p.1, p.2.getD c 0)).foldl
        (fun acc p => acc ^^^ gf28Mul p.1 p.2) (acc.getD c 0) := by
  induction ps generalizing acc with
  | nil => rfl
  | cons p ps ih =>
    rw [List.foldl_cons, List.map_cons, List.foldl_cons, ih _ (by rwa [length_axpy]),
      getD_axpy _ hc]

private theorem length_foldl_axpy (ps : List (UInt8 × Bytes)) (acc : Bytes) :
    (ps.foldl (fun acc p => axpy acc p.2 p.1) acc).length = acc.length := by
  induction ps generalizing acc with
  | nil => rfl
  | cons p ps ih => rw [List.foldl_cons, ih, length_axpy]

section Gemm

variable {a : List (List UInt8)} {b : List Bytes} {m : ℕ}

@[simp]
theorem length_gemm : (gemm a b m).length = a.length := by simp [gemm]

/-- Every row of the product has the requested length. -/
theorem length_of_mem_gemm {r : Bytes} (hr : r ∈ gemm a b m) : r.length = m := by
  obtain ⟨ap, -, rfl⟩ := List.mem_map.mp hr
  rw [length_foldl_axpy, List.length_replicate]

/-- **The product is computed column by column.** -/
theorem column_gemm {c : ℕ} (hc : c < m) :
    column 0 (gemm a b m) c = a.map fun ap => dot ap (column 0 b c) := by
  rw [column, gemm, List.map_map]
  refine List.map_congr_left fun ap _ => ?_
  have hz : (ap.zip b).map (fun p => (p.1, p.2.getD c 0)) = ap.zip (column 0 b c) := by
    rw [column, List.zip_map_right]
    rfl
  rw [Function.comp_apply, dot, getD_foldl_axpy _ _ (by simpa using hc), hz]
  simp [hc]

/-- The combination of `b` under one matrix row, `m` bytes of it. -/
def combine (row : List UInt8) (b : List Bytes) (m : ℕ) : Bytes :=
  (List.range m).map fun c => dot row (column 0 b c)

@[simp]
theorem length_combine {row : List UInt8} : (combine row b m).length = m := by simp [combine]

/-- Each row of the product is the combination under a row of the matrix. -/
theorem gemm_eq_combine : gemm a b m = a.map fun row => combine row b m := by
  refine List.ext_getElem (by simp) fun i hi hi' => ?_
  rw [length_gemm] at hi
  refine List.ext_getElem ?_ fun c hc hc' => ?_
  · rw [length_of_mem_gemm (List.getElem_mem _), List.getElem_map, length_combine]
  · rw [length_of_mem_gemm (List.getElem_mem _)] at hc
    have hcol := congrArg (fun col => col[i]?) (column_gemm (a := a) (b := b) hc)
    simp only [getElem?_column, List.getElem?_map, List.getElem?_eq_getElem hi,
      List.getElem?_eq_getElem (show i < (gemm a b m).length by rwa [length_gemm]),
      Option.map_some, Option.some.injEq] at hcol
    rw [List.getD_eq_getElem _ _ (by rwa [length_of_mem_gemm (List.getElem_mem _)])] at hcol
    simp only [hcol, List.getElem_map, combine, List.getElem_range]

/-- What is left of a combination without its first bytes combines the rows without theirs. -/
theorem drop_combine {row : List UInt8} (k : ℕ) :
    (combine row b m).drop k = combine row (b.map (·.drop k)) (m - k) := by
  refine List.ext_getElem (by simp) fun c hc hc' => ?_
  simp only [combine, List.getElem_drop, List.getElem_map, List.getElem_range, column,
    List.map_map]
  refine congrArg _ (List.map_congr_left fun r _ => ?_)
  simp [List.getD_eq_getElem?_getD]

end Gemm

/-! ### The encoder -/

/-- `DATA_SHARDS_MAX`. -/
def dataShardsMax : ℕ := 255

/-- The `reed_solomon` structure: the shard counts and the parity matrix. -/
structure ReedSolomon where
  ds : ℕ
  ps : ℕ
  p : List (List UInt8)

/-- `ds + ps`. -/
def ReedSolomon.ts (rs : ReedSolomon) : ℕ := rs.ds + rs.ps

/-- `none` is the null pointer. -/
def reedSolomonNew (ds ps : ℕ) : Option ReedSolomon :=
  if dataShardsMax < ds + ps ∨ ds ≤ 0 ∨ ps ≤ 0 then none
  else some
    { ds, ps
      p := (List.range ps).map fun j => (List.range ds).map fun i => gf28Inv ((ps + i) ^^^ j) }

/-- The shards after encoding: the data shards as they were, the parity shards overwritten;
`none` is the error return. -/
def reedSolomonEncode (rs : ReedSolomon) (shards : List Bytes) (nrShards bs : ℕ) :
    Option (List Bytes) :=
  if nrShards < rs.ts then none
  else some (shards.take rs.ds ++ gemm rs.p (shards.take rs.ds) bs ++ shards.drop rs.ts)

/-- The column code of a `reed_solomon` structure. -/
def ReedSolomon.code (rs : ReedSolomon) : Code UInt8 where
  data := rs.ds
  parity := rs.ps
  encode col := rs.p.map fun row => dot row col

theorem reedSolomonNew_eq_some {ds ps : ℕ} (h : ds + ps ≤ dataShardsMax) (hds : 0 < ds)
    (hps : 0 < ps) : ∃ rs, reedSolomonNew ds ps = some rs ∧ rs.ds = ds ∧ rs.ps = ps ∧
      rs.p.length = ps := by
  refine ⟨_, if_neg (by omega), rfl, rfl, by simp⟩

/-- **Every column of an encoded block is a codeword.** -/
theorem isCodeword_column_encode {rs : ReedSolomon} (hp : rs.p.length = rs.ps)
    {data : List Bytes} {bs c : ℕ} (hlen : data.length = rs.ds) (hc : c < bs) :
    rs.code.IsCodeword (column 0 (data ++ gemm rs.p data bs) c) := by
  constructor
  · simp [ReedSolomon.code, hlen, hp]
  · rw [column_append, column_gemm hc]
    have hl : (column 0 data c).length = rs.code.data := by simpa [ReedSolomon.code] using hlen
    rw [List.drop_left' hl, List.take_left' hl]
    rfl

end SteamStream.Nanors
