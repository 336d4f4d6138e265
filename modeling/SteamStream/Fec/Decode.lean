import SteamStream.Fec.Field
import SteamStream.Library.Elimination

/-!
# nanors: the Reed–Solomon decoder

`reed_solomon_decode` puts a received parity shard in the place of each data shard that was lost,
takes what the other data shards contribute to it away, and solves the linear equations that are
left. `invert_mat` does so by elimination without a choice of pivots: in the working memory behind
the parity matrix it has the coefficients, and whatever it does to a row of them it does to a shard.

For each position of the shards this is an elimination in GF(2⁸) (`Tracks`), whose steps are those
of `invert_mat` as long as no pivot is zero. So the inversion solves the equations of which
elimination without a choice of pivots finds the solution (`invertMat_spec`).

The working memory has `ps * ds` bytes. A row is divided by its pivot from the pivot on, but over
its whole length: the last one reaches behind the coefficients (`reach_invertMat`), and where these
fill the working memory, behind its end.
-/

namespace SteamStream.Nanors

open Wire Elimination

/-! ### Rows -/

/-- `a *= u`, with the shortcut of the source for the scalars `0` and `1`. -/
def scal (a : Bytes) (u : UInt8) : Bytes := if u < 2 then a else a.map (gf28Mul u)

/-- `axpy` on the shards `i` and `j`. -/
def axpyRow (dst : List Bytes) (i j : ℕ) (u : UInt8) : List Bytes :=
  dst.set i (axpy (dst.getD i []) (dst.getD j []) u)

/-- `scal` on the shard `i`. -/
def scalRow (dst : List Bytes) (i : ℕ) (u : UInt8) : List Bytes :=
  dst.set i (scal (dst.getD i []) u)

/-- What a memory holds, by its addresses. Where it ends is not said here. -/
abbrev Mem := ℕ → UInt8

/-- `axpy` on two rows of the memory that do not overlap. -/
def axpyMem (m : Mem) (a b : ℕ) (u : UInt8) (k : ℕ) : Mem :=
  if u = 0 then m
  else if u = 1 then fun i => if a ≤ i ∧ i < a + k then m i ^^^ m (b + (i - a)) else m i
  else fun i => if a ≤ i ∧ i < a + k then m i ^^^ gf28Mul u (m (b + (i - a))) else m i

/-- `scal` on a row of the memory. -/
def scalMem (m : Mem) (a : ℕ) (u : UInt8) (k : ℕ) : Mem :=
  if u < 2 then m else fun i => if a ≤ i ∧ i < a + k then gf28Mul u (m i) else m i

/-- The end of what `axpy` accesses. -/
def axpyReach (a b : ℕ) (u : UInt8) (k : ℕ) : ℕ := if u = 0 then 0 else max (a + k) (b + k)

/-- The end of what `scal` accesses. -/
def scalReach (a : ℕ) (u : UInt8) (k : ℕ) : ℕ := if u < 2 then 0 else a + k

/-! ### The inversion -/

/-- The working memory, the shards, and the numbers that have been looked up in `GF2_8_INV`. -/
structure Inversion where
  wrk : Mem
  dst : List Bytes
  pivots : List UInt8
  /-- The end of what has been accessed in the working memory. -/
  reach : ℕ

/-- The entry of the parity matrix. -/
def entry (src : List (List UInt8)) (row col : ℕ) : UInt8 := (src.getD row []).getD col 0

section InvertMat

variable (src : List (List UInt8)) (V0 W : ℕ) (c d : List ℕ)

/-- The coefficients of the lost shards, row by row. -/
def loadCoefficients (wrk : Mem) : Mem :=
  (List.range W).foldl (fun wrk i => (List.range W).foldl (fun wrk j =>
    Function.update wrk (i * W + j) (entry src (d.getD i 0) (c.getD (V0 + j) 0))) wrk) wrk

/-- Take what the known shards contribute away. -/
def subtractKnown (dst : List Bytes) : List Bytes :=
  (List.range W).foldl (fun dst v => (List.range V0).foldl (fun dst row =>
    axpyRow dst (c.getD (V0 + v) 0) (c.getD row 0) (entry src (d.getD v 0) (c.getD row 0))) dst) dst

/-- Clear the entry of one row under a pivot. -/
def clearBelow (x : ℕ) (st : Inversion) (row : ℕ) : Inversion :=
  let u := st.wrk (row * W + x)
  { st with
    wrk := axpyMem st.wrk (row * W) (x * W) u W
    dst := axpyRow st.dst (c.getD (V0 + row) 0) (c.getD (V0 + x) 0) u
    reach := max (max st.reach (row * W + x + 1)) (axpyReach (row * W) (x * W) u W) }

/-- Divide a row by its pivot. From the pivot on `scal` goes over the length of a row, so it ends in
the next one. -/
def scalePivot (st : Inversion) (x : ℕ) : Inversion :=
  let pivot := st.wrk (x * W + x)
  let u := gf28Inv pivot.toNat
  { wrk := scalMem st.wrk (x * W + x) u W
    dst := scalRow st.dst (c.getD (V0 + x) 0) u
    pivots := st.pivots ++ [pivot]
    reach := max (max st.reach (x * W + x + 1)) (scalReach (x * W + x) u W) }

/-- One round of the elimination. -/
def pivotStep (st : Inversion) (x : ℕ) : Inversion :=
  (List.range' (x + 1) (W - (x + 1))).foldl (clearBelow V0 W c x) (scalePivot V0 W c st x)

/-- Take a shard that has been restored from one that has not. -/
def substitute (x : ℕ) (st : Inversion) (row : ℕ) : Inversion :=
  let u := st.wrk (row * W + x)
  { st with
    dst := axpyRow st.dst (c.getD (V0 + row) 0) (c.getD (V0 + x) 0) u
    reach := max st.reach (row * W + x + 1) }

/-- One round of the substitution. -/
def backStep (st : Inversion) (x : ℕ) : Inversion :=
  (List.range x).foldl (substitute V0 W c x) st

end InvertMat

/-- `invert_mat`. -/
def invertMat (src : List (List UInt8)) (wrk : Mem) (dst : List Bytes) (V0 K : ℕ) (c d : List ℕ) :
    Inversion :=
  let W := K - V0
  let st : Inversion :=
    { wrk := loadCoefficients src V0 W c d wrk
      dst := subtractKnown src V0 W c d dst
      pivots := []
      reach := W * W }
  let st := (List.range W).foldl (pivotStep V0 W c) st
  (List.range W).reverse.foldl (backStep V0 W c) st

/-! ### The decoder -/

/-- `while (marks[j]) j++`, undefined where it leaves `marks`. -/
def skipMarked (marks : List Bool) (j : ℕ) : Option ℕ :=
  ((marks.drop j).findIdx? (! ·)).map (j + ·)

/-- The first part of `colperm`: the first `n` unmarked positions from `j` on. -/
def knownFrom (marks : List Bool) : ℕ → ℕ → Option (List ℕ)
  | 0, _ => some []
  | n + 1, j => do
    let j ← skipMarked marks j
    let rest ← knownFrom marks n (j + 1)
    return j :: rest

/-- Fill the gaps with the unmarked shards from `j` on, as far as there are any: the rows of the
parity matrix they belong to, and the shards. -/
def fillGaps (ds nrShards bs : ℕ) (marks : List Bool) :
    List ℕ → ℕ → List Bytes → Option (List ℕ × List Bytes)
  | [], _, data => some ([], data)
  | gap :: gaps, j, data => do
    let j ← skipMarked marks j
    if nrShards ≤ j then
      return ([], data)
    let (rowperm, data) ←
      fillGaps ds nrShards bs marks gaps (j + 1) (data.set gap ((data.getD j []).take bs))
    return ((j - ds) :: rowperm, data)

/-- What `reed_solomon_decode` returns, what it leaves in the shards, what it has inverted and how
far it has gone in its working memory. -/
structure Decoded where
  ret : ℤ
  data : List Bytes
  pivots : List UInt8
  reach : ℕ
  deriving DecidableEq, Repr

/-- The body of `reed_solomon_decode`, in a working memory that has no end. A shard is the `bs`
bytes behind its pointer, a mark whether it is not zero, and `wrk` what the memory behind the matrix
holds. -/
def decodeShards (rs : ReedSolomon) (wrk : Mem) (data : List Bytes) (marks : List Bool)
    (nrShards bs : ℕ) : Option Decoded :=
  if nrShards < rs.ts then some ⟨-1, data, [], 0⟩
  else do
    let erasures := (List.range rs.ds).filter fun i => marks.getD i false
    let known ← knownFrom marks (rs.ds - erasures.length) 0
    let (rowperm, data) ← fillGaps rs.ds nrShards bs marks erasures rs.ds data
    if rowperm.length < erasures.length then
      return ⟨-1, data, [], 0⟩
    let inv := invertMat rs.p wrk data (rs.ds - erasures.length) rs.ds (known ++ erasures) rowperm
    return ⟨0, inv.dst, inv.pivots, inv.reach⟩

/-- `wrkSize`: `reed_solomon_bufsize` has room for the matrix twice. -/
def ReedSolomon.wrkSize (rs : ReedSolomon) : ℕ := rs.ps * rs.ds

/-- `reed_solomon_decode`, undefined where it leaves its working memory. -/
def reedSolomonDecode (rs : ReedSolomon) (wrk : Mem) (data : List Bytes) (marks : List Bool)
    (nrShards bs : ℕ) : Option Decoded :=
  (decodeShards rs wrk data marks nrShards bs).filter fun out => out.reach ≤ rs.wrkSize

/-! ### What the row operations do at one position -/

/-- The symbol at position `b` of shard `k`. -/
def sym (dst : List Bytes) (b k : ℕ) : GF256 := ⟨(dst.getD k []).getD b 0⟩

theorem sym_congr {dst dst' : List Bytes} {k k' : ℕ} (h : dst.getD k [] = dst'.getD k' [])
    (b : ℕ) : sym dst b k = sym dst' b k' := by
  rw [sym, sym, h]

/-- `n` shards of `bs` bytes. -/
structure Shards (n bs : ℕ) (dst : List Bytes) : Prop where
  length : dst.length = n
  rows : ∀ r ∈ dst, r.length = bs

section Rows

variable {n bs : ℕ} {dst : List Bytes} {i j : ℕ} {u : UInt8}

theorem Shards.length_getD (h : Shards n bs dst) (hi : i < n) : (dst.getD i []).length = bs := by
  have hi' : i < dst.length := h.length ▸ hi
  rw [List.getD_eq_getElem _ _ hi']
  exact h.rows _ (List.getElem_mem hi')

theorem Shards.set {r : Bytes} (h : Shards n bs dst) (hr : r.length = bs) :
    Shards n bs (dst.set i r) where
  length := by rw [List.length_set, h.length]
  rows r' hr' := by
    rcases List.mem_or_eq_of_mem_set hr' with hmem | rfl
    · exact h.rows r' hmem
    · exact hr

theorem length_scal (a : Bytes) : (scal a u).length = a.length := by
  rw [scal]
  split_ifs
  · rfl
  · exact List.length_map _

theorem Shards.axpyRow (h : Shards n bs dst) (hi : i < n) : Shards n bs (axpyRow dst i j u) :=
  h.set (by rw [length_axpy, h.length_getD hi])

theorem Shards.scalRow (h : Shards n bs dst) (hi : i < n) : Shards n bs (scalRow dst i u) :=
  h.set (by rw [length_scal, h.length_getD hi])

theorem getD_set_self {r : Bytes} (hi : i < dst.length) : (dst.set i r).getD i [] = r := by
  rw [List.getD_eq_getElem?_getD, List.getElem?_set_self hi]
  rfl

/-- The other shards are not touched. -/
theorem getD_set_of_ne {r : Bytes} {k : ℕ} (hk : k ≠ i) :
    (dst.set i r).getD k [] = dst.getD k [] := by
  rw [List.getD_eq_getElem?_getD, List.getElem?_set_ne (Ne.symm hk), ← List.getD_eq_getElem?_getD]

theorem sym_axpyRow (h : Shards n bs dst) (hi : i < n) (hj : j < n) (b k : ℕ) :
    sym (axpyRow dst i j u) b k =
      if k = i then sym dst b i + ⟨u⟩ * sym dst b j else sym dst b k := by
  rw [sym, Nanors.axpyRow]
  split_ifs with hk
  · rw [hk, getD_set_self (h.length.symm ▸ hi)]
    rcases Nat.lt_or_ge b bs with hb | hb
    · rw [getD_axpy u (by rwa [h.length_getD hi])]
      rfl
    · -- behind the end of the shards there are zeros everywhere
      have hzero : ∀ r : Bytes, r.length = bs → r.getD b 0 = 0 := fun r hr =>
        List.getD_eq_default _ _ (by rwa [hr])
      rw [sym, sym, hzero _ (h.length_getD hi), hzero _ (h.length_getD hj),
        hzero _ (by rw [length_axpy, h.length_getD hi])]
      exact ((zero_add _).trans (mul_zero (⟨u⟩ : GF256))).symm
  · rw [getD_set_of_ne hk]
    rfl

private theorem eq_one_of_lt_two (h : u < 2) (h0 : u ≠ 0) : u = 1 := by
  have hlt : u.toNat < 2 := UInt8.lt_iff_toNat_lt.mp h
  have hne : u.toNat ≠ 0 := fun h => h0 (UInt8.toNat_inj.mp h)
  exact UInt8.toNat_inj.mp (by change u.toNat = 1; omega)

private theorem getD_map_gf28Mul (a : Bytes) (b : ℕ) :
    (a.map (gf28Mul u)).getD b 0 = gf28Mul u (a.getD b 0) := by
  have hzero : gf28Mul u 0 = 0 := (gf28Mul_xor_right u).zero
  rw [List.getD_eq_getElem?_getD, List.getD_eq_getElem?_getD, List.getElem?_map]
  cases a[b]? with
  | none => exact hzero.symm
  | some x => rfl

/-- The shortcuts of `scal` are right for every scalar but zero. -/
theorem sym_scalRow (h : Shards n bs dst) (hi : i < n) (hu : u ≠ 0) (b k : ℕ) :
    sym (scalRow dst i u) b k = if k = i then ⟨u⟩ * sym dst b i else sym dst b k := by
  rw [sym, Nanors.scalRow]
  split_ifs with hk
  · rw [hk, getD_set_self (h.length.symm ▸ hi), scal]
    split_ifs with hsmall
    · rw [eq_one_of_lt_two hsmall hu]
      exact (one_mul (sym dst b i)).symm
    · rw [getD_map_gf28Mul]
      rfl
  · rw [getD_set_of_ne hk]
    rfl

end Rows

/-! ### What they do to the coefficients -/

section Memory

variable {m : Mem} {W x : ℕ} {u : UInt8} {i j : ℕ}

/-- The coefficients in the memory, which has rows of `W` entries. -/
def coef (W : ℕ) (m : Mem) (i j : ℕ) : GF256 := ⟨m (i * W + j)⟩

/-- The rows of the memory do not overlap. -/
private theorem mem_row_iff {r : ℕ} (hj : j < W) :
    (r * W ≤ i * W + j ∧ i * W + j < r * W + W) ↔ i = r := by
  constructor
  · rintro ⟨hle, hlt⟩
    refine le_antisymm (Nat.le_of_lt_succ ?_) (Nat.le_of_lt_succ ?_)
    · refine lt_of_mul_lt_mul_right (a := W) ?_ (Nat.zero_le W)
      rw [Nat.succ_mul]
      omega
    · refine lt_of_mul_lt_mul_right (a := W) ?_ (Nat.zero_le W)
      rw [Nat.succ_mul]
      omega
  · rintro rfl
    omega

theorem coef_axpyMem {r : ℕ} (hj : j < W) :
    coef W (axpyMem m (r * W) (x * W) u W) i j =
      if i = r then coef W m i j + ⟨u⟩ * coef W m x j else coef W m i j := by
  have hgeneral : axpyMem m (r * W) (x * W) u W = fun a =>
      if r * W ≤ a ∧ a < r * W + W then m a ^^^ gf28Mul u (m (x * W + (a - r * W))) else m a := by
    funext a
    by_cases h0 : u = 0
    · simp [axpyMem, h0]
    · by_cases h1 : u = 1
      · simp [axpyMem, h1]
      · simp [axpyMem, h0, h1]
  rw [coef, hgeneral]
  simp only [mem_row_iff hj]
  split_ifs with hir
  · rw [hir, Nat.add_sub_cancel_left]
    rfl
  · rfl

/-- `scal` from the diagonal on scales the row where it is zero in front of it; the entries of the
next row it reaches are zero as well. -/
theorem coef_scalMem (hu : u ≠ 0) (hj : j < W) (hx : x < W)
    (hzero : ∀ c < x, ∀ r, c < r → r < W → coef W m r c = 0) (hi : i < W) :
    coef W (scalMem m (x * W + x) u W) i j =
      if i = x then ⟨u⟩ * coef W m i j else coef W m i j := by
  have hgeneral : scalMem m (x * W + x) u W = fun a =>
      if x * W + x ≤ a ∧ a < x * W + x + W then gf28Mul u (m a) else m a := by
    funext a
    by_cases hsmall : u < 2
    · simp [scalMem, eq_one_of_lt_two hsmall hu]
    · simp [scalMem, hsmall]
  -- what is scaled besides the row of the pivot is zero
  have hscaled : coef W m i j = 0 ∨
      (x * W + x ≤ i * W + j ∧ i * W + j < x * W + x + W ↔ i = x) := by
    rcases lt_trichotomy i x with hlt | rfl | hgt
    · have hrow := Nat.mul_le_mul_right W (Nat.succ_le_of_lt hlt)
      rw [Nat.succ_mul] at hrow
      exact .inr (by omega)
    · rcases Nat.lt_or_ge j i with hji | hji
      · exact .inl (hzero j hji i hji hi)
      · exact .inr (by omega)
    · rcases Nat.lt_or_ge j x with hjx | hjx
      · exact .inl (hzero j hjx i (hjx.trans hgt) hi)
      · have hrow := Nat.mul_le_mul_right W (Nat.succ_le_of_lt hgt)
        rw [Nat.succ_mul] at hrow
        exact .inr (by omega)
  rw [coef, hgeneral]
  rcases hscaled with hsym | hiff
  · have hbyte : m (i * W + j) = 0 := congrArg GF256.byte hsym
    have hmul : gf28Mul u 0 = 0 := (gf28Mul_xor_right u).zero
    simp only [coef, hbyte, hmul, ite_self]
    split_ifs
    · exact (mul_zero (⟨u⟩ : GF256)).symm
    · rfl
  · simp only [hiff]
    split_ifs <;> rfl

end Memory

/-! ### The elimination behind the inversion -/

/-- `colperm` names each of the `n` shards once. -/
structure Columns (n V0 W : ℕ) (c : List ℕ) : Prop where
  lt : ∀ i < V0 + W, c.getD i 0 < n
  inj : ∀ i < V0 + W, ∀ j < V0 + W, c.getD i 0 = c.getD j 0 → i = j

/-- At each position `b` of the shards the inversion is at the system `S b`: its coefficients are in
the memory, its right-hand sides in the shards to be restored; the other shards are those of
`known`. -/
structure Tracks (n bs V0 W : ℕ) (c : List ℕ) (known : List Bytes) (st : Inversion)
    (S : ℕ → LinSys GF256) : Prop where
  shards : Shards n bs st.dst
  mat : ∀ b, ∀ i < W, ∀ j < W, coef W st.wrk i j = (S b).mat i j
  rhs : ∀ b, ∀ i < W, sym st.dst b (c.getD (V0 + i) 0) = (S b).rhs i
  kept : ∀ k, (∀ i < W, c.getD (V0 + i) 0 ≠ k) → st.dst.getD k [] = known.getD k []

section Tracks

variable {n bs V0 W : ℕ} {c : List ℕ} {known : List Bytes} {st : Inversion}
  {S : ℕ → LinSys GF256} {x r : ℕ}

theorem Columns.ne (hc : Columns n V0 W c) {i j : ℕ} (hi : i < W) (hj : j < W) (hij : i ≠ j) :
    c.getD (V0 + i) 0 ≠ c.getD (V0 + j) 0 := by
  intro heq
  have hsame := hc.inj _ (Nat.add_lt_add_left hi V0) _ (Nat.add_lt_add_left hj V0) heq
  exact hij (Nat.add_left_cancel hsame)

theorem Columns.known_ne (hc : Columns n V0 W c) {row : ℕ} (hrow : row < V0) :
    ∀ i < W, c.getD (V0 + i) 0 ≠ c.getD row 0 := by
  intro i hi heq
  have hsame := hc.inj _ (Nat.add_lt_add_left hi V0) row (Nat.lt_add_right W hrow) heq
  omega

/-- Steps that do the same to the system are tracked one after the other. -/
theorem Tracks.foldl {f : Inversion → ℕ → Inversion} {g : LinSys GF256 → ℕ → LinSys GF256}
    {rows : List ℕ} (h : Tracks n bs V0 W c known st S)
    (hstep : ∀ r ∈ rows, ∀ (st : Inversion) (S : ℕ → LinSys GF256),
      Tracks n bs V0 W c known st S → Tracks n bs V0 W c known (f st r) fun b => g (S b) r) :
    Tracks n bs V0 W c known (rows.foldl f st) fun b => rows.foldl g (S b) := by
  induction rows generalizing st S with
  | nil => exact h
  | cons r rows ih =>
    obtain ⟨hfirst, hrest⟩ := List.forall_mem_cons.mp hstep
    exact ih (hfirst st S h) hrest

/-- Subtracting a multiple of one of the shards to be restored from another. -/
theorem Tracks.rhs_axpyRow (h : Tracks n bs V0 W c known st S) (hc : Columns n V0 W c) (hr : r < W)
    (hx : x < W) {u : UInt8} (b : ℕ) {i : ℕ} (hi : i < W) :
    sym (axpyRow st.dst (c.getD (V0 + r) 0) (c.getD (V0 + x) 0) u) b (c.getD (V0 + i) 0) =
      if i = r then (S b).rhs i - ⟨u⟩ * (S b).rhs x else (S b).rhs i := by
  rw [sym_axpyRow h.shards (hc.lt _ (Nat.add_lt_add_left hr V0))
    (hc.lt _ (Nat.add_lt_add_left hx V0)), h.rhs b r hr, h.rhs b x hx, h.rhs b i hi]
  by_cases hir : i = r
  · rw [if_pos (by rw [hir]), if_pos hir, hir, GF256.sub_eq_add]
  · rw [if_neg (hc.ne hi hr hir), if_neg hir]

theorem Tracks.inv_pivot (h : Tracks n bs V0 W c known st S) (b : ℕ) (hx : x < W) :
    (⟨gf28Inv (st.wrk (x * W + x)).toNat⟩ : GF256) = ((S b).mat x x)⁻¹ := by
  rw [GF256.mk_inv, ← h.mat b x hx x hx]
  rfl

theorem Tracks.inv_pivot_ne_zero (h : Tracks n bs V0 W c known st S) {b : ℕ} (hx : x < W)
    (hpivot : (S b).mat x x ≠ 0) : gf28Inv (st.wrk (x * W + x)).toNat ≠ 0 := by
  intro hzero
  refine inv_ne_zero hpivot ?_
  rw [← h.inv_pivot b hx, hzero]
  rfl

theorem Tracks.scalePivot (h : Tracks n bs V0 W c known st S) (hc : Columns n V0 W c) (hx : x < W)
    (hpivot : ∀ b, (S b).mat x x ≠ 0) (hS : ∀ b, (S b).Eliminated W x) :
    Tracks n bs V0 W c known (scalePivot V0 W c st x)
      fun b => (S b).scaleRow x ((S b).mat x x)⁻¹ where
  shards := h.shards.scalRow (hc.lt _ (Nat.add_lt_add_left hx V0))
  mat b i hi j hj := by
    have hzero : ∀ c < x, ∀ r, c < r → r < W → coef W st.wrk r c = 0 := fun c hcx r hcr hr =>
      (h.mat b r hr c (hcx.trans hx)).trans ((hS b).below c hcx r hr hcr)
    simp only [Nanors.scalePivot, LinSys.scaleRow]
    rw [coef_scalMem (h.inv_pivot_ne_zero hx (hpivot b)) hj hx hzero hi, h.inv_pivot b hx,
      h.mat b i hi j hj]
  rhs b i hi := by
    have hshards := hc.lt _ (Nat.add_lt_add_left hx V0)
    simp only [Nanors.scalePivot, LinSys.scaleRow]
    rw [sym_scalRow h.shards hshards (h.inv_pivot_ne_zero hx (hpivot b)), h.inv_pivot b hx,
      h.rhs b x hx, h.rhs b i hi]
    by_cases hix : i = x
    · rw [if_pos (by rw [hix]), if_pos hix, hix]
    · rw [if_neg (hc.ne hi hx hix), if_neg hix]
  kept k hk := by
    rw [← h.kept k hk]
    exact getD_set_of_ne (hk x hx).symm

theorem Tracks.clearBelow (h : Tracks n bs V0 W c known st S) (hc : Columns n V0 W c) (hx : x < W)
    (hr : r < W) :
    Tracks n bs V0 W c known (clearBelow V0 W c x st r) fun b => (S b).clearRow x r where
  shards := h.shards.axpyRow (hc.lt _ (Nat.add_lt_add_left hr V0))
  mat b i hi j hj := by
    simp only [Nanors.clearBelow, LinSys.clearRow]
    rw [coef_axpyMem hj, h.mat b i hi j hj, h.mat b x hx j hj, ← h.mat b r hr x hx]
    rfl
  rhs b i hi := by
    simp only [Nanors.clearBelow, LinSys.clearRow]
    rw [h.rhs_axpyRow hc hr hx b hi, ← h.mat b r hr x hx]
    rfl
  kept k hk := by
    rw [← h.kept k hk]
    exact getD_set_of_ne (hk r hr).symm

theorem Tracks.pivotStep (h : Tracks n bs V0 W c known st S) (hc : Columns n V0 W c) (hx : x < W)
    (hpivot : ∀ b, (S b).mat x x ≠ 0) (hS : ∀ b, (S b).Eliminated W x) :
    Tracks n bs V0 W c known (pivotStep V0 W c st x) fun b => (S b).pivot W x := by
  refine (h.scalePivot hc hx hpivot hS).foldl fun r hr _ _ h => h.clearBelow hc hx ?_
  have hr := List.mem_range'_1.mp hr
  omega

/-- The inverted numbers are the pivots. -/
theorem pivots_pivotStep :
    (pivotStep V0 W c st x).pivots = st.pivots ++ [st.wrk (x * W + x)] :=
  List.foldlRecOn (motive := fun t : Inversion => t.pivots = st.pivots ++ [st.wrk (x * W + x)]) _ _
    rfl fun _ ht _ _ => ht

/-- The rounds of the elimination are those of `LinSys.forward`. -/
theorem Tracks.forward (h : Tracks n bs V0 W c known st S) (hc : Columns n V0 W c)
    (hreg : ∀ b, (S b).Regular W) (hx : x ≤ W) (hpivots : st.pivots = []) :
    let st' := (List.range x).foldl (Nanors.pivotStep V0 W c) st
    Tracks n bs V0 W c known st' (fun b => (S b).forward W x) ∧
      st'.pivots = (List.range x).map fun k => (((S 0).forward W k).mat k k).byte := by
  induction x with
  | zero => exact ⟨h, hpivots⟩
  | succ x ih =>
    obtain ⟨htracks, hprev⟩ := ih (Nat.le_of_succ_le hx)
    simp only [List.range_succ, List.foldl_append, List.foldl_cons, List.foldl_nil, List.map_append,
      List.map_cons, List.map_nil, LinSys.forward_succ]
    refine ⟨htracks.pivotStep hc hx (fun b => hreg b x hx)
      (fun b => (hreg b).eliminated (Nat.le_of_succ_le hx)), ?_⟩
    rw [pivots_pivotStep, hprev, ← htracks.mat 0 x hx x hx]
    rfl

theorem Tracks.substitute (h : Tracks n bs V0 W c known st S) (hc : Columns n V0 W c) (hx : x < W)
    (hr : r < W) :
    Tracks n bs V0 W c known (substitute V0 W c x st r) fun b => (S b).backRow x r where
  shards := h.shards.axpyRow (hc.lt _ (Nat.add_lt_add_left hr V0))
  mat := h.mat
  rhs b i hi := by
    simp only [Nanors.substitute, LinSys.backRow]
    rw [h.rhs_axpyRow hc hr hx b hi, ← h.mat b r hr x hx]
    rfl
  kept k hk := by
    rw [← h.kept k hk]
    exact getD_set_of_ne (hk r hr).symm

theorem Tracks.backStep (h : Tracks n bs V0 W c known st S) (hc : Columns n V0 W c) (hx : x < W) :
    Tracks n bs V0 W c known (backStep V0 W c st x) fun b => (S b).back x :=
  h.foldl fun _ hr _ _ h => h.substitute hc hx ((List.mem_range.mp hr).trans hx)

/-- The rounds of the substitution are those of `LinSys.backward`. -/
theorem Tracks.backward (h : Tracks n bs V0 W c known st S) (hc : Columns n V0 W c) :
    Tracks n bs V0 W c known ((List.range W).reverse.foldl (Nanors.backStep V0 W c) st)
      fun b => (S b).backward W :=
  h.foldl fun _ hr _ _ h => h.backStep hc (List.mem_range.mp (List.mem_reverse.mp hr))

end Tracks

/-! ### Its equations -/

section Start

variable {src : List (List UInt8)} {n bs V0 W : ℕ} {c d : List ℕ} {dst : List Bytes} {m : Mem}

private theorem address_eq_iff {i i' j j' : ℕ} (hj : j < W) (hj' : j' < W) :
    i' * W + j' = i * W + j ↔ i' = i ∧ j' = j := by
  constructor
  · intro heq
    have hi : i' = i := (mem_row_iff hj').mp ⟨by omega, by omega⟩
    subst hi
    exact ⟨rfl, Nat.add_left_cancel heq⟩
  · rintro ⟨rfl, rfl⟩
    rfl

theorem coef_loadCoefficients {i j : ℕ} (hi : i < W) (hj : j < W) :
    coef W (loadCoefficients src V0 W c d m) i j =
      ⟨entry src (d.getD i 0) (c.getD (V0 + j) 0)⟩ := by
  have hrow : ∀ (i' : ℕ) (m : Mem), ∀ k ≤ W, ((List.range k).foldl (fun wrk j =>
      Function.update wrk (i' * W + j) (entry src (d.getD i' 0) (c.getD (V0 + j) 0))) m)
        (i * W + j) =
      if i = i' ∧ j < k then entry src (d.getD i 0) (c.getD (V0 + j) 0) else m (i * W + j) := by
    intro i' m k hk
    induction k with
    | zero => simp
    | succ k ih =>
      simp only [List.range_succ, List.foldl_append, List.foldl_cons, List.foldl_nil,
        Function.update_apply, ih (Nat.le_of_succ_le hk), address_eq_iff hk hj]
      by_cases hi' : i = i'
      · subst hi'
        by_cases hjk : j = k
        · simp [hjk]
        · have hlt : j < k + 1 ↔ j < k := by omega
          simp only [hjk, hlt, and_false, true_and, if_false]
      · simp [hi']
  have hrows : ∀ k ≤ W, ((List.range k).foldl (fun wrk i => (List.range W).foldl (fun wrk j =>
      Function.update wrk (i * W + j) (entry src (d.getD i 0) (c.getD (V0 + j) 0))) wrk) m)
        (i * W + j) =
      if i < k then entry src (d.getD i 0) (c.getD (V0 + j) 0) else m (i * W + j) := by
    intro k hk
    induction k with
    | zero => rfl
    | succ k ih =>
      rw [List.range_succ, List.foldl_append, List.foldl_cons, List.foldl_nil, hrow k _ W le_rfl,
        ih (Nat.le_of_succ_le hk)]
      by_cases hik : i = k
      · simp [hik, hj]
      · have hlt : i < k + 1 ↔ i < k := by omega
        simp only [hik, hlt, false_and, if_false]
  rw [coef, loadCoefficients, hrows W le_rfl, if_pos hi]

/-- What the known shards contribute to the equation of row `i`. -/
def knownPart (src : List (List UInt8)) (V0 : ℕ) (c d : List ℕ) (dst : List Bytes) (b i : ℕ) :
    GF256 :=
  ∑ row ∈ Finset.range V0,
    ⟨entry src (d.getD i 0) (c.getD row 0)⟩ * sym dst b (c.getD row 0)

theorem subtractKnown_row (src : List (List UInt8)) (d : List ℕ) (h : Shards n bs dst)
    (hc : Columns n V0 W c) {v : ℕ} (hv : v < W) {k : ℕ} (hk : k ≤ V0) :
    let dst' := (List.range k).foldl (fun dst row =>
      axpyRow dst (c.getD (V0 + v) 0) (c.getD row 0) (entry src (d.getD v 0) (c.getD row 0))) dst
    Shards n bs dst' ∧
      (∀ b, sym dst' b (c.getD (V0 + v) 0) =
        sym dst b (c.getD (V0 + v) 0) + knownPart src k c d dst b v) ∧
      ∀ t, t ≠ c.getD (V0 + v) 0 → dst'.getD t [] = dst.getD t [] := by
  induction k with
  | zero => exact ⟨h, fun b => (add_zero _).symm, fun t _ => rfl⟩
  | succ k ih =>
    obtain ⟨hshards, hsym, hkept⟩ := ih (Nat.le_of_succ_le hk)
    have htarget : c.getD (V0 + v) 0 < n := hc.lt _ (Nat.add_lt_add_left hv V0)
    have hsource : c.getD k 0 < n := hc.lt k (hk.trans (Nat.le_add_right V0 W))
    have hne : c.getD k 0 ≠ c.getD (V0 + v) 0 := (hc.known_ne hk v hv).symm
    simp only [List.range_succ, List.foldl_append, List.foldl_cons, List.foldl_nil]
    refine ⟨hshards.axpyRow htarget, fun b => ?_, fun t ht => ?_⟩
    · rw [sym_axpyRow hshards htarget hsource, if_pos rfl, hsym, sym_congr (hkept _ hne) b,
        add_assoc, knownPart, knownPart, Finset.sum_range_succ]
    · rw [← hkept t ht]
      exact getD_set_of_ne ht

theorem subtractKnown_spec (src : List (List UInt8)) (d : List ℕ) (h : Shards n bs dst)
    (hc : Columns n V0 W c) {k : ℕ} (hk : k ≤ W) :
    let dst' := (List.range k).foldl (fun dst v => (List.range V0).foldl (fun dst row =>
      axpyRow dst (c.getD (V0 + v) 0) (c.getD row 0) (entry src (d.getD v 0) (c.getD row 0))) dst)
      dst
    Shards n bs dst' ∧
      (∀ b, ∀ i < W, sym dst' b (c.getD (V0 + i) 0) = sym dst b (c.getD (V0 + i) 0) +
        if i < k then knownPart src V0 c d dst b i else 0) ∧
      ∀ t, (∀ i < W, c.getD (V0 + i) 0 ≠ t) → dst'.getD t [] = dst.getD t [] := by
  induction k with
  | zero =>
    refine ⟨h, fun b i _ => ?_, fun t _ => rfl⟩
    rw [if_neg (Nat.not_lt_zero i), add_zero]
    rfl
  | succ k ih =>
    obtain ⟨hshards, hsym, hkept⟩ := ih (Nat.le_of_succ_le hk)
    obtain ⟨hshards', hsym', hkept'⟩ := subtractKnown_row src d hshards hc hk le_rfl
    simp only [List.range_succ, List.foldl_append, List.foldl_cons, List.foldl_nil]
    refine ⟨hshards', fun b i hi => ?_, fun t ht => ?_⟩
    · by_cases hik : i = k
      · subst hik
        rw [hsym' b, hsym b i hi, if_neg (lt_irrefl i), if_pos (Nat.lt_succ_self i), add_zero]
        refine congrArg _ (Finset.sum_congr rfl fun row hrow => ?_)
        rw [sym_congr (hkept _ (hc.known_ne (Finset.mem_range.mp hrow))) b]
      · rw [sym_congr (hkept' _ (hc.ne hi hk hik)) b, hsym b i hi]
        simp only [Nat.lt_succ_iff_lt_or_eq, hik, or_false]
    · rw [hkept' t (ht k hk).symm, hkept t ht]

/-- The equations for the lost shards at position `b`. -/
def equations (src : List (List UInt8)) (V0 : ℕ) (c d : List ℕ) (dst : List Bytes) (b : ℕ) :
    LinSys GF256 where
  mat i j := ⟨entry src (d.getD i 0) (c.getD (V0 + j) 0)⟩
  rhs i := sym dst b (c.getD (V0 + i) 0) + knownPart src V0 c d dst b i

theorem tracks_start (src : List (List UInt8)) (d : List ℕ) (m : Mem) (h : Shards n bs dst)
    (hc : Columns n V0 W c) :
    Tracks n bs V0 W c dst
      { wrk := loadCoefficients src V0 W c d m
        dst := subtractKnown src V0 W c d dst
        pivots := []
        reach := W * W }
      (equations src V0 c d dst) := by
  obtain ⟨hshards, hsym, hkept⟩ := subtractKnown_spec src d h hc le_rfl
  refine ⟨hshards, fun b i hi j hj => coef_loadCoefficients hi hj, fun b i hi => ?_, hkept⟩
  refine (hsym b i hi).trans ?_
  rw [if_pos hi]
  rfl

end Start

/-- The substitution inverts nothing. -/
theorem pivots_backStep {V0 W x : ℕ} {c : List ℕ} {st : Inversion} :
    (backStep V0 W c st x).pivots = st.pivots :=
  List.foldlRecOn (motive := fun t : Inversion => t.pivots = st.pivots) _ _ rfl fun _ ht _ _ => ht

/-- **The inversion solves the equations**, without a zero among the numbers it inverts, if
elimination does so without a choice of pivots. -/
theorem invertMat_spec (src : List (List UInt8)) (d : List ℕ) (wrk : Mem) {n bs V0 K : ℕ}
    {c : List ℕ} {dst : List Bytes} {y : ℕ → ℕ → GF256} (h : Shards n bs dst)
    (hc : Columns n V0 (K - V0) c)
    (hreg : ∀ b, (equations src V0 c d dst b).Regular (K - V0))
    (hsolves : ∀ b, (equations src V0 c d dst b).Solves (K - V0) (y b)) :
    let inv := invertMat src wrk dst V0 K c d
    Shards n bs inv.dst ∧
      (∀ b, ∀ i < K - V0, sym inv.dst b (c.getD (V0 + i) 0) = y b i) ∧
      (∀ t, (∀ i < K - V0, c.getD (V0 + i) 0 ≠ t) → inv.dst.getD t [] = dst.getD t []) ∧
      ∀ pivot ∈ inv.pivots, pivot ≠ 0 := by
  obtain ⟨hforward, hpivots⟩ := (tracks_start src d wrk h hc).forward hc hreg le_rfl rfl
  have hback := hforward.backward hc
  refine ⟨hback.shards, fun b i hi => ?_, hback.kept, ?_⟩
  · rw [← LinSys.backward_forward (hsolves b) (hreg b) i hi]
    exact hback.rhs b i hi
  · intro pivot hmem
    have hsame : (invertMat src wrk dst V0 K c d).pivots = _ :=
      List.foldlRecOn (motive := fun t : Inversion => t.pivots = _) _ _ hpivots
        fun _ ht _ _ => pivots_backStep.trans ht
    rw [hsame] at hmem
    obtain ⟨x, hx, rfl⟩ := List.mem_map.mp hmem
    exact fun hzero => hreg 0 x (List.mem_range.mp hx) (GF256.ext hzero)

/-! ### How far it goes -/

section Reach

variable {V0 W x bound : ℕ} {c : List ℕ} {st : Inversion}

/-- A row of the coefficients ends in front of the next one. -/
private theorem row_add_le {r j : ℕ} (hr : r < W) (hj : j ≤ W) : r * W + j ≤ W * W := by
  have hrow := Nat.mul_le_mul_right W (Nat.succ_le_of_lt hr)
  rw [Nat.succ_mul] at hrow
  omega

theorem reach_clearBelow {r : ℕ} (hx : x < W) (hr : r < W) (hbound : W * W ≤ bound)
    (hreach : st.reach ≤ bound) : (clearBelow V0 W c x st r).reach ≤ bound := by
  have hread := row_add_le hr (Nat.succ_le_of_lt hx)
  have haxpy : axpyReach (r * W) (x * W) (st.wrk (r * W + x)) W ≤ W * W := by
    rw [axpyReach]
    split_ifs
    · exact Nat.zero_le _
    · exact max_le (row_add_le hr le_rfl) (row_add_le hx le_rfl)
  exact max_le (max_le hreach (hread.trans hbound)) (haxpy.trans hbound)

/-- Only the last row of the coefficients is left, and by less than a row. -/
theorem reach_scalePivot (hx : x < W) (hbound : W * W + (W - 1) ≤ bound)
    (hreach : st.reach ≤ bound) : (scalePivot V0 W c st x).reach ≤ bound := by
  have hread := row_add_le hx (Nat.succ_le_of_lt hx)
  have hscal : ∀ u, scalReach (x * W + x) u W ≤ W * W + (W - 1) := by
    intro u
    rw [scalReach]
    split_ifs
    · exact Nat.zero_le _
    · have hrow := row_add_le hx le_rfl
      omega
  exact max_le (max_le hreach (hread.trans ((Nat.le_add_right _ _).trans hbound)))
    ((hscal _).trans hbound)

theorem reach_pivotStep (hx : x < W) (hbound : W * W + (W - 1) ≤ bound)
    (hreach : st.reach ≤ bound) : (pivotStep V0 W c st x).reach ≤ bound := by
  refine List.foldlRecOn (motive := fun t : Inversion => t.reach ≤ bound) _ _
    (reach_scalePivot hx hbound hreach) fun _ ht r hr => ?_
  have hr := List.mem_range'_1.mp hr
  exact reach_clearBelow hx (by omega) ((Nat.le_add_right _ _).trans hbound) ht

theorem reach_backStep (hx : x < W) (hbound : W * W ≤ bound) (hreach : st.reach ≤ bound) :
    (backStep V0 W c st x).reach ≤ bound := by
  refine List.foldlRecOn (motive := fun t : Inversion => t.reach ≤ bound) _ _ hreach
    fun t ht r hr => ?_
  have hread := row_add_le ((List.mem_range.mp hr).trans hx) (Nat.succ_le_of_lt hx)
  exact max_le ht (hread.trans hbound)

end Reach

/-- **Where the inversion ends in its working memory**: behind the coefficients, by less than a row
of them. -/
theorem reach_invertMat (src : List (List UInt8)) (wrk : Mem) (dst : List Bytes) (V0 K : ℕ)
    (c d : List ℕ) :
    (invertMat src wrk dst V0 K c d).reach ≤ (K - V0) * (K - V0) + (K - V0 - 1) := by
  have hforward : ∀ st : Inversion, st.reach ≤ (K - V0) * (K - V0) + (K - V0 - 1) →
      ((List.range (K - V0)).foldl (pivotStep V0 (K - V0) c) st).reach ≤
        (K - V0) * (K - V0) + (K - V0 - 1) := fun st hst =>
    List.foldlRecOn (motive := fun t : Inversion => t.reach ≤ _) _ _ hst
      fun _ ht x hx => reach_pivotStep (List.mem_range.mp hx) le_rfl ht
  exact List.foldlRecOn (motive := fun t : Inversion => t.reach ≤ _) _ _
    (hforward _ (Nat.le_add_right _ _)) fun _ ht x hx =>
      reach_backStep (List.mem_range.mp (List.mem_reverse.mp hx)) (Nat.le_add_right _ _) ht

end SteamStream.Nanors
