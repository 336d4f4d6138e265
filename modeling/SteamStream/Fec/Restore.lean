import SteamStream.Fec.Decode
import Mathlib.Algebra.BigOperators.Group.Finset.Basic
import Mathlib.Data.Bool.Count
import Mathlib.Data.List.GetD

/-!
# What the decoder restores

A parity shard is a sum over the data shards, so each parity shard that arrived is an equation for
those that did not. `reed_solomon_decode` takes as many of them as data shards are lost, the first
ones: `colperm` numbers the data shards so that the lost ones come last, `rowperm` the equations.

There are enough of them when no more shards are lost than there are parity shards. If the
coefficients the lost shards have there are regular, the decoder returns the data shards as they
were sent, unless it leaves its working memory (`reedSolomonDecode_restores`).
-/

namespace SteamStream.Nanors

open Wire Erasure Elimination

/-! ### Parity shards as sums -/

/-- A scalar product of bytes is one of the field. -/
theorem mk_dot (row col : List UInt8) :
    (⟨dot row col⟩ : GF256) =
      ∑ k ∈ Finset.range row.length, ⟨row.getD k 0⟩ * ⟨col.getD k 0⟩ := by
  have hfold : ∀ (row col : List UInt8) (acc : UInt8),
      (⟨(row.zip col).foldl (fun acc p => acc ^^^ gf28Mul p.1 p.2) acc⟩ : GF256) =
        ⟨acc⟩ + ∑ k ∈ Finset.range row.length, ⟨row.getD k 0⟩ * ⟨col.getD k 0⟩ := by
    intro row
    induction row with
    | nil => exact fun col acc => (add_zero _).symm
    | cons a row ih =>
      intro col acc
      cases col with
      | nil =>
        have hzero : ∀ k, (⟨(a :: row).getD k 0⟩ : GF256) * ⟨([] : List UInt8).getD k 0⟩ = 0 :=
          fun k => mul_zero (⟨(a :: row).getD k 0⟩ : GF256)
        rw [Finset.sum_eq_zero fun k _ => hzero k, add_zero]
        rfl
      | cons x col =>
        rw [List.zip_cons_cons, List.foldl_cons, ih, List.length_cons, Finset.sum_range_succ',
          GF256.mk_xor, GF256.mk_mul, add_assoc, add_comm (⟨a⟩ * ⟨x⟩ : GF256)]
        rfl
  exact (hfold row col 0).trans (zero_add _)

section Parity

variable {ds bs : ℕ} {p : List (List UInt8)} {rows : List Bytes}

/-- Behind the end of the shards there are zeros. -/
theorem Shards.sym_eq_zero (h : Shards ds bs rows) {b : ℕ} (hb : bs ≤ b) (k : ℕ) :
    sym rows b k = 0 := by
  rcases Nat.lt_or_ge k ds with hk | hk
  · exact GF256.ext (List.getD_eq_default _ _ (by rwa [h.length_getD hk]))
  · rw [sym, List.getD_eq_default _ _ (h.length.le.trans hk)]
    rfl

/-- The encoder's parity shards, symbol by symbol. -/
theorem sym_gemm (h : Shards ds bs rows) (hp : ∀ row ∈ p, row.length = ds) {r : ℕ}
    (hr : r < p.length) (b : ℕ) :
    sym (rows ++ gemm p rows bs) b (ds + r) =
      ∑ k ∈ Finset.range ds, ⟨entry p r k⟩ * sym rows b k := by
  have hrow : (p.getD r []).length = ds := by
    rw [List.getD_eq_getElem _ _ hr]
    exact hp _ (List.getElem_mem hr)
  have hshard : (rows ++ gemm p rows bs).getD (ds + r) [] = combine (p.getD r []) rows bs := by
    rw [List.getD_append_right _ _ _ _ (h.length.le.trans (Nat.le_add_right ds r)), h.length,
      Nat.add_sub_cancel_left, gemm_eq_combine, List.getD_eq_getElem _ _ (by simpa using hr),
      List.getElem_map, List.getD_eq_getElem _ _ hr]
  rcases Nat.lt_or_ge b bs with hb | hb
  · have hsym : (combine (p.getD r []) rows bs).getD b 0 = dot (p.getD r []) (column 0 rows b) := by
      rw [List.getD_eq_getElem _ _ (by rwa [length_combine])]
      simp [combine]
    have hcol : ∀ k, (column 0 rows b).getD k 0 = (rows.getD k []).getD b 0 := by
      intro k
      rw [List.getD_eq_getElem?_getD, getElem?_column, List.getD_eq_getElem?_getD (l := rows)]
      cases rows[k]? <;> rfl
    rw [sym, hshard, hsym, mk_dot, hrow]
    exact Finset.sum_congr rfl fun k _ => by rw [hcol]; rfl
  · rw [Finset.sum_eq_zero fun k _ => by rw [h.sym_eq_zero hb, mul_zero], sym, hshard]
    exact GF256.ext (List.getD_eq_default _ _ (by rwa [length_combine]))

end Parity

/-! ### Which shards and which equations -/

/-- The lost ones of the first `n` shards: `erasures`. -/
def marked (marks : List Bool) (n : ℕ) : List ℕ :=
  (List.range n).filter fun i => marks.getD i false

/-- Of `m` shards from `j` on, those that arrived. -/
def unmarked (marks : List Bool) (j m : ℕ) : List ℕ :=
  (List.range' j m).filter fun i => !marks.getD i false

private theorem getD_mem {l : List ℕ} {i : ℕ} (h : i < l.length) : l.getD i 0 ∈ l := by
  rw [List.getD_eq_getElem _ _ h]
  exact List.getElem_mem h

/-- `colperm`. -/
def colperm (marks : List Bool) (n : ℕ) : List ℕ := unmarked marks 0 n ++ marked marks n

section Marks

variable {marks : List Bool} {n bs ds j m : ℕ}

theorem unmarked_succ (h : j < marks.length) :
    unmarked marks j (m + 1) =
      if marks[j] then unmarked marks (j + 1) m else j :: unmarked marks (j + 1) m := by
  rw [unmarked, List.range'_succ, List.filter_cons, List.getD_eq_getElem _ _ h]
  cases marks[j] <;> rfl

theorem skipMarked_eq (h : j < marks.length) :
    skipMarked marks j = if marks[j] then skipMarked marks (j + 1) else some j := by
  rw [skipMarked, List.drop_eq_getElem_cons h, List.findIdx?_cons]
  cases marks[j] with
  | false => rfl
  | true =>
    simp only [skipMarked, Bool.not_true, Bool.false_eq_true, if_false, if_true, Option.map_map]
    refine congrArg (fun f => Option.map f _) (funext fun i => ?_)
    change j + (i + 1) = j + 1 + i
    omega

theorem mem_unmarked {i : ℕ} :
    i ∈ unmarked marks j m ↔ (j ≤ i ∧ i < j + m) ∧ marks.getD i false = false := by
  rw [unmarked, List.mem_filter, List.mem_range'_1, Bool.not_eq_true']

/-- The shards that did not get lost are the first part of `colperm`. -/
theorem knownFrom_eq (h : j + m ≤ marks.length) :
    knownFrom marks (unmarked marks j m).length j = some (unmarked marks j m) := by
  induction m generalizing j with
  | zero => rfl
  | succ m ih =>
    have hj : j < marks.length := by omega
    have hrest := ih (show j + 1 + m ≤ marks.length by omega)
    rw [unmarked_succ hj]
    cases hmark : marks[j] with
    | false =>
      simp [knownFrom, skipMarked_eq hj, hmark, hrest]
    | true =>
      simp only [if_true]
      cases hn : (unmarked marks (j + 1) m).length with
      | zero =>
        rw [List.length_eq_zero_iff.mp hn]
        rfl
      | succ n =>
        rw [hn] at hrest
        rw [← hrest, knownFrom, knownFrom, skipMarked_eq hj, hmark, if_pos rfl]

/-- Each gap gets the next parity shard that arrived. -/
theorem fillGaps_eq {gaps : List ℕ} {data : List Bytes} (hm : j + m ≤ marks.length) (hds : ds ≤ j)
    (hdata : Shards (j + m) bs data) (hgaps : ∀ gap ∈ gaps, gap < ds) (hnodup : gaps.Nodup)
    (henough : gaps.length ≤ (unmarked marks j m).length) :
    ∃ filled, fillGaps ds (j + m) bs marks gaps j data =
        some (((unmarked marks j m).take gaps.length).map (· - ds), filled) ∧
      Shards (j + m) bs filled ∧
      (∀ i < gaps.length, filled.getD (gaps.getD i 0) [] =
        data.getD ((unmarked marks j m).getD i 0) []) ∧
      ∀ t, t ∉ gaps → filled.getD t [] = data.getD t [] := by
  induction m generalizing j gaps data with
  | zero =>
    obtain rfl : gaps = [] := List.length_eq_zero_iff.mp (Nat.le_zero.mp henough)
    exact ⟨data, rfl, hdata, fun i hi => absurd hi (Nat.not_lt_zero i), fun t _ => rfl⟩
  | succ m ih =>
    have hj : j < marks.length := by omega
    have hnr : j + (m + 1) = j + 1 + m := by omega
    cases gaps with
    | nil => exact ⟨data, rfl, hdata, fun i hi => absurd hi (Nat.not_lt_zero i), fun t _ => rfl⟩
    | cons gap gaps =>
      rw [unmarked_succ hj] at henough ⊢
      rw [hnr] at hdata ⊢
      cases hmark : marks[j] with
      | true =>
        rw [hmark, if_pos rfl] at henough
        simp only [if_true]
        obtain ⟨filled, hfill, hspec⟩ := ih (by omega) (by omega) hdata hgaps hnodup henough
        refine ⟨filled, ?_, hspec⟩
        rw [← hfill, fillGaps, fillGaps, skipMarked_eq hj, hmark, if_pos rfl]
      | false =>
        simp only [hmark, Bool.false_eq_true, if_false, List.length_cons] at henough ⊢
        obtain ⟨hgap, hgaps⟩ := List.forall_mem_cons.mp hgaps
        obtain ⟨hfresh, hnodup⟩ := List.nodup_cons.mp hnodup
        have hsource : (data.getD j []).length = bs := hdata.length_getD (by omega)
        have hcopy : (data.getD j []).take bs = data.getD j [] := List.take_of_length_le hsource.le
        obtain ⟨filled, hfill, hshards, hset, hkept⟩ := ih (by omega) (by omega)
          (hdata.set (i := gap) hsource) hgaps hnodup (by omega)
        refine ⟨filled, ?_, hshards, fun i hi => ?_, fun t ht => ?_⟩
        · have hskip : skipMarked marks j = some j := by rw [skipMarked_eq hj, hmark]; rfl
          rw [fillGaps, hskip, Option.bind_eq_bind, Option.bind_some, if_neg (by omega), hcopy,
            hfill, List.take_succ_cons, List.map_cons]
          rfl
        · cases i with
          | zero =>
            rw [List.getD_cons_zero, List.getD_cons_zero, hkept gap hfresh]
            exact getD_set_self (by rw [hdata.length]; omega)
          | succ i =>
            -- a gap is in front of the parity shards, so they are those that were received
            have hi : i < gaps.length := Nat.lt_of_succ_lt_succ hi
            have hmem := mem_unmarked.mp (getD_mem (hi.trans_le (Nat.le_of_succ_le_succ henough)))
            rw [List.getD_cons_succ, List.getD_cons_succ, hset i hi]
            exact getD_set_of_ne (by omega)
        · obtain ⟨hne, ht⟩ := List.ne_and_not_mem_of_not_mem_cons ht
          rw [hkept t ht]
          exact getD_set_of_ne hne

/-- `colperm` is a permutation of the data shards. -/
theorem perm_colperm (marks : List Bool) (n : ℕ) : (colperm marks n).Perm (List.range n) := by
  have hmarked : marked marks n = (List.range n).filter fun i => !!marks.getD i false :=
    List.filter_congr fun i _ => (Bool.not_not _).symm
  rw [colperm, hmarked, unmarked, ← List.range_eq_range']
  exact List.filter_append_perm _ _

theorem length_colperm (marks : List Bool) (n : ℕ) :
    (unmarked marks 0 n).length + (marked marks n).length = n := by
  rw [← List.length_append, ← colperm, (perm_colperm marks n).length_eq, List.length_range]

/-- Its first part are shards that have arrived. -/
theorem getD_colperm_of_lt {i : ℕ} (h : i < (unmarked marks 0 n).length) :
    (colperm marks n).getD i 0 < n ∧ marks.getD ((colperm marks n).getD i 0) false = false := by
  rw [colperm, List.getD_append _ _ _ _ h]
  obtain ⟨⟨-, hlt⟩, hmark⟩ := mem_unmarked.mp (getD_mem h)
  exact ⟨by rwa [Nat.zero_add] at hlt, hmark⟩

/-- Its second part are those that have not. -/
theorem getD_colperm_add (i : ℕ) :
    (colperm marks n).getD ((unmarked marks 0 n).length + i) 0 = (marked marks n).getD i 0 := by
  rw [colperm, List.getD_append_right _ _ _ _ (Nat.le_add_right _ _), Nat.add_sub_cancel_left]

theorem columns_colperm (marks : List Bool) {n N : ℕ} (h : n ≤ N) :
    Columns N (unmarked marks 0 n).length (marked marks n).length (colperm marks n) where
  lt i hi := by
    have hmem := getD_mem (hi.trans_eq (List.length_append ..).symm)
    exact (List.mem_range.mp ((perm_colperm marks n).mem_iff.mp hmem)).trans_le h
  inj i hi j hj heq := by
    rw [← List.length_append, ← colperm] at hi hj
    rw [List.getD_eq_getElem _ _ hi, List.getD_eq_getElem _ _ hj] at heq
    exact ((perm_colperm marks n).nodup_iff.mpr List.nodup_range).getElem_inj_iff.mp heq

theorem length_unmarked (h : j + m ≤ marks.length) :
    (unmarked marks j m).length = ((marks.drop j).take m).count false := by
  induction m generalizing j with
  | zero => rfl
  | succ m ih =>
    have hj : j < marks.length := by omega
    have hrest := ih (show j + 1 + m ≤ marks.length by omega)
    rw [unmarked_succ hj, List.drop_eq_getElem_cons hj, List.take_succ_cons, List.count_cons]
    cases marks[j] with
    | true => exact hrest
    | false => exact congrArg (· + 1) hrest

/-- If no more shards are lost than there are parity shards, there is an equation for each of the
data shards that are. -/
theorem length_marked_le {ps : ℕ} (hlength : marks.length = ds + ps)
    (hlost : marks.count true ≤ ps) :
    (marked marks ds).length ≤ (unmarked marks ds ps).length := by
  have hall : (unmarked marks 0 (ds + ps)).length = ((marks.drop 0).take (ds + ps)).count false :=
    length_unmarked (by omega)
  have hsplit : unmarked marks 0 (ds + ps) = unmarked marks 0 ds ++ unmarked marks ds ps := by
    rw [unmarked, ← List.range'_append_1, List.filter_append, Nat.zero_add]
    rfl
  rw [hsplit, List.length_append, List.drop_zero, ← hlength, List.take_length] at hall
  have hcount : marks.count true + marks.count false = marks.length :=
    List.count_true_add_count_false marks
  have hcols := length_colperm marks ds
  omega

end Marks

/-! ### The equations of what was sent -/

/-- A sum over the data shards, in the order of `colperm`. -/
theorem sum_colperm {V0 W ds : ℕ} {c : List ℕ} (hperm : c.Perm (List.range ds)) (hds : V0 + W = ds)
    (f : ℕ → GF256) :
    ∑ i ∈ Finset.range V0, f (c.getD i 0) + ∑ j ∈ Finset.range W, f (c.getD (V0 + j) 0) =
      ∑ k ∈ Finset.range ds, f k := by
  have hlist : ∀ c : List ℕ, ∑ i ∈ Finset.range c.length, f (c.getD i 0) = (c.map f).sum := by
    intro c
    induction c with
    | nil => rfl
    | cons k c ih =>
      rw [List.length_cons, Finset.sum_range_succ', List.map_cons, List.sum_cons, ← ih, add_comm]
      rfl
  have hlength : c.length = ds := hperm.length_eq.trans List.length_range
  have hrange := hlist (List.range ds)
  rw [List.length_range] at hrange
  rw [← Finset.sum_range_add fun i => f (c.getD i 0), hds, ← hlength, hlist, hlength,
    (hperm.map f).sum_eq, ← hrange]
  exact Finset.sum_congr rfl fun k hk => by
    rw [List.getD_eq_getElem _ _ (by simpa using hk), List.getElem_range]

/-- The data shards that were sent solve the equations of parity shards that were not lost. -/
theorem solves_equations {p : List (List UInt8)} {V0 W ds b : ℕ} {c d : List ℕ}
    {rows filled : List Bytes} (hperm : c.Perm (List.range ds)) (hds : V0 + W = ds)
    (hknown : ∀ i < V0, sym filled b (c.getD i 0) = sym rows b (c.getD i 0))
    (hparity : ∀ i < W, sym filled b (c.getD (V0 + i) 0) =
      ∑ k ∈ Finset.range ds, ⟨entry p (d.getD i 0) k⟩ * sym rows b k) :
    (equations p V0 c d filled b).Solves W fun j => sym rows b (c.getD (V0 + j) 0) := by
  intro i hi
  have hpart : knownPart p V0 c d filled b i = ∑ row ∈ Finset.range V0,
      ⟨entry p (d.getD i 0) (c.getD row 0)⟩ * sym rows b (c.getD row 0) :=
    Finset.sum_congr rfl fun row hrow => by rw [hknown row (Finset.mem_range.mp hrow)]
  simp only [equations]
  rw [hparity i hi, hpart, ← sum_colperm hperm hds, add_right_comm, GF256.add_self, zero_add]

/-! ### What is restored -/

/-- The matrix has the shape the shard counts give it. -/
structure ReedSolomon.Shaped (rs : ReedSolomon) : Prop where
  length : rs.p.length = rs.ps
  row : ∀ row ∈ rs.p, row.length = rs.ds

/-- What has arrived of a block of data shards and their parity shards: of those that are not marked
the same, and anything for the others, which are no more than there are parity shards. -/
structure Arrived (rs : ReedSolomon) (bs : ℕ) (rows received : List Bytes) (marks : List Bool) :
    Prop where
  data : Shards rs.ds bs rows
  shards : Shards rs.ts bs received
  length_marks : marks.length = rs.ts
  lost : marks.count true ≤ rs.ps
  kept : ∀ i : ℕ, marks[i]? = some false → received[i]? = (rows ++ gemm rs.p rows bs)[i]?

/-- `rowperm`. -/
def rowperm (rs : ReedSolomon) (marks : List Bool) : List ℕ :=
  ((unmarked marks rs.ds rs.ps).take (marked marks rs.ds).length).map (· - rs.ds)

/-- The coefficients of the lost shards in the equations that are taken. -/
def lostCoefficients (rs : ReedSolomon) (marks : List Bool) : LinSys GF256 where
  mat i j := ⟨entry rs.p ((rowperm rs marks).getD i 0) ((marked marks rs.ds).getD j 0)⟩
  rhs _ := 0

section Restore

variable {rs : ReedSolomon} {bs : ℕ} {rows received : List Bytes} {marks : List Bool}

theorem Arrived.getD_kept (h : Arrived rs bs rows received marks) {i : ℕ} (hi : i < rs.ts)
    (hmark : marks.getD i false = false) :
    received.getD i [] = (rows ++ gemm rs.p rows bs).getD i [] := by
  have hi' : i < marks.length := h.length_marks ▸ hi
  rw [List.getD_eq_getElem _ _ hi'] at hmark
  rw [List.getD_eq_getElem?_getD, h.kept i (List.getElem?_eq_some_iff.mpr ⟨hi', hmark⟩),
    ← List.getD_eq_getElem?_getD]

/-- Shards are the same if their symbols are. -/
theorem Shards.take_eq {n m : ℕ} {dst : List Bytes} (h : Shards n bs dst) (hrows : Shards m bs rows)
    (hm : m ≤ n) (hsym : ∀ b, ∀ k < m, sym dst b k = sym rows b k) : dst.take m = rows := by
  refine List.ext_getElem ?_ fun k hk hk' => ?_
  · rw [List.length_take, h.length, hrows.length, Nat.min_eq_left hm]
  · have hkm : k < m := hrows.length ▸ hk'
    have hkn : k < dst.length := h.length ▸ hkm.trans_le hm
    rw [List.getElem_take]
    refine List.ext_getElem ?_ fun b hb hb' => ?_
    · rw [h.rows _ (List.getElem_mem hkn), hrows.rows _ (List.getElem_mem hk')]
    · have hbyte := congrArg GF256.byte (hsym b k hkm)
      simpa only [sym, List.getD_eq_getElem _ _ hkn, List.getD_eq_getElem _ _ hk',
        List.getD_eq_getElem _ _ hb, List.getD_eq_getElem _ _ hb'] using hbyte

/-- The shards when the gaps have been filled. -/
structure Filled (rs : ReedSolomon) (bs : ℕ) (rows : List Bytes) (marks : List Bool)
    (filled : List Bytes) : Prop where
  shards : Shards rs.ts bs filled
  known : ∀ k < rs.ds, marks.getD k false = false → filled.getD k [] = rows.getD k []
  parity : ∀ b, ∀ i < (marked marks rs.ds).length,
    sym filled b ((marked marks rs.ds).getD i 0) =
      ∑ k ∈ Finset.range rs.ds, ⟨entry rs.p ((rowperm rs marks).getD i 0) k⟩ * sym rows b k

theorem mem_marked {n k : ℕ} : k ∈ marked marks n ↔ k < n ∧ marks.getD k false = true := by
  rw [marked, List.mem_filter, List.mem_range]

theorem Arrived.fillGaps (h : Arrived rs bs rows received marks) (hrs : rs.Shaped) :
    ∃ filled, fillGaps rs.ds rs.ts bs marks (marked marks rs.ds) rs.ds received =
      some (rowperm rs marks, filled) ∧ Filled rs bs rows marks filled := by
  have henough := length_marked_le h.length_marks h.lost
  obtain ⟨filled, hfill, hshards, hset, hkept⟩ := fillGaps_eq h.length_marks.ge le_rfl h.shards
    (fun gap hgap => (mem_marked.mp hgap).1) (List.nodup_range.filter _) henough
  refine ⟨filled, hfill, hshards, fun k hk hmark => ?_, fun b i hi => ?_⟩
  · have hnot : k ∉ marked marks rs.ds := fun hmem => by
      rw [(mem_marked.mp hmem).2] at hmark
      exact Bool.noConfusion hmark
    rw [hkept k hnot, h.getD_kept (hk.trans_le (Nat.le_add_right _ _)) hmark,
      List.getD_append _ _ _ _ (h.data.length.symm ▸ hk)]
  · -- the shard in the gap is a parity shard that arrived
    have hspare := hi.trans_le henough
    obtain ⟨⟨hle, hlt⟩, hmark⟩ := mem_unmarked.mp (getD_mem hspare)
    obtain ⟨r, hr⟩ := Nat.exists_eq_add_of_le hle
    have hrow : (rowperm rs marks).getD i 0 = r := by
      rw [rowperm, List.getD_eq_getElem _ _ (by simpa using ⟨hi, hspare⟩), List.getElem_map,
        List.getElem_take, ← List.getD_eq_getElem _ 0 hspare, hr, Nat.add_sub_cancel_left]
    rw [sym_congr (hset i hi) b, sym_congr (h.getD_kept hlt hmark) b, hr, hrow]
    exact sym_gemm h.data hrs.row (by rw [hrs.length]; omega) b

/-- Where the inversion gets through without a choice of pivots, it restores the data shards. -/
theorem Filled.invertMat {filled : List Bytes} (h : Filled rs bs rows marks filled)
    (hrows : Shards rs.ds bs rows)
    (hreg : (lostCoefficients rs marks).Regular (marked marks rs.ds).length) (wrk : Mem) :
    let inv := invertMat rs.p wrk filled (unmarked marks 0 rs.ds).length rs.ds
      (colperm marks rs.ds) (rowperm rs marks)
    inv.dst.take rs.ds = rows ∧ ∀ pivot ∈ inv.pivots, pivot ≠ 0 := by
  have hlengths := length_colperm marks rs.ds
  have hW : rs.ds - (unmarked marks 0 rs.ds).length = (marked marks rs.ds).length := by omega
  have hcols := columns_colperm marks (Nat.le_add_right rs.ds rs.ps)
  have hsolves : ∀ b, (equations rs.p (unmarked marks 0 rs.ds).length (colperm marks rs.ds)
      (rowperm rs marks) filled b).Solves (marked marks rs.ds).length
        fun j => sym rows b ((marked marks rs.ds).getD j 0) := by
    intro b
    simp only [← getD_colperm_add]
    refine solves_equations (perm_colperm marks rs.ds) hlengths (fun i hi => ?_) fun i hi => ?_
    · obtain ⟨hlt, hmark⟩ := getD_colperm_of_lt hi
      exact sym_congr (h.known _ hlt hmark) b
    · rw [getD_colperm_add]
      exact h.parity b i hi
  have hregular : ∀ b, (equations rs.p (unmarked marks 0 rs.ds).length (colperm marks rs.ds)
      (rowperm rs marks) filled b).Regular (marked marks rs.ds).length := by
    intro b
    refine LinSys.Regular.congr ?_ hreg
    funext i j
    simp only [equations, lostCoefficients, getD_colperm_add]
  rw [← hW] at hcols hsolves hregular
  obtain ⟨hshards, hsym, hkept, hpivots⟩ :=
    invertMat_spec rs.p (rowperm rs marks) wrk h.shards hcols hregular hsolves
  refine ⟨hshards.take_eq hrows (Nat.le_add_right _ _) fun b k hk => ?_, hpivots⟩
  rw [hW] at hsym hkept
  simp only [getD_colperm_add] at hsym hkept
  cases hmark : marks.getD k false with
  | true =>
    obtain ⟨i, hi, hki⟩ := List.mem_iff_getElem.mp (mem_marked.mpr ⟨hk, hmark⟩)
    rw [← List.getD_eq_getElem _ 0 hi] at hki
    rw [← hki]
    exact hsym b i hi
  | false =>
    refine sym_congr ((hkept k fun i hi hki => ?_).trans (h.known k hk hmark)) b
    have hlost := (mem_marked.mp (getD_mem hi)).2
    rw [hki, hmark] at hlost
    exact Bool.noConfusion hlost

/-- What is lost is restored if elimination gets through without a choice of pivots; no pivot that
is inverted is zero, and the working memory is accessed up to this end at most. -/
theorem decodeShards_restores (hrs : rs.Shaped) (h : Arrived rs bs rows received marks)
    (hreg : (lostCoefficients rs marks).Regular (marked marks rs.ds).length) (wrk : Mem) :
    ∃ out, decodeShards rs wrk received marks rs.ts bs = some out ∧ out.ret = 0 ∧
      out.data.take rs.ds = rows ∧ (∀ pivot ∈ out.pivots, pivot ≠ 0) ∧
      out.reach ≤ (marked marks rs.ds).length * (marked marks rs.ds).length +
        ((marked marks rs.ds).length - 1) := by
  obtain ⟨filled, hfill, hfilled⟩ := h.fillGaps hrs
  have hlengths := length_colperm marks rs.ds
  have herasures : ((List.range rs.ds).filter fun i => marks.getD i false) = marked marks rs.ds :=
    rfl
  have hV0 : rs.ds - (marked marks rs.ds).length = (unmarked marks 0 rs.ds).length := by omega
  have hW : rs.ds - (unmarked marks 0 rs.ds).length = (marked marks rs.ds).length := by omega
  have hknown : knownFrom marks (unmarked marks 0 rs.ds).length 0 = some (unmarked marks 0 rs.ds) :=
    knownFrom_eq (by rw [h.length_marks, Nat.zero_add]; exact Nat.le_add_right _ _)
  have hrowperm : ¬ (rowperm rs marks).length < (marked marks rs.ds).length := by
    rw [rowperm, List.length_map, List.length_take,
      Nat.min_eq_left (length_marked_le h.length_marks h.lost)]
    exact lt_irrefl _
  obtain ⟨hdata, hpivots⟩ := hfilled.invertMat h.data hreg wrk
  have hreach := reach_invertMat rs.p wrk filled (unmarked marks 0 rs.ds).length rs.ds
    (colperm marks rs.ds) (rowperm rs marks)
  rw [hW] at hreach
  refine ⟨⟨0, _, _, _⟩, ?_, rfl, hdata, hpivots, hreach⟩
  rw [decodeShards, if_neg (lt_irrefl rs.ts)]
  simp only [herasures, hV0, hknown, hfill, Option.bind_eq_bind, Option.bind_some, if_neg hrowperm]
  rfl

/-- **The decoder restores what was lost** if elimination gets through without a choice of pivots
and the coefficients leave room in the working memory for what the last division goes over. -/
theorem reedSolomonDecode_restores (hrs : rs.Shaped) (h : Arrived rs bs rows received marks)
    (hreg : (lostCoefficients rs marks).Regular (marked marks rs.ds).length)
    (hroom : (marked marks rs.ds).length * (marked marks rs.ds).length +
      ((marked marks rs.ds).length - 1) ≤ rs.wrkSize) (wrk : Mem) :
    ∃ out, reedSolomonDecode rs wrk received marks rs.ts bs = some out ∧ out.ret = 0 ∧
      out.data.take rs.ds = rows ∧ ∀ pivot ∈ out.pivots, pivot ≠ 0 := by
  obtain ⟨out, hout, hret, hdata, hpivots, hreach⟩ := decodeShards_restores hrs h hreg wrk
  refine ⟨out, ?_, hret, hdata, hpivots⟩
  rw [reedSolomonDecode, hout]
  exact Option.filter_some_pos (decide_eq_true (hreach.trans hroom))

/-- What arrived determines the data shards. -/
theorem Arrived.unique {rows' : List Bytes} (hrs : rs.Shaped)
    (h : Arrived rs bs rows received marks) (h' : Arrived rs bs rows' received marks)
    (hreg : (lostCoefficients rs marks).Regular (marked marks rs.ds).length) : rows' = rows := by
  obtain ⟨out, hout, -, hdata, -⟩ := decodeShards_restores hrs h hreg fun _ => 0
  obtain ⟨out', hout', -, hdata', -⟩ := decodeShards_restores hrs h' hreg fun _ => 0
  obtain rfl := Option.some.inj (hout.symm.trans hout')
  exact hdata'.symm.trans hdata

/-- The encoder, given as many shards as the structure counts. -/
theorem reedSolomonEncode_eq {buffers : List Bytes} (hrows : rows.length = rs.ds)
    (hbuffers : buffers.length = rs.ps) :
    reedSolomonEncode rs (rows ++ buffers) rs.ts bs = some (rows ++ gemm rs.p rows bs) := by
  have hall : (rows ++ buffers).length ≤ rs.ts := by
    rw [List.length_append, hrows, hbuffers]
    exact le_rfl
  rw [reedSolomonEncode, if_neg (lt_irrefl rs.ts), List.take_left' hrows,
    List.drop_eq_nil_of_le hall, List.append_nil]

end Restore

end SteamStream.Nanors
