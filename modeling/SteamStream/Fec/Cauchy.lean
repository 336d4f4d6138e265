import SteamStream.Fec.Restore
import SteamStream.Library.Cauchy

/-!
# nanors restores every loss it has parity for

`reed_solomon_new` fills its parity matrix with `GF2_8_INV[(ps + i) ^ j]`. In the field that is the
inverse of the sum of the two numbers, and since all of `0, …, ps + ds - 1` are different bytes,
every choice of columns and of rows is a Cauchy matrix. So the decoder, which takes its pivots as
they come, never meets a zero: whatever shards are lost, no more than there are parity shards, it
restores the data (`reedSolomonNew_restores`).

Only if all data shards are lost where there are as many parity shards, more than one, do the
coefficients fill the working memory, and the decoder leaves it.
-/

namespace SteamStream.Nanors

open Wire Elimination Erasure

variable {rs : ReedSolomon} {ds ps r c : ℕ} {marks : List Bool}

/-! ### The matrix -/

/-- A small number as an element of the field. -/
def node (n : ℕ) : GF256 := ⟨UInt8.ofNat n⟩

theorem node_inj {m n : ℕ} (hm : m < 256) (hn : n < 256) : node m = node n ↔ m = n := by
  constructor
  · intro h
    have hbyte := congrArg (fun a => a.byte.toNat) h
    simpa only [node, UInt8.toNat_ofNat_of_lt' hm, UInt8.toNat_ofNat_of_lt' hn] using hbyte
  · rintro rfl
    rfl

/-- Sums are exclusive ors. -/
theorem node_xor (m n : ℕ) : node (m ^^^ n) = node m + node n := by
  refine GF256.ext ?_
  change UInt8.ofNat (m ^^^ n) = UInt8.ofNat m ^^^ UInt8.ofNat n
  rw [← UInt8.toNat_inj]
  simp only [UInt8.toNat_ofNat', UInt8.toNat_xor, Nat.xor_mod_two_pow]

theorem reedSolomonNew_shape (hnew : reedSolomonNew ds ps = some rs) :
    rs.ds = ds ∧ rs.ps = ps ∧ ds + ps ≤ dataShardsMax ∧ 0 < ds ∧ 0 < ps ∧
      rs.p = (List.range ps).map fun j =>
        (List.range ds).map fun i => gf28Inv ((ps + i) ^^^ j) := by
  rw [reedSolomonNew] at hnew
  split_ifs at hnew with h
  obtain rfl := Option.some.inj hnew
  refine ⟨rfl, rfl, ?_, ?_, ?_, rfl⟩ <;> omega

theorem shaped_reedSolomonNew (hnew : reedSolomonNew ds ps = some rs) : rs.Shaped := by
  obtain ⟨hds, hps, -, -, -, hp⟩ := reedSolomonNew_shape hnew
  refine ⟨by rw [hp, hps, List.length_map, List.length_range], fun row hrow => ?_⟩
  rw [hp, List.mem_map] at hrow
  obtain ⟨j, -, rfl⟩ := hrow
  rw [hds, List.length_map, List.length_range]

/-- The entries are inverses of sums. -/
theorem mk_entry_reedSolomonNew (hnew : reedSolomonNew ds ps = some rs) (hr : r < ps)
    (hc : c < ds) : (⟨entry rs.p r c⟩ : GF256) = (node r + node (ps + c))⁻¹ := by
  obtain ⟨-, -, hmax, -, -, hp⟩ := reedSolomonNew_shape hnew
  have hlt : (ps + c) ^^^ r < 2 ^ 8 :=
    Nat.xor_lt_two_pow (by simp only [dataShardsMax] at hmax; omega)
    (by simp only [dataShardsMax] at hmax; omega)
  have hentry : entry rs.p r c = gf28Inv ((ps + c) ^^^ r) := by
    simp [entry, hp, hr, hc]
  have hbyte : (UInt8.ofNat ((ps + c) ^^^ r)).toNat = (ps + c) ^^^ r := UInt8.toNat_ofNat_of_lt' hlt
  rw [hentry, ← hbyte, GF256.mk_inv, ← node, node_xor, add_comm]

/-! ### The coefficients of the lost shards -/

theorem getD_marked_lt {n i : ℕ} (hi : i < (marked marks n).length) :
    (marked marks n).getD i 0 < n := by
  rw [List.getD_eq_getElem _ _ hi]
  exact (mem_marked.mp (List.getElem_mem hi)).1

theorem length_rowperm (hmarks : marks.length = rs.ts) (hlost : marks.count true ≤ rs.ps) :
    (rowperm rs marks).length = (marked marks rs.ds).length := by
  rw [rowperm, List.length_map, List.length_take, Nat.min_eq_left (length_marked_le hmarks hlost)]

theorem nodup_rowperm : (rowperm rs marks).Nodup := by
  have hnodup : ((unmarked marks rs.ds rs.ps).take (marked marks rs.ds).length).Nodup :=
    (List.Nodup.filter _ List.nodup_range').sublist (List.take_sublist ..)
  refine hnodup.map_on fun i hi j hj hij => ?_
  have hle : ∀ k ∈ (unmarked marks rs.ds rs.ps).take (marked marks rs.ds).length, rs.ds ≤ k :=
    fun k hk => (mem_unmarked.mp (List.mem_of_mem_take hk)).1.1
  have := hle i hi
  have := hle j hj
  omega

theorem lt_of_mem_rowperm {k : ℕ} (hk : k ∈ rowperm rs marks) : k < rs.ps := by
  rw [rowperm, List.mem_map] at hk
  obtain ⟨j, hj, rfl⟩ := hk
  obtain ⟨⟨hle, hlt⟩, -⟩ := mem_unmarked.mp (List.mem_of_mem_take hj)
  omega

theorem getD_ne_of_nodup {l : List ℕ} (h : l.Nodup) {i j : ℕ} (hi : i < l.length)
    (hj : j < l.length) (hij : i ≠ j) : l.getD i 0 ≠ l.getD j 0 := by
  rw [List.getD_eq_getElem _ _ hi, List.getD_eq_getElem _ _ hj]
  exact fun heq => hij ((h.getElem_inj_iff).mp heq)

/-- Whatever is lost, its coefficients are a Cauchy matrix. -/
theorem regular_lostCoefficients_reedSolomonNew (hnew : reedSolomonNew ds ps = some rs)
    (hmarks : marks.length = ds + ps) (hlost : marks.count true ≤ ps) :
    (lostCoefficients rs marks).Regular (marked marks rs.ds).length := by
  obtain ⟨hds, hps, hmax, -, -, -⟩ := reedSolomonNew_shape hnew
  have hlen : (rowperm rs marks).length = (marked marks rs.ds).length :=
    length_rowperm (by rw [ReedSolomon.ts, hds, hps, hmarks]) (hps ▸ hlost)
  have hrow : ∀ i < (marked marks rs.ds).length, (rowperm rs marks).getD i 0 < ps := by
    intro i hi
    rw [List.getD_eq_getElem _ _ (hlen ▸ hi), ← hps]
    exact lt_of_mem_rowperm (List.getElem_mem _)
  have hcol : ∀ j < (marked marks rs.ds).length, (marked marks rs.ds).getD j 0 < ds :=
    fun j hj => by have := getD_marked_lt hj; omega
  simp only [dataShardsMax] at hmax
  have hnodes : LinSys.CauchyNodes (marked marks rs.ds).length
      (fun i => node ((rowperm rs marks).getD i 0))
      (fun j => node (ps + (marked marks rs.ds).getD j 0)) := by
    refine ⟨fun i hi j hj hij heq => ?_, fun i hi j hj hij heq => ?_, fun i hi j hj hsum => ?_⟩
    · have := hrow i hi
      have := hrow j hj
      exact getD_ne_of_nodup nodup_rowperm (hlen ▸ hi) (hlen ▸ hj) hij
        ((node_inj (by omega) (by omega)).mp heq)
    · have := hcol i hi
      have := hcol j hj
      have heq := (node_inj (by omega) (by omega)).mp heq
      exact getD_ne_of_nodup (List.nodup_range.filter _) hi hj hij (Nat.add_left_cancel heq)
    · -- a row number is below `ps`, and what is added to a column number is not
      have := hrow i hi
      have := hcol j hj
      have heq : node ((rowperm rs marks).getD i 0) =
          node (ps + (marked marks rs.ds).getD j 0) := by
        rw [← sub_eq_zero, GF256.sub_eq_add]
        exact hsum
      have := (node_inj (by omega) (by omega)).mp heq
      omega
  refine LinSys.IsCauchy.regular hnodes (LinSys.isCauchy_of_inv fun i hi j hj => ?_)
  exact mk_entry_reedSolomonNew hnew (hrow i hi) (hcol j hj)

/-! ### The decoder -/

section Decode

variable {bs : ℕ} {data buffers : List Bytes}

/-- A shard for every slot, whatever stands in the empty ones. -/
theorem arrived_of_slots (hdata : Shards rs.ds bs data) {slots : List (Option Bytes)}
    (hlen : slots.length = rs.ts) (hlost : slots.countP Option.isNone ≤ rs.ps)
    (hkept : ∀ (i : ℕ) r, slots[i]? = some (some r) → (data ++ gemm rs.p data bs)[i]? = some r) :
    Arrived rs bs data (slots.map (·.getD (List.replicate bs 0))) (slots.map Option.isNone) := by
  refine ⟨hdata, ⟨?_, fun r hr => ?_⟩, ?_, ?_, fun i hi => ?_⟩
  · rw [List.length_map, hlen]
  · obtain ⟨s, hs, rfl⟩ := List.mem_map.mp hr
    cases s with
    | none => exact List.length_replicate
    | some r =>
      obtain ⟨i, hi⟩ := List.mem_iff_getElem?.mp hs
      rcases List.mem_append.mp (List.mem_of_getElem? (hkept i r hi)) with hmem | hmem
      · exact hdata.rows r hmem
      · exact length_of_mem_gemm hmem
  · rw [List.length_map, hlen]
  · rw [List.count_eq_countP, List.countP_map]
    refine (List.countP_congr fun s _ => ?_).trans_le hlost
    rw [Function.comp_apply, beq_true]
  · rw [List.getElem?_map, Option.map_eq_some_iff] at hi
    obtain ⟨s, hs, hsome⟩ := hi
    obtain ⟨r, rfl⟩ := Option.isSome_iff_exists.mp (Option.isNone_eq_false_iff.mp hsome)
    rw [hkept i r hs, List.getElem?_map, hs]
    rfl

/-- The coefficients of the lost shards leave room in the working memory for the rest of a row, if
they are not a whole square of shards. -/
theorem marked_le_wrkSize (hnew : reedSolomonNew ds ps = some rs) (hmarks : marks.length = ds + ps)
    (hlost : marks.count true ≤ ps)
    (hsquare : 2 ≤ ds → ds = ps → ∃ i < ds, marks[i]? = some false) :
    (marked marks rs.ds).length * (marked marks rs.ds).length +
      ((marked marks rs.ds).length - 1) ≤ rs.wrkSize := by
  obtain ⟨rfl, rfl, -, hds, hps, -⟩ := reedSolomonNew_shape hnew
  have hcols : (marked marks rs.ds).length ≤ rs.ds := by
    have := length_colperm marks rs.ds
    omega
  have hrows : (marked marks rs.ds).length ≤ rs.ps := by
    refine (length_marked_le hmarks hlost).trans ((List.length_filter_le ..).trans ?_)
    rw [List.length_range']
  rw [ReedSolomon.wrkSize]
  generalize hW : (marked marks rs.ds).length = W at hcols hrows
  have hrest : W * (W + 1) ≤ rs.ps * rs.ds → W * W + (W - 1) ≤ rs.ps * rs.ds := fun h => by
    rw [Nat.mul_succ] at h
    omega
  rcases hcols.lt_or_eq with hlt | rfl
  · exact hrest (Nat.mul_le_mul hrows hlt)
  · rcases hrows.lt_or_eq with hlt | hsame
    · exact hrest ((Nat.mul_comm ..).trans_le (Nat.mul_le_mul hlt le_rfl))
    · -- all of them are lost
      rcases Nat.lt_or_ge rs.ds 2 with hone | htwo
      · obtain hds : rs.ds = 1 := by omega
        rw [← hsame, hds]
      · obtain ⟨i, hi, hmark⟩ := hsquare htwo hsame
        have hall : marked marks rs.ds = List.range rs.ds :=
          (List.filter_sublist).eq_of_length (hW.trans List.length_range.symm)
        have hmem := (mem_marked.mp (hall ▸ List.mem_range.mpr hi)).2
        rw [List.getD_eq_getElem?_getD, hmark] at hmem
        cases hmem

/-- **Every loss there is parity for is restored.** Of any data shards, encoded by
`reed_solomon_new` and `reed_solomon_encode`, any shards may be lost, no more than there are parity
shards: from what is left `reed_solomon_decode` restores the data within its working memory, and it
inverts no zero. Where there are as many parity shards as data shards and more than one, one of the
data shards has to be left. -/
theorem reedSolomonNew_restores (hdata : Shards ds bs data) (hbuffers : buffers.length = ps)
    (hds : 0 < ds) (hps : 0 < ps) (hmax : ds + ps ≤ dataShardsMax)
    (hmarks : marks.length = ds + ps) (hlost : marks.count true ≤ ps)
    (hsquare : 2 ≤ ds → ds = ps → ∃ i < ds, marks[i]? = some false) :
    ∃ rs encoded, reedSolomonNew ds ps = some rs ∧
      reedSolomonEncode rs (data ++ buffers) (ds + ps) bs = some encoded ∧
      encoded.take ds = data ∧
      ∀ (received : List Bytes) (wrk : Mem), Shards (ds + ps) bs received →
        (∀ i : ℕ, marks[i]? = some false → received[i]? = encoded[i]?) →
        ∃ out, reedSolomonDecode rs wrk received marks (ds + ps) bs = some out ∧
          out.ret = 0 ∧ out.data.take ds = data ∧ ∀ pivot ∈ out.pivots, pivot ≠ 0 := by
  obtain ⟨rs, hnew, rfl, rfl, -⟩ := reedSolomonNew_eq_some hmax hds hps
  refine ⟨rs, _, hnew, reedSolomonEncode_eq hdata.length hbuffers, List.take_left' hdata.length, ?_⟩
  intro received wrk hreceived hkept
  exact reedSolomonDecode_restores (shaped_reedSolomonNew hnew)
    ⟨hdata, hreceived, hmarks, hlost, hkept⟩
    (regular_lostCoefficients_reedSolomonNew hnew hmarks hlost)
    (marked_le_wrkSize hnew hmarks hlost hsquare) wrk

/-- Two shards of one byte, both lost, and one of three parity shards. -/
theorem reedSolomonNew_restores_bothLost :
    ∃ rs out, reedSolomonNew 2 3 = some rs ∧
      reedSolomonDecode rs (fun _ => 0) [[0], [0], [0], [123], [138]]
        [true, true, true, false, false] 5 1 = some out ∧
      out.ret = 0 ∧ out.data.take 2 = [[7], [9]] := by
  obtain ⟨rs, encoded, hnew, henc, -, hdec⟩ :=
    @reedSolomonNew_restores 2 3 [true, true, true, false, false] 1 [[7], [9]] [[0], [0], [0]]
      ⟨rfl, by decide⟩ rfl (by decide) (by decide) (by decide) rfl (by decide)
      fun _ hsame => absurd hsame (by decide)
  obtain rfl : rs = ⟨2, 3, [[244, 71], [142, 167], [1, 122]]⟩ :=
    Option.some.inj (hnew.symm.trans rfl)
  obtain rfl : encoded = [[7], [9], [179], [123], [138]] := Option.some.inj (henc.symm.trans rfl)
  obtain ⟨out, hout, hret, hdata, -⟩ := hdec [[0], [0], [0], [123], [138]] (fun _ => 0)
    ⟨rfl, by decide⟩ fun i hi => by
      rcases i with _ | _ | _ | i
      · cases hi
      · cases hi
      · cases hi
      · rfl
  exact ⟨_, out, hnew, hout, hret, hdata⟩

/-- With two parity shards and both data shards lost, the decoder has four bytes of working memory
and goes over five. -/
example : (decodeShards ⟨2, 2, [[142, 244], [244, 142]]⟩ (fun _ => 0) [[0], [0], [138], [124]]
    [true, true, false, false] 4 1).map (·.reach) = some 5 := by decide +kernel

end Decode

end SteamStream.Nanors
