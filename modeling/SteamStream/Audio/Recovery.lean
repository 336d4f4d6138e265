import SteamStream.Audio.Payloader
import SteamStream.Fec.Restore
import Mathlib.Data.List.Sublists

/-!
# Recovery of lost audio shards

The audio element overwrites the parity matrix of nanors with `AUDIO_FEC_PARITY`. nanors makes a
Cauchy matrix, all of whose minors are regular, which is why its decoder need not look for pivots.
That the decoder gets along with the other matrix is a fact about its eight entries: for each choice
of lost shards and of parity shards that arrived no pivot is zero (`regular_lostCoefficients`).
-/

namespace SteamStream.Audio

open Wire Nanors Elimination

/-- The structure is what `reed_solomon_new` makes, with another matrix. -/
example : (reedSolomonNew audioDataShards audioFecShards).map ({ · with p := audioFecParity }) =
    some rs := rfl

theorem shaped_rs : rs.Shaped where
  length := rfl
  row := by decide

/-- Every choice of lost data shards, with every choice of parity shards that can replace them. -/
private theorem regular_of_mem_sublists :
    ∀ lost ∈ (List.range audioDataShards).sublists,
      ∀ spare ∈ (List.range' audioDataShards audioFecShards).sublists, lost.length ≤ spare.length →
        LinSys.Regular lost.length
          { mat := fun i j => (⟨entry audioFecParity
              (((spare.take lost.length).map (· - audioDataShards)).getD i 0)
              (lost.getD j 0)⟩ : GF256)
            rhs := fun _ => 0 } := by
  decide +kernel

theorem regular_lostCoefficients {marks : List Bool} (hmarks : marks.length = audioTotalShards)
    (hlost : marks.count true ≤ audioFecShards) :
    (lostCoefficients rs marks).Regular (marked marks rs.ds).length :=
  regular_of_mem_sublists _ (List.mem_sublists.mpr List.filter_sublist) _
    (List.mem_sublists.mpr List.filter_sublist) (length_marked_le hmarks hlost)

section Encoded

variable {bs : ℕ} {data buffers : List Bytes} {marks : List Bool}

theorem reedSolomonEncode_rs (hdata : Shards audioDataShards bs data)
    (hbuffers : buffers.length = audioFecShards) :
    reedSolomonEncode rs (data ++ buffers) audioTotalShards bs =
      some (data ++ gemm audioFecParity data bs) :=
  reedSolomonEncode_eq hdata.length hbuffers

theorem shards_encoded (hdata : Shards audioDataShards bs data) :
    Shards audioTotalShards bs (data ++ gemm audioFecParity data bs) where
  length := by rw [List.length_append, hdata.length, length_gemm]; rfl
  rows r hr := by
    rcases List.mem_append.mp hr with hmem | hmem
    · exact hdata.rows r hmem
    · exact length_of_mem_gemm hmem

/-- A shard that is left tells how long the shards are. -/
theorem length_eq_of_kept {bs' : ℕ} {shards shards' : List Bytes}
    (h : Shards audioTotalShards bs shards) (h' : Shards audioTotalShards bs' shards')
    (hmarks : marks.length = audioTotalShards) (hlost : marks.count true ≤ audioFecShards)
    (hkept : ∀ i : ℕ, marks[i]? = some false → shards'[i]? = shards[i]?) : bs' = bs := by
  have hleft : false ∈ marks := by
    refine List.count_pos_iff.mp ?_
    have hcount := List.count_true_add_count_false marks
    rw [hmarks] at hcount
    have hmore : audioFecShards < audioTotalShards := by decide
    omega
  obtain ⟨i, hi⟩ := List.mem_iff_getElem?.mp hleft
  have hlt : i < shards.length := by
    rw [h.length, ← hmarks]
    exact (List.getElem?_eq_some_iff.mp hi).1
  have hshard : shards[i]? = some shards[i] := List.getElem?_eq_getElem hlt
  have hshard' := (hkept i hi).trans hshard
  rw [← h.rows _ (List.mem_of_getElem? hshard), h'.rows _ (List.mem_of_getElem? hshard')]

/-- Two lost shards leave room in the working memory of a decoder with eight bytes. -/
theorem marked_le_wrkSize_rs (hmarks : marks.length = audioTotalShards)
    (hlost : marks.count true ≤ 2) :
    (marked marks rs.ds).length * (marked marks rs.ds).length +
      ((marked marks rs.ds).length - 1) ≤ rs.wrkSize := by
  have htwo : (marked marks rs.ds).length ≤ 2 := by
    have hle : (marked marks rs.ds).length ≤ (unmarked marks rs.ds audioFecShards).length :=
      length_marked_le hmarks hlost
    refine hle.trans ((List.length_filter_le ..).trans ?_)
    rw [List.length_range']
    decide
  have hsquare := Nat.mul_le_mul htwo htwo
  have hsize : rs.wrkSize = 8 := by decide
  omega

/-- **Any two of the six audio shards can be lost.** What is left of four encoded data shards
determines them, and `reed_solomon_decode` restores them without inverting a zero. -/
theorem audioFecParity_corrects (hdata : Shards audioDataShards bs data)
    (hbuffers : buffers.length = audioFecShards) (hmarks : marks.length = audioTotalShards)
    (hlost : marks.count true ≤ 2) :
    ∃ encoded, reedSolomonEncode rs (data ++ buffers) audioTotalShards bs = some encoded ∧
      (∀ (bs' : ℕ) (data' buffers' encoded' : List Bytes), Shards audioDataShards bs' data' →
        buffers'.length = audioFecShards →
        reedSolomonEncode rs (data' ++ buffers') audioTotalShards bs' = some encoded' →
        (∀ i : ℕ, marks[i]? = some false → encoded'[i]? = encoded[i]?) → data' = data) ∧
      ∀ (received : List Bytes) (wrk : Mem), Shards audioTotalShards bs received →
        (∀ i : ℕ, marks[i]? = some false → received[i]? = encoded[i]?) →
        ∃ out, reedSolomonDecode rs wrk received marks audioTotalShards bs = some out ∧
          out.ret = 0 ∧ out.data.take audioDataShards = data ∧ ∀ pivot ∈ out.pivots, pivot ≠ 0 := by
  have hreg := regular_lostCoefficients hmarks hlost
  refine ⟨_, reedSolomonEncode_rs hdata hbuffers, ?_, ?_⟩
  · intro bs' data' buffers' encoded' hdata' hbuffers' hencoded' hkept
    obtain rfl := Option.some.inj ((reedSolomonEncode_rs hdata' hbuffers').symm.trans hencoded')
    obtain rfl :=
      length_eq_of_kept (shards_encoded hdata) (shards_encoded hdata') hmarks hlost hkept
    exact Arrived.unique shaped_rs ⟨hdata, shards_encoded hdata, hmarks, hlost, fun _ _ => rfl⟩
      ⟨hdata', shards_encoded hdata, hmarks, hlost, fun i hi => (hkept i hi).symm⟩ hreg
  · intro received wrk hreceived hkept
    exact reedSolomonDecode_restores shaped_rs ⟨hdata, hreceived, hmarks, hlost, hkept⟩ hreg
      (marked_le_wrkSize_rs hmarks hlost) wrk

/-- Two of four shards of two bytes come back from the parity shards. -/
theorem audioFecParity_corrects_twoLost :
    ∃ out, reedSolomonDecode rs (fun _ => 0) [[0, 0], [3, 4], [5, 6], [0, 0], [69, 19], [19, 92]]
        [true, false, false, true, false, false] audioTotalShards 2 = some out ∧
      out.ret = 0 ∧ out.data.take audioDataShards = [[1, 2], [3, 4], [5, 6], [7, 8]] ∧
      ∀ pivot ∈ out.pivots, pivot ≠ 0 := by
  have hdata : Shards audioDataShards 2 [[1, 2], [3, 4], [5, 6], [7, 8]] := ⟨rfl, by decide⟩
  have hbuffers : ([[], []] : List Bytes).length = audioFecShards := rfl
  have hmarks : [true, false, false, true, false, false].length = audioTotalShards := rfl
  obtain ⟨encoded, hencoded, -, hdecode⟩ :=
    audioFecParity_corrects hdata hbuffers hmarks (by decide)
  have hparity : gemm audioFecParity [[1, 2], [3, 4], [5, 6], [7, 8]] 2 = [[69, 19], [19, 92]] := by
    decide +kernel
  obtain rfl := Option.some.inj (hencoded.symm.trans (reedSolomonEncode_rs hdata hbuffers))
  rw [hparity] at hdecode
  refine hdecode _ _ ⟨rfl, by decide⟩ fun i hi => ?_
  have hkept : ∀ i < 6, [true, false, false, true, false, false][i]? = some false →
      [[0, 0], [3, 4], [5, 6], [0, 0], [69, 19], [19, 92]][i]? =
        ([[1, 2], [3, 4], [5, 6], [7, 8]] ++ [[69, 19], [19, 92]] : List Bytes)[i]? := by decide
  exact hkept i (List.getElem?_eq_some_iff.mp hi).1 hi

end Encoded

end SteamStream.Audio
