import SteamStream.Video.Payloader

/-!
# One FEC block

`generateFecPackets` in closed form. A block whose shards exceed `dataShardsMax` is left as it
is (`SkipsFec`, monotone in the number of data packets); any other block gets its parity rows
appended (`protect`) and then every packet stamped with its place in the block (`stamp`).

The stamp writes only the `rewritten` members, so packets keep their payload, flags, stream
index, length and origin: `SameContent`. The parity rows are computed before the stamp, over
the packets as `generate_rtp_packets` made them: every column of those packets, a short last
one extended with zeros, continues in the parity rows to a codeword
(`isCodeword_column_protect`).
-/

namespace SteamStream.Video

open Wire Layout Nanors Erasure

/-! ### The split of a block -/

/-- The size of every shard. -/
def blockSize (pay : GstRtpMoonlightPayVideo) : ℕ :=
  pay.payloadSize + videoRtpHeadersSize - maxRtpHeaderSize

/-- The parity packets computed for `n` data packets. -/
def parityShards (pay : GstRtpMoonlightPayVideo) (n : ℕ) : ℕ :=
  max ((n * pay.fecPercentage + 99) / 100) pay.minRequiredFecPackets

/-- The percentage written into the headers of a block of `n` data packets. -/
def blockPercentage (pay : GstRtpMoonlightPayVideo) (n : ℕ) : ℕ :=
  if (n * pay.fecPercentage + 99) / 100 < pay.minRequiredFecPackets then
    100 * pay.minRequiredFecPackets / n else pay.fecPercentage

/-- A block of `n` data packets is sent without parity. -/
def SkipsFec (pay : GstRtpMoonlightPayVideo) (n : ℕ) : Prop :=
  dataShardsMax < n + parityShards pay n

instance (pay : GstRtpMoonlightPayVideo) (n : ℕ) : Decidable (SkipsFec pay n) :=
  inferInstanceAs (Decidable (_ < _))

section Split

variable {pay : GstRtpMoonlightPayVideo} {m n : ℕ}

theorem determineSplit_eq (hn : 0 < n) : determineSplit pay n = some
    { blockSize := blockSize pay, dataShards := n, parityShards := parityShards pay n,
      fecPercentage := blockPercentage pay n } := by
  unfold determineSplit parityShards blockPercentage blockSize
  by_cases h : (n * pay.fecPercentage + 99) / 100 < pay.minRequiredFecPackets
  · simp only [if_pos h, if_neg hn.ne', max_eq_right h.le]
  · simp only [if_neg h, max_eq_left (not_lt.mp h)]

theorem dataShards_of_determineSplit {blocks : Blocks} (h : determineSplit pay n = some blocks) :
    blocks.dataShards = n := by
  simp only [determineSplit] at h
  split_ifs at h <;> exact (congrArg Blocks.dataShards (Option.some.inj h)).symm

theorem parityShards_pos (hpct : 0 < pay.fecPercentage) (hn : 0 < n) : 0 < parityShards pay n := by
  have h : 0 < n * pay.fecPercentage := Nat.mul_pos hn hpct
  refine lt_max_of_lt_left ?_
  omega

theorem parityShards_mono (h : m ≤ n) : parityShards pay m ≤ parityShards pay n :=
  max_le_max (Nat.div_le_div_right (Nat.add_le_add_right (Nat.mul_le_mul_right _ h) _)) le_rfl

/-- **Skipping is monotone**: with a block, every larger block skips FEC too. -/
theorem SkipsFec.mono (h : m ≤ n) (hm : SkipsFec pay m) : SkipsFec pay n :=
  lt_of_lt_of_le hm (Nat.add_le_add h (parityShards_mono h))

/-- An empty block never skips, as no more than 255 parity packets can be required. -/
theorem not_skipsFec_zero : ¬ SkipsFec pay 0 := by
  have h := pay.minRequiredFecPackets_le
  simp only [SkipsFec, parityShards, dataShardsMax]
  omega

/-- The split does not depend on the counters. -/
@[simp]
theorem skipsFec_advance {k : ℕ} : SkipsFec (pay.advance k) n ↔ SkipsFec pay n := Iff.rfl

end Split

/-! ### Shards and rows -/

/-- Rows laid one after another, all but the last of the same width: every row is found at its
multiple of the width, and nothing follows the last one. -/
theorem drop_flatten_rows {rows : List Bytes} {w i : ℕ}
    (hfull : ∀ j r, rows[j]? = some r → j + 1 < rows.length → r.length = w) {r : Bytes}
    (hr : rows[i]? = some r) :
    i * w ≤ rows.flatten.length ∧
      ∃ rest, rows.flatten.drop (i * w) = r ++ rest ∧ (rest = [] ∨ w = r.length) := by
  induction rows generalizing i with
  | nil => simp at hr
  | cons r₀ rows ih =>
    cases i with
    | zero =>
      obtain rfl : r₀ = r := by simpa using hr
      refine ⟨by simp, rows.flatten, by simp, ?_⟩
      cases rows with
      | nil => exact .inl rfl
      | cons => exact .inr (hfull 0 r₀ rfl (by simp)).symm
    | succ i =>
      have hr' : rows[i]? = some r := by simpa using hr
      have hi : i < rows.length := (List.getElem?_eq_some_iff.mp hr').1
      have h0 : r₀.length = w := hfull 0 r₀ rfl (by simp; omega)
      obtain ⟨hle, rest, hdrop, hrest⟩ := ih
        (fun j r hj hlt => hfull (j + 1) r (by simpa using hj) (by simpa using hlt)) hr'
      refine ⟨by simp only [List.flatten_cons, List.length_append, Nat.succ_mul]; omega,
        rest, ?_, hrest⟩
      rw [List.flatten_cons, Nat.succ_mul, Nat.add_comm, List.drop_append, h0, Nat.add_sub_cancel_left,
        hdrop, List.drop_eq_nil_of_le (by omega), List.nil_append]

/-- Reading past the end gives zero, and so does reading the zeros appended there. -/
theorem getD_append_replicate (xs : Bytes) (k c : ℕ) :
    (xs ++ List.replicate k 0).getD c 0 = xs.getD c 0 := by
  by_cases h : c < xs.length
  · rw [List.getD_append _ _ _ _ h]
  · rw [List.getD_append_right _ _ _ _ (not_lt.mp h), List.getD_eq_default xs _ (not_lt.mp h),
      List.getD_eq_getElem?_getD, List.getElem?_replicate]
    split_ifs <;> simp

/-- The packets of a block as the encoder needs them: all shards full, but the last one, which
may be short. -/
def FullShards (w : ℕ) (pkts : List Packet) : Prop :=
  ∀ i p, pkts[i]? = some p → p.bytes.length ≤ w ∧
    (i + 1 < pkts.length → p.bytes.length = w)

section Rows

variable {pay : GstRtpMoonlightPayVideo} {pkts : List Packet}

/-- The parity rows of a block, none when no code exists for its shard counts. -/
def parityRows (pay : GstRtpMoonlightPayVideo) (pkts : List Packet) : List Bytes :=
  let n := pkts.length
  match reedSolomonNew n (parityShards pay n) with
  | none => []
  | some rs => gemm rs.p ((shardsOf pkts
      { blockSize := blockSize pay, dataShards := n, parityShards := parityShards pay n,
        fecPercentage := blockPercentage pay n }).take n) (blockSize pay)

/-- A block with its parity packets. -/
def protect (pay : GstRtpMoonlightPayVideo) (pkts : List Packet) : List Packet :=
  pkts ++ (parityRows pay pkts).map (⟨·, .parity⟩)

theorem length_of_mem_parityRows {r : Bytes} (hr : r ∈ parityRows pay pkts) :
    r.length = blockSize pay := by
  simp only [parityRows] at hr
  split at hr
  · exact absurd hr List.not_mem_nil
  · exact length_of_mem_gemm hr

theorem length_parityRows (hn : 0 < pkts.length) (hpar : 0 < parityShards pay pkts.length)
    (hskip : ¬ SkipsFec pay pkts.length) :
    (parityRows pay pkts).length = parityShards pay pkts.length := by
  obtain ⟨rs, hrs, -, -, hp⟩ := reedSolomonNew_eq_some (not_lt.mp hskip) hn hpar
  simp only [parityRows, hrs, length_gemm, hp]

theorem length_protect (hn : 0 < pkts.length) (hpar : 0 < parityShards pay pkts.length)
    (hskip : ¬ SkipsFec pay pkts.length) :
    (protect pay pkts).length = pkts.length + parityShards pay pkts.length := by
  simp only [protect, List.length_append, List.length_map, length_parityRows hn hpar hskip]

/-- A shard holds its packet, extended with zeros. -/
theorem column_take_shardsOf {blocks : Blocks} (hd : blocks.dataShards = pkts.length)
    (hfull : FullShards blocks.blockSize pkts) {c : ℕ} (hc : c < blocks.blockSize) :
    column 0 ((shardsOf pkts blocks).take pkts.length) c = column 0 (pkts.map Packet.bytes) c := by
  refine List.ext_getElem? fun i => ?_
  rw [getElem?_column, getElem?_column, List.getElem?_take, List.getElem?_map]
  by_cases hi : i < pkts.length
  · rw [if_pos hi, shardsOf, List.getElem?_map, List.getElem?_range (by omega),
      List.getElem?_eq_getElem hi]
    simp only [Option.map_some, Option.some.injEq, gstBufferListUnfold, List.append_assoc]
    set r := pkts[i].bytes with hr
    have hrow : (pkts.map Packet.bytes)[i]? = some r := by
      rw [List.getElem?_map, List.getElem?_eq_getElem hi, Option.map_some]
    obtain ⟨hle, rest, hdrop, hrest⟩ := drop_flatten_rows (w := blocks.blockSize)
      (fun j s hs hlt => by
        obtain ⟨p, hp, rfl⟩ : ∃ p, pkts[j]? = some p ∧ p.bytes = s := by
          simpa [List.getElem?_map] using hs
        exact (hfull j p hp).2 (by simpa using hlt)) hrow
    rw [List.drop_append_of_le_length hle, hdrop, ← List.replicate_add, List.append_assoc,
      List.getD_eq_getElem?_getD, List.getElem?_take, if_pos hc, ← List.getD_eq_getElem?_getD]
    rcases hrest with rfl | hw
    · rw [List.nil_append, getD_append_replicate]
    · rw [List.getD_append _ _ _ _ (by omega)]
  · rw [if_neg hi, List.getElem?_eq_none (not_lt.mp hi)]
    rfl

/-- **Every column of a protected block is a codeword.** -/
theorem isCodeword_column_protect (hn : 0 < pkts.length) (hpar : 0 < parityShards pay pkts.length)
    (hskip : ¬ SkipsFec pay pkts.length) (hfull : FullShards (blockSize pay) pkts) :
    ∃ rs, reedSolomonNew pkts.length (parityShards pay pkts.length) = some rs ∧
      rs.ds = pkts.length ∧ rs.ps = parityShards pay pkts.length ∧ ∀ c < blockSize pay,
        rs.code.IsCodeword (column 0 ((protect pay pkts).map Packet.bytes) c) := by
  obtain ⟨rs, hrs, hds, hps, hp⟩ := reedSolomonNew_eq_some (not_lt.mp hskip) hn hpar
  refine ⟨rs, hrs, hds, hps, fun c hc => ?_⟩
  set blocks : Blocks := ⟨blockSize pay, pkts.length, parityShards pay pkts.length,
    blockPercentage pay pkts.length⟩ with hb
  have hrows : (protect pay pkts).map Packet.bytes = pkts.map Packet.bytes ++
      gemm rs.p ((shardsOf pkts blocks).take pkts.length) (blockSize pay) := by
    rw [protect, List.map_append, List.map_map, parityRows, hrs]
    exact congrArg _ (List.map_id _)
  have hcol : column 0 ((protect pay pkts).map Packet.bytes) c = column 0
      ((shardsOf pkts blocks).take pkts.length ++
        gemm rs.p ((shardsOf pkts blocks).take pkts.length) (blockSize pay)) c := by
    rw [hrows, column_append, column_append, column_take_shardsOf rfl hfull hc]
  rw [hcol]
  refine isCodeword_column_encode (by rw [hp, hps]) ?_ hc
  rw [List.length_take, hds, shardsOf, List.length_map, List.length_range]
  exact min_eq_left (Nat.le_add_right _ _)

end Rows

/-! ### The block in closed form -/

/-- The packets of a block of `n` data packets, each with its FEC members filled in. -/
def stamp (pay : GstRtpMoonlightPayVideo) (blockIndex lastBlockIndex n : ℕ)
    (pkts : List Packet) : List Packet :=
  pkts.mapIdx fun i p => ⟨updateFecInfo pay p.bytes i n (blockPercentage pay n) blockIndex
    lastBlockIndex, p.origin⟩

section ClosedForm

variable {pay : GstRtpMoonlightPayVideo} {pkts out : List Packet} {b l n : ℕ}

@[simp]
theorem length_stamp : (stamp pay b l n pkts).length = pkts.length := by simp [stamp]

theorem getElem?_stamp (i : ℕ) : (stamp pay b l n pkts)[i]? = pkts[i]?.map fun p =>
    ⟨updateFecInfo pay p.bytes i n (blockPercentage pay n) b l, p.origin⟩ := by
  rw [stamp, List.getElem?_mapIdx]

/-- **`generate_fec_packets` in closed form.** -/
theorem generateFecPackets_eq (hn : 0 < pkts.length) (hpar : 0 < parityShards pay pkts.length) :
    generateFecPackets pay pkts b l = some (if SkipsFec pay pkts.length then pkts
      else stamp pay b l pkts.length (protect pay pkts)) := by
  rw [generateFecPackets, determineSplit_eq hn, Option.bind_eq_bind, Option.bind_some]
  by_cases hskip : SkipsFec pay pkts.length
  · rw [if_pos hskip]
    exact if_pos hskip
  · obtain ⟨rs, hrs, hds, hps, hp⟩ := reedSolomonNew_eq_some (not_lt.mp hskip) hn hpar
    rw [if_neg hskip]
    simp only [if_neg (show ¬ dataShardsMax < pkts.length + parityShards pay pkts.length from hskip),
      hrs, Option.bind_eq_bind, Option.bind_some]
    set shards := shardsOf pkts ⟨blockSize pay, pkts.length, parityShards pay pkts.length,
      blockPercentage pay pkts.length⟩ with hsh
    have hlen : shards.length = pkts.length + parityShards pay pkts.length := by
      simp [hsh, shardsOf]
    have henc : ((reedSolomonEncode rs shards (pkts.length + parityShards pay pkts.length)
        (blockSize pay)).getD shards).drop pkts.length = parityRows pay pkts := by
      rw [reedSolomonEncode, if_neg (by rw [ReedSolomon.ts, hds, hps]; exact lt_irrefl _),
        Option.getD_some, ReedSolomon.ts, hds, hps,
        List.drop_eq_nil_of_le (by omega : shards.length ≤ _), List.append_nil,
        List.drop_left' (by rw [List.length_take]; omega), parityRows, hrs]
    rw [henc, stamp, protect, List.mapIdx_append]
    refine congrArg (fun rows => some (pkts.mapIdx _ ++ rows)) (List.ext_getElem? fun i => ?_)
    simp only [List.getElem?_mapIdx, List.getElem?_map, Option.map_map, Nat.add_comm i,
      Function.comp_def]

/-- A block of no packets never returns. -/
theorem generateFecPackets_nil : generateFecPackets pay [] b l = none := by
  rw [generateFecPackets, determineSplit]
  by_cases h : 0 < pay.minRequiredFecPackets
  · simp [h]
  · obtain h0 : pay.minRequiredFecPackets = 0 := by omega
    simp [h0, reedSolomonNew, dataShardsMax]

/-- With FEC on, a block is returned exactly when it has a packet. -/
theorem generateFecPackets_eq_some (hpct : 0 < pay.fecPercentage) :
    generateFecPackets pay pkts b l = some out ↔ 0 < pkts.length ∧
      (if SkipsFec pay pkts.length then pkts
        else stamp pay b l pkts.length (protect pay pkts)) = out := by
  rcases Nat.eq_zero_or_pos pkts.length with h0 | hpos
  · rw [List.eq_nil_of_length_eq_zero h0, generateFecPackets_nil]
    simp
  · rw [generateFecPackets_eq hpos (parityShards_pos hpct hpos), Option.some.injEq,
      and_iff_right hpos]

end ClosedForm

/-! ### What the stamp leaves alone -/

/-- The packets agree on everything but the `rewritten` members. -/
structure SameContent (p q : Packet) : Prop where
  origin : p.origin = q.origin
  length : p.bytes.length = q.bytes.length
  byte : ∀ {c : ℕ}, (∀ f ∈ rewritten, ¬ f.Covers c) → p.bytes[c]? = q.bytes[c]?

namespace SameContent

variable {p q : Packet}

theorem refl (p : Packet) : SameContent p p := ⟨rfl, rfl, fun _ => rfl⟩

theorem isData (h : SameContent p q) : p.isData = q.isData := by
  rw [Packet.isData, Packet.isData, h.origin]

theorem payload (h : SameContent p q) : p.payload = q.payload := by
  refine List.ext_getElem? fun i => ?_
  rw [Packet.payload, Packet.payload, List.getElem?_drop, List.getElem?_drop]
  refine h.byte ?_
  simp only [rewritten, List.mem_cons, List.not_mem_nil, or_false, forall_eq_or_imp, forall_eq,
    Field.Covers, Field.stop, header, sequenceNumber, frameIndex, multiFecFlags, multiFecBlocks,
    fecInfo, videoRtpHeadersSize]
  omega

/-- A member the stamp does not write is the same in both. -/
theorem slice (h : SameContent p q) {f : Field} (hf : ∀ g ∈ rewritten, f.Disjoint g) :
    f.slice p.bytes = f.slice q.bytes := by
  refine List.ext_getElem? fun i => ?_
  simp only [Field.slice, List.getElem?_take, List.getElem?_drop]
  split_ifs with hi
  · refine h.byte fun g hg hc => ?_
    have hd := hf g hg
    simp only [Field.Disjoint, Field.Covers, Field.stop] at hd hc
    omega
  · rfl

theorem getLE (h : SameContent p q) {f : Field} (hf : ∀ g ∈ rewritten, f.Disjoint g) :
    f.getLE p.bytes = f.getLE q.bytes := by rw [Field.getLE, Field.getLE, h.slice hf]

end SameContent

/-- Stamping keeps the content of every packet. -/
theorem forall₂_sameContent_stamp {pay : GstRtpMoonlightPayVideo} {pkts : List Packet}
    {b l n : ℕ} : List.Forall₂ SameContent (stamp pay b l n pkts) pkts := by
  refine List.forall₂_iff_get.mpr ⟨length_stamp, fun i hi hi' => ?_⟩
  have hget : (stamp pay b l n pkts)[i] = ⟨updateFecInfo pay pkts[i].bytes i n
      (blockPercentage pay n) b l, pkts[i].origin⟩ := by
    have h : (stamp pay b l n pkts)[i]? = _ := getElem?_stamp i
    rwa [List.getElem?_eq_getElem hi, List.getElem?_eq_getElem hi', Option.map_some,
      Option.some.injEq] at h
  simp only [List.get_eq_getElem, hget]
  exact ⟨rfl, length_updateFecInfo, fun hc => getElem?_updateFecInfo hc⟩

end SteamStream.Video
