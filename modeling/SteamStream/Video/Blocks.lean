import SteamStream.Video.Cut

/-!
# The FEC blocks of a frame

How `splitIntoBlocks` divides a frame. Up to 90 packets form one block; above that the list is
divided into three runs of `packetsPerBlock` packets (`blockSub`), each sent through
`generateFecPackets` with the counter moved past the blocks before it. `splitIntoBlocks_cases`
says this for every frame the call returns on, `splitIntoBlocks_eq_some` that it does return on
frames below `2 ^ 24` bytes.
-/

namespace SteamStream.Video

open Wire Layout

/-! ### The counter -/

section Counter

variable {pay : GstRtpMoonlightPayVideo} {m n : ℕ}

theorem curSeqNumber_advance :
    (pay.advance n).curSeqNumber.toNat % 65536 = (pay.curSeqNumber.toNat + n) % 65536 := by
  simp only [GstRtpMoonlightPayVideo.advance, UInt32.toNat_add, UInt32.toNat_ofNat']
  omega

theorem advance_advance : (pay.advance m).advance n = pay.advance (m + n) := by
  simp only [GstRtpMoonlightPayVideo.advance, UInt32.ofNat_add, UInt32.add_assoc]

theorem advance_zero : pay.advance 0 = pay := by
  simp [GstRtpMoonlightPayVideo.advance]

end Counter

/-! ### Three blocks -/

/-- The packets of block `k`, when the list is divided into runs of `perBlock`. -/
def blockSub (pkts : List Packet) (perBlock k : ℕ) : List Packet :=
  gstBufferListSub pkts (k * perBlock) (min ((k + 1) * perBlock) pkts.length)

/-- The length of block `k` of `n` packets. -/
def blockLength (perBlock n k : ℕ) : ℕ := min ((k + 1) * perBlock) n - k * perBlock

section Blocks

variable {pay pay' : GstRtpMoonlightPayVideo} {pkts : List Packet} {perBlock : ℕ}

@[simp]
theorem length_blockSub (k : ℕ) :
    (blockSub pkts perBlock k).length = blockLength perBlock pkts.length k := by
  rw [blockSub, gstBufferListSub, List.length_take, List.length_drop, blockLength]
  omega

/-- Blocks never grow. -/
theorem blockLength_anti {n j k : ℕ} (h : j ≤ k) :
    blockLength perBlock n k ≤ blockLength perBlock n j := by
  have hmul : j * perBlock ≤ k * perBlock := Nat.mul_le_mul_right _ h
  simp only [blockLength, Nat.succ_mul]
  omega

theorem mem_of_mem_blockSub {p : Packet} {k : ℕ} (h : p ∈ blockSub pkts perBlock k) :
    p ∈ pkts := List.mem_of_mem_drop (List.mem_of_mem_take h)

theorem CutFrom.fullShards_blockSub {inbuf : Bytes} {tot k : ℕ} (h : CutFrom pay inbuf tot pkts) :
    FullShards (blockSize pay) (blockSub pkts perBlock k) := h.fullShards _ _

/-- Packets `i` up to `j` followed by packets `j` up to `l`. -/
theorem gstBufferListSub_append {i j l : ℕ} (hij : i ≤ j) (hjl : j ≤ l) :
    gstBufferListSub pkts i j ++ gstBufferListSub pkts j l = gstBufferListSub pkts i l := by
  have hd : pkts.drop j = (pkts.drop i).drop (j - i) := by
    rw [List.drop_drop, Nat.add_sub_cancel' hij]
  rw [gstBufferListSub, gstBufferListSub, gstBufferListSub, hd, ← List.take_add]
  congr 1
  omega

/-- Consecutive blocks make up the packets from the first one's start on. -/
theorem flatten_blockSub (k m : ℕ) :
    ((List.range' k m).map (blockSub pkts perBlock)).flatten =
      gstBufferListSub pkts (k * perBlock) (min ((k + m) * perBlock) pkts.length) := by
  induction m generalizing k with
  | zero =>
    rw [Nat.add_zero, gstBufferListSub, List.range'_zero, List.map_nil, List.flatten_nil,
      List.take_eq_nil_iff.mpr (.inl (by omega))]
  | succ m ih =>
    rw [List.range'_succ, List.map_cons, List.flatten_cons, ih, blockSub]
    by_cases hk : (k + 1) * perBlock ≤ pkts.length
    · rw [min_eq_left hk, gstBufferListSub_append (Nat.mul_le_mul_right _ (Nat.le_succ k)),
        Nat.add_right_comm, Nat.add_assoc]
      refine le_min (Nat.mul_le_mul_right _ (by omega)) hk
    · have hmul : (k + 1) * perBlock ≤ (k + 1 + m) * perBlock := Nat.mul_le_mul_right _ (by omega)
      rw [show k + (m + 1) = k + 1 + m by omega, min_eq_right (by omega), min_eq_right (by omega)]
      conv_rhs => rw [← List.append_nil (gstBufferListSub pkts (k * perBlock) pkts.length)]
      congr 1
      rw [gstBufferListSub, List.drop_eq_nil_of_le (by omega), List.take_nil]

/-- The loop moves the counter past everything it emitted, and nothing else. -/
theorem fecBlocks_fst {ks : List ℕ} {out : List (List Packet)}
    (h : fecBlocks pay pkts perBlock ks = some (pay', out)) :
    pay' = pay.advance out.flatten.length := by
  induction ks generalizing pay out with
  | nil =>
    obtain ⟨rfl, rfl⟩ : pay = pay' ∧ [] = out := by simpa [fecBlocks] using h
    exact advance_zero.symm
  | cons k ks ih =>
    simp only [fecBlocks, Option.bind_eq_bind, Option.bind_eq_some_iff, Option.pure_def,
      Option.some.injEq, Prod.mk.injEq] at h
    obtain ⟨blk, -, ⟨pay₁, rest⟩, hrest, rfl, rfl⟩ := h
    rw [ih hrest, advance_advance, List.flatten_cons, List.length_append]

/-- Block by block, the loop applies `generate_fec_packets`. -/
theorem forall₂_fecBlocks {ks : List ℕ} {out : List (List Packet)}
    (h : fecBlocks pay pkts perBlock ks = some (pay', out)) :
    List.Forall₂ (fun k blk => ∃ n, generateFecPackets (pay.advance n) (blockSub pkts perBlock k) k
      lastBlockIndex = some blk) ks out := by
  induction ks generalizing pay out with
  | nil =>
    obtain ⟨-, rfl⟩ : pay = pay' ∧ [] = out := by simpa [fecBlocks] using h
    exact .nil
  | cons k ks ih =>
    simp only [fecBlocks, Option.bind_eq_bind, Option.bind_eq_some_iff, Option.pure_def,
      Option.some.injEq, Prod.mk.injEq] at h
    obtain ⟨blk, hblk, ⟨pay₁, rest⟩, hrest, rfl, rfl⟩ := h
    refine .cons ⟨0, by rwa [advance_zero]⟩ ((ih hrest).imp ?_)
    rintro j blk' ⟨n, hn⟩
    exact ⟨blk.length + n, by rwa [← advance_advance]⟩

/-- Every list the loop returns comes from one of its blocks. -/
theorem exists_of_mem_fecBlocks {ks : List ℕ} {out : List (List Packet)}
    (h : fecBlocks pay pkts perBlock ks = some (pay', out)) {blk : List Packet} (hblk : blk ∈ out) :
    ∃ k ∈ ks, ∃ n, generateFecPackets (pay.advance n) (blockSub pkts perBlock k) k
      lastBlockIndex = some blk := by
  have hall := forall₂_fecBlocks h
  clear h
  induction hall with
  | nil => exact absurd hblk List.not_mem_nil
  | cons hk _ ih =>
    rcases List.mem_cons.mp hblk with rfl | hmem
    · exact ⟨_, List.mem_cons_self, hk⟩
    · obtain ⟨j, hj, hn⟩ := ih hmem
      exact ⟨j, List.mem_cons_of_mem _ hj, hn⟩

/-- The loop returns when every block has a packet. -/
theorem fecBlocks_eq_some (hpct : 0 < pay.fecPercentage) {ks : List ℕ}
    (hne : ∀ k ∈ ks, 0 < blockLength perBlock pkts.length k) :
    ∃ out, fecBlocks pay pkts perBlock ks = some (pay.advance out.flatten.length, out) := by
  suffices h : ∃ r, fecBlocks pay pkts perBlock ks = some r by
    obtain ⟨⟨pay', out⟩, h⟩ := h
    exact ⟨out, by rw [h, fecBlocks_fst h]⟩
  induction ks generalizing pay with
  | nil => exact ⟨_, rfl⟩
  | cons k ks ih =>
    have hk : 0 < (blockSub pkts perBlock k).length := by
      rw [length_blockSub]
      exact hne k List.mem_cons_self
    obtain ⟨blk, hblk⟩ : ∃ blk, generateFecPackets pay (blockSub pkts perBlock k) k
        lastBlockIndex = some blk := ⟨_, (generateFecPackets_eq_some hpct).mpr ⟨hk, rfl⟩⟩
    obtain ⟨⟨pay', rest⟩, hrest⟩ := ih
      (show 0 < (pay.advance blk.length).fecPercentage from hpct)
      fun j hj => hne j (List.mem_cons_of_mem _ hj)
    refine ⟨(pay', blk :: rest), ?_⟩
    rw [fecBlocks, Option.bind_eq_bind, Option.bind_eq_some_iff]
    refine ⟨blk, hblk, ?_⟩
    rw [Option.bind_eq_bind, hrest]
    rfl

end Blocks

/-- A third of the packets, rounded up. -/
theorem packetsPerBlock_eq {n : ℕ} (h : n < 2 ^ 24) : packetsPerBlock n = (n + 2) / 3 := by
  rw [packetsPerBlock, nrBlocks, binary32_natCast h.le, binary32_natCast (by decide), binary32,
    BinaryFloat.ceil_round_div (by decide) h (by decide), ceil_natCast_div (by decide)]
  rfl

/-! ### The whole frame -/

section Frames

variable {pay pay' : GstRtpMoonlightPayVideo} {inbuf : Frame}

/-- With FEC on, the two ways `split_into_rtp` goes. -/
theorem splitIntoBlocks_cases (hpct : 0 < pay.fecPercentage) {blocks : List (List Packet)}
    (h : splitIntoBlocks pay inbuf = some (pay', blocks)) :
    ∃ pkts tot fullPayloadBuf, prependVideoHeader pay inbuf = some fullPayloadBuf ∧
      generateRtpPackets pay fullPayloadBuf = some pkts ∧
      CutFrom pay fullPayloadBuf tot pkts ∧ pkts ≠ [] ∧
      pay' = { pay.advance blocks.flatten.length with frameNum := pay.frameNum + 1 } ∧
      ((pkts.length ≤ 90 ∧ ∃ blk, generateFecPackets pay pkts 0 0 = some blk ∧ blocks = [blk]) ∨
        (90 < pkts.length ∧ ∃ pay₁, fecBlocks pay pkts (packetsPerBlock pkts.length)
          (List.range nrBlocks) = some (pay₁, blocks))) := by
  simp only [splitIntoBlocks, Option.bind_eq_bind, Option.bind_eq_some_iff, Option.pure_def,
    Option.some.injEq, Prod.mk.injEq] at h
  obtain ⟨full, hfull, pkts, hpkts, ⟨pay₁, blks⟩, hfec, rfl, rfl⟩ := h
  obtain ⟨tot, hcut, -⟩ := cutFrom_generateRtpPackets hpkts
  rw [applyFec, if_pos hpct, Option.bind_eq_bind, Option.bind_eq_some_iff] at hfec
  obtain ⟨split, hsplit, hout⟩ := hfec
  rw [dataShards_of_determineSplit hsplit] at hout
  refine ⟨pkts, tot, full, hfull, hpkts, hcut, ?_, ?_⟩
  · rintro rfl
    simp [generateFecPackets_nil] at hout
  · by_cases h90 : 90 < pkts.length
    · rw [if_pos h90, generateFecMultiBlocks] at hout
      rw [fecBlocks_fst hout]
      exact ⟨rfl, .inr ⟨h90, _, hout⟩⟩
    · rw [if_neg h90, Option.map_eq_some_iff] at hout
      obtain ⟨blk, hblk, heq⟩ := hout
      obtain ⟨rfl, rfl⟩ := Prod.mk.inj heq
      refine ⟨?_, .inl ⟨not_lt.mp h90, blk, hblk, rfl⟩⟩
      rw [List.flatten_singleton]
      rfl


/-! ### Frames below `2 ^ 24` bytes -/

/-- The packets such a frame is cut into. -/
def cutPackets (pay : GstRtpMoonlightPayVideo) (inbuf : Bytes) : List Packet :=
  (List.range (packetCount pay inbuf.length)).map
    (packetAt pay inbuf (packetCount pay inbuf.length))

@[simp]
theorem length_cutPackets {bs : Bytes} :
    (cutPackets pay bs).length = packetCount pay bs.length := by simp [cutPackets]

theorem getElem?_cutPackets {bs : Bytes} {i : ℕ} (hi : i < packetCount pay bs.length) :
    (cutPackets pay bs)[i]? = some (packetAt pay bs (packetCount pay bs.length) i) := by
  rw [cutPackets, List.getElem?_map, List.getElem?_range hi, Option.map_some]

theorem cutFrom_cutPackets (hpay : 16 < pay.payloadSize) (bs : Bytes) :
    CutFrom pay bs (packetCount pay bs.length) (cutPackets pay bs) := by
  have hlt : ∀ {i p}, (cutPackets pay bs)[i]? = some p → i < packetCount pay bs.length := by
    intro i p hp
    simpa using (List.getElem?_eq_some_iff.mp hp).1
  refine ⟨fun _ => hpay, fun hp => ?_, fun hp => (mul_room_lt_of_lt_packetCount hpay (hlt hp)).le⟩
  rw [getElem?_cutPackets (hlt hp)] at hp
  exact Option.some.inj hp

/-- The block lists `split_into_rtp` makes of the packets it cut. -/
inductive Divided (pay : GstRtpMoonlightPayVideo) (pkts : List Packet) :
    List (List Packet) → Prop
  | unprotected (h : pay.fecPercentage = 0) : Divided pay pkts [pkts]
  | single (hpct : 0 < pay.fecPercentage) (h : pkts.length ≤ 90) {blk : List Packet}
      (hblk : generateFecPackets pay pkts 0 0 = some blk) : Divided pay pkts [blk]
  | three (hpct : 0 < pay.fecPercentage) (h : 90 < pkts.length) {pay' : GstRtpMoonlightPayVideo}
      {blocks : List (List Packet)} (hblocks : fecBlocks pay pkts ((pkts.length + 2) / 3)
        (List.range nrBlocks) = some (pay', blocks)) : Divided pay pkts blocks

/-- Above 90 packets no block is empty. -/
theorem blockLength_pos {n k : ℕ} (hn : 90 < n) (hk : k < 3) :
    0 < blockLength ((n + 2) / 3) n k := by
  simp only [blockLength]
  obtain rfl | rfl | rfl : k = 0 ∨ k = 1 ∨ k = 2 := by omega
  all_goals omega

/-- FEC returns on every nonempty list of fewer than `2 ^ 24` packets. -/
theorem applyFec_eq_some {pkts : List Packet} (hne : 0 < pkts.length)
    (hlt : pkts.length < 2 ^ 24) :
    ∃ pay' blocks, applyFec pay pkts = some (pay', blocks) ∧ Divided pay pkts blocks := by
  rcases Nat.eq_zero_or_pos pay.fecPercentage with h0 | hpct
  · exact ⟨pay, [pkts], by rw [applyFec, if_neg (by omega)], .unprotected h0⟩
  rw [applyFec, if_pos hpct, determineSplit_eq hne, Option.bind_eq_bind, Option.bind_some]
  by_cases h90 : 90 < pkts.length
  · have hpos : ∀ k ∈ List.range nrBlocks, 0 < blockLength ((pkts.length + 2) / 3) pkts.length k :=
      fun k hk => blockLength_pos h90 (List.mem_range.mp hk)
    obtain ⟨out, hout⟩ := fecBlocks_eq_some hpct hpos
    refine ⟨pay.advance out.flatten.length, out, ?_, .three hpct h90 hout⟩
    rw [if_pos h90, generateFecMultiBlocks, packetsPerBlock_eq hlt]
    exact hout
  · obtain ⟨blk, hblk⟩ : ∃ blk, generateFecPackets pay pkts 0 0 = some blk :=
      ⟨_, (generateFecPackets_eq_some hpct).mpr ⟨hne, rfl⟩⟩
    exact ⟨pay.advance blk.length, [blk], by rw [if_neg h90, hblk]; rfl,
      .single hpct (not_lt.mp h90) hblk⟩

/-- **`split_into_rtp` returns**, and divides the packets the frame is cut into. -/
theorem splitIntoBlocks_eq_some (hpay : 16 < pay.payloadSize) {full : Bytes}
    (hfull : prependVideoHeader pay inbuf = some full) (hpos : 0 < full.length)
    (hsize : full.length < 2 ^ 24) :
    ∃ pay' blocks, splitIntoBlocks pay inbuf = some (pay', blocks) ∧
      Divided pay (cutPackets pay full) blocks := by
  have hcount : 0 < packetCount pay full.length := by
    rw [packetCount, Nat.div_pos_iff]
    have := room_pos hpay
    omega
  have hle : packetCount pay full.length ≤ full.length := packetCount_le hpay
  have hne : 0 < (cutPackets pay full).length := by rwa [length_cutPackets]
  obtain ⟨pay', blocks, hfec, hdiv⟩ := applyFec_eq_some hne (by rw [length_cutPackets]; omega)
  refine ⟨{ pay' with frameNum := pay'.frameNum + 1 }, blocks, ?_, hdiv⟩
  simp only [splitIntoBlocks, hfull, generateRtpPackets_eq hpay hsize, Option.bind_eq_bind,
    Option.bind_some]
  rw [cutPackets] at hfec
  rw [hfec]
  rfl

end Frames

end SteamStream.Video
