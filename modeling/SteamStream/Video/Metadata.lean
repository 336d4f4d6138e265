import SteamStream.Video.Blocks
import Mathlib.Algebra.BigOperators.Group.Finset.Basic

/-!
# What the FEC headers say

`DescribesBlocks`: the block, shard and data counts a receiver decodes from the headers of a
frame describe the packets that were sent. A block that was stamped satisfies its share of this
(`blockAt_stamp`), and so does a whole frame that kept its fresh headers and fits the ten-bit
counts (`blockAt_fresh`). The headers go wrong in two ways:

* only *some* of the three blocks skip FEC. Their fresh headers announce one block numbered 0,
  the stamped ones three blocks (637, 638 and 640 packets);
* more than 1023 packets are sent under fresh headers, which have ten bits for a count.

`splitIntoRtp_describesBlocks_iff` says that, with the settings the server announces, these are
the only frame sizes that go wrong.
-/

namespace SteamStream.Video

open Wire Layout Nanors

/-! ### The description -/

/-- The packets of a frame split into the blocks `0..last`; block `b` has `data b` data packets
and its packets are numbered from `base b`. -/
structure DescribesBlocks (pkts : List Packet) (last : ℕ) (data base : ℕ → ℕ) : Prop where
  lastBlock : ∀ p ∈ pkts, p.lastBlock = last
  block_le : ∀ p ∈ pkts, p.block ≤ last
  block_inhabited : ∀ b ≤ last, ∃ p ∈ pkts, p.block = b
  dataShards : ∀ p ∈ pkts, p.dataShards = data p.block
  shards : ∀ b ≤ last, ((pkts.filter fun p => p.block = b).map Packet.shard).Perm
    (List.range (pkts.filter fun p => p.block = b).length)
  shard_lt : ∀ p ∈ pkts, (p.shard < p.dataShards ↔ p.isData = true)
  origin : ∀ p ∈ pkts, p.isData = true →
    p.origin = .data (∑ b ∈ Finset.range p.block, data b + p.shard)
  seq : ∀ p ∈ pkts, p.seq = (base p.block + p.shard) % 2 ^ 16

/-- The share of one block: packet `i` of the list is shard `i`, and the first `n` are the data
packets `off, off + 1, …` of the frame. -/
structure BlockAt (last b n off base : ℕ) (blk : List Packet) : Prop where
  ne_nil : blk ≠ []
  block : ∀ {i : ℕ} {p}, blk[i]? = some p → p.block = b
  lastBlock : ∀ {i : ℕ} {p}, blk[i]? = some p → p.lastBlock = last
  shard : ∀ {i : ℕ} {p}, blk[i]? = some p → p.shard = i
  dataShards : ∀ {i : ℕ} {p}, blk[i]? = some p → p.dataShards = n
  isData : ∀ {i : ℕ} {p}, blk[i]? = some p → (p.isData = true ↔ i < n)
  origin : ∀ {i : ℕ} {p}, blk[i]? = some p → p.isData = true → p.origin = .data (off + i)
  seq : ∀ {i : ℕ} {p}, blk[i]? = some p → p.seq = (base + i) % 2 ^ 16

/-! ### Assembling the blocks -/

/-- The packets of block `c + i`, when block `c` comes first. -/
theorem filter_block_flatten {blocks : List (List Packet)} {c i : ℕ}
    (h : ∀ (j : ℕ) blk, blocks[j]? = some blk → ∀ p ∈ blk, p.block = c + j) :
    (blocks.flatten.filter fun p => p.block = c + i) = blocks.getD i [] := by
  induction blocks generalizing c i with
  | nil => simp
  | cons blk blocks ih =>
    have hhead : ∀ p ∈ blk, p.block = c := fun p hp => h 0 blk rfl p hp
    have htail : ∀ (j : ℕ) blk', blocks[j]? = some blk' → ∀ p ∈ blk', p.block = c + 1 + j := by
      intro j blk' hj p hp
      rw [h (j + 1) blk' (by simpa using hj) p hp]
      omega
    rw [List.flatten_cons, List.filter_append]
    cases i with
    | zero =>
      have hself : (blk.filter fun p => p.block = c + 0) = blk :=
        List.filter_eq_self.mpr fun p hp => by simpa using hhead p hp
      have hnil : (blocks.flatten.filter fun p => p.block = c + 0) = [] := by
        rw [List.filter_eq_nil_iff]
        intro p hp
        obtain ⟨blk', hblk', hp'⟩ := List.mem_flatten.mp hp
        obtain ⟨j, hj⟩ := List.mem_iff_getElem?.mp hblk'
        have := htail j blk' hj p hp'
        simp only [decide_eq_true_eq]
        omega
      rw [hself, hnil, List.append_nil, List.getD_cons_zero]
    | succ i =>
      have hnil : (blk.filter fun p => p.block = c + (i + 1)) = [] := by
        rw [List.filter_eq_nil_iff]
        intro p hp
        have := hhead p hp
        simp only [decide_eq_true_eq]
        omega
      rw [hnil, List.nil_append, List.getD_cons_succ, ← ih htail,
        show c + (i + 1) = c + 1 + i by omega]

/-- **Blocks that each say their share describe the frame.** -/
theorem describesBlocks_flatten {blocks : List (List Packet)} {last : ℕ} {data base : ℕ → ℕ}
    (hlen : blocks.length = last + 1)
    (h : ∀ (b : ℕ) blk, blocks[b]? = some blk →
      BlockAt last b (data b) (∑ j ∈ Finset.range b, data j) (base b) blk) :
    DescribesBlocks blocks.flatten last data base := by
  have hmem : ∀ p ∈ blocks.flatten, ∃ (b : ℕ) (blk : List Packet) (i : ℕ), b ≤ last ∧
      blk[i]? = some p ∧ BlockAt last b (data b) (∑ j ∈ Finset.range b, data j) (base b) blk := by
    intro p hp
    obtain ⟨blk, hblk, hpb⟩ := List.mem_flatten.mp hp
    obtain ⟨b, hb⟩ := List.mem_iff_getElem?.mp hblk
    obtain ⟨i, hi⟩ := List.mem_iff_getElem?.mp hpb
    have hlt : b < blocks.length := (List.getElem?_eq_some_iff.mp hb).1
    exact ⟨b, blk, i, by omega, hi, h b blk hb⟩
  have hget : ∀ b ≤ last, ∃ blk, blocks[b]? = some blk := fun b hb =>
    ⟨_, List.getElem?_eq_getElem (by omega)⟩
  have hfilter : ∀ {b : ℕ} {blk}, blocks[b]? = some blk →
      (blocks.flatten.filter fun p => p.block = b) = blk := by
    intro b blk hb
    have hf := filter_block_flatten (c := 0) (i := b) fun j blk' hj p hp => by
      obtain ⟨i, hi⟩ := List.mem_iff_getElem?.mp hp
      rw [(h j blk' hj).block hi, Nat.zero_add]
    rwa [Nat.zero_add, List.getD_eq_getElem?_getD, hb, Option.getD_some] at hf
  refine ⟨?_, ?_, ?_, ?_, ?_, ?_, ?_, ?_⟩
  · intro p hp
    obtain ⟨b, blk, i, -, hi, hat⟩ := hmem p hp
    exact hat.lastBlock hi
  · intro p hp
    obtain ⟨b, blk, i, hb, hi, hat⟩ := hmem p hp
    exact (hat.block hi).trans_le hb
  · intro b hb
    obtain ⟨blk, hblk⟩ := hget b hb
    have hat := h b blk hblk
    have hpos := List.length_pos_iff.mpr hat.ne_nil
    exact ⟨blk[0], List.mem_flatten.mpr ⟨blk, List.mem_of_getElem? hblk, List.getElem_mem hpos⟩,
      hat.block (List.getElem?_eq_getElem hpos)⟩
  · intro p hp
    obtain ⟨b, blk, i, -, hi, hat⟩ := hmem p hp
    rw [hat.dataShards hi, hat.block hi]
  · intro b hb
    obtain ⟨blk, hblk⟩ := hget b hb
    have hat := h b blk hblk
    rw [hfilter hblk]
    refine List.Perm.of_eq (List.ext_getElem? fun i => ?_)
    rw [List.getElem?_map]
    by_cases hi : i < blk.length
    · rw [List.getElem?_eq_getElem hi, List.getElem?_range hi, Option.map_some,
        hat.shard (List.getElem?_eq_getElem hi)]
    · rw [List.getElem?_eq_none (not_lt.mp hi), List.getElem?_eq_none (by simpa using hi)]
      rfl
  · intro p hp
    obtain ⟨b, blk, i, -, hi, hat⟩ := hmem p hp
    rw [hat.shard hi, hat.dataShards hi, hat.isData hi]
  · intro p hp hdata
    obtain ⟨b, blk, i, -, hi, hat⟩ := hmem p hp
    rw [hat.origin hi hdata, hat.block hi, hat.shard hi]
  · intro p hp
    obtain ⟨b, blk, i, -, hi, hat⟩ := hmem p hp
    rw [hat.seq hi, hat.block hi, hat.shard hi]

/-! ### The share of a block -/

section Share

variable {pay : GstRtpMoonlightPayVideo} {pkts : List Packet} {b l last off : ℕ}

/-- A stamped block says its share. -/
theorem blockAt_stamp (hpct : 0 < pay.fecPercentage) (hpay : 16 < pay.payloadSize)
    (hn : 0 < pkts.length) (hskip : ¬ SkipsFec pay pkts.length)
    (hlow : blockPercentage pay pkts.length < 256)
    (horigin : ∀ (i : ℕ) p, pkts[i]? = some p → p.origin = .data (off + i))
    (hhdr : ∀ p ∈ pkts, videoRtpHeadersSize ≤ p.bytes.length)
    (hb : (((b <<< 4 ||| l) % 256) >>> 4) &&& 3 = b) (hl : ((b <<< 4 ||| l) % 256) >>> 6 = last) :
    BlockAt last b pkts.length off pay.curSeqNumber.toNat
      (stamp pay b l pkts.length (protect pay pkts)) := by
  have hlen := length_protect hn (parityShards_pos hpct hn) hskip
  have hle : pkts.length + parityShards pay pkts.length ≤ 255 := not_lt.mp hskip
  have hget : ∀ {i p}, (stamp pay b l pkts.length (protect pay pkts))[i]? = some p → i < 1024 ∧
      ∃ q, (protect pay pkts)[i]? = some q ∧ videoRtpHeadersSize ≤ q.bytes.length ∧
        p = ⟨updateFecInfo pay q.bytes i pkts.length (blockPercentage pay pkts.length) b l,
          q.origin⟩ := by
    intro i p hp
    have hi := (List.getElem?_eq_some_iff.mp hp).1
    rw [length_stamp, hlen] at hi
    rw [getElem?_stamp, Option.map_eq_some_iff] at hp
    obtain ⟨q, hq, rfl⟩ := hp
    exact ⟨by omega, q, hq, header_le_of_mem_protect hpay hhdr (List.mem_of_getElem? hq), rfl⟩
  have hparity : ∀ {i q}, ¬ i < pkts.length → (protect pay pkts)[i]? = some q →
      q.origin = .parity := by
    intro i q hi hq
    rw [protect, List.getElem?_append_right (not_lt.mp hi), List.getElem?_map,
      Option.map_eq_some_iff] at hq
    obtain ⟨r, -, rfl⟩ := hq
    rfl
  have hdataAt : ∀ {i q}, i < pkts.length → (protect pay pkts)[i]? = some q →
      q.origin = .data (off + i) := by
    intro i q hi hq
    rw [protect, List.getElem?_append_left hi] at hq
    exact horigin i q hq
  refine ⟨?_, ?_, ?_, ?_, ?_, ?_, ?_, ?_⟩
  · rw [← List.length_pos_iff, length_stamp, hlen]
    omega
  · intro i p hp
    obtain ⟨-, q, -, hq, rfl⟩ := hget hp
    rw [block_updateFecInfo hq, hb]
  · intro i p hp
    obtain ⟨-, q, -, hq, rfl⟩ := hget hp
    rw [lastBlock_updateFecInfo hq, hl]
  · intro i p hp
    obtain ⟨hi, q, -, hq, rfl⟩ := hget hp
    rw [shard_updateFecInfo hq hlow, Nat.mod_eq_of_lt hi]
  · intro i p hp
    obtain ⟨hi, q, -, hq, rfl⟩ := hget hp
    rw [dataShards_updateFecInfo hq hlow hi, Nat.mod_eq_of_lt (by omega)]
  · intro i p hp
    obtain ⟨-, q, hq, -, rfl⟩ := hget hp
    by_cases hi : i < pkts.length
    · exact iff_of_true (by rw [Packet.isData, hdataAt hi hq]) hi
    · refine iff_of_false ?_ hi
      rw [Packet.isData, hparity hi hq]
      exact Bool.false_ne_true
  · intro i p hp hdata
    obtain ⟨-, q, hq, -, rfl⟩ := hget hp
    by_cases hi : i < pkts.length
    · have horig := hdataAt hi hq
      exact horig
    · rw [Packet.isData, hparity hi hq] at hdata
      cases hdata
  · intro i p hp
    obtain ⟨-, q, -, hq, rfl⟩ := hget hp
    exact seq_updateFecInfo hq

/-- A frame that kept its fresh headers says its share when the counts fit. -/
theorem blockAt_fresh {bs : Bytes} {tot : ℕ} (h : CutFrom pay bs tot pkts)
    (htot : tot = pkts.length) (hne : pkts ≠ []) (hlt : pkts.length < 1024) :
    BlockAt 0 0 pkts.length 0 pay.curSeqNumber.toNat pkts := by
  have hidx : ∀ {i : ℕ} {p}, pkts[i]? = some p → i < pkts.length := fun hp =>
    (List.getElem?_eq_some_iff.mp hp).1
  refine ⟨hne, fun hp => ?_, fun hp => ?_, fun hp => ?_, fun hp => ?_, fun hp => ?_,
    fun hp _ => ?_, fun hp => h.seq hp⟩
  · rw [← h.packet hp]
    exact block_createRtpHeader
  · rw [← h.packet hp]
    exact lastBlock_createRtpHeader
  · have hi := hidx hp
    rw [← h.packet hp]
    exact shard_createRtpHeader.trans (Nat.mod_eq_of_lt (by omega))
  · have hi := hidx hp
    rw [← h.packet hp]
    exact (dataShards_createRtpHeader (by omega)).trans (by rw [Nat.mod_eq_of_lt (by omega), htot])
  · exact iff_of_true (h.isData (List.mem_of_getElem? hp)) (hidx hp)
  · rw [h.origin hp, Nat.zero_add]

end Share

/-! ### The announced settings -/

/-- The FEC settings ANNOUNCE sets, and any usable payload size. -/
structure Announced (pay : GstRtpMoonlightPayVideo) : Prop where
  fecPercentage : pay.fecPercentage = 20
  minRequiredFecPackets : pay.minRequiredFecPackets = 2
  payloadSize : 16 < pay.payloadSize

namespace Announced

variable {pay : GstRtpMoonlightPayVideo} {n : ℕ}

theorem pct_pos (h : Announced pay) : 0 < pay.fecPercentage := by rw [h.fecPercentage]; decide

/-- A block skips FEC from 213 data packets on. -/
theorem skipsFec_iff (h : Announced pay) : SkipsFec pay n ↔ 212 < n := by
  simp only [SkipsFec, parityShards, h.fecPercentage, h.minRequiredFecPackets, dataShardsMax]
  omega

/-- The percentage of a block fits its byte. -/
theorem blockPercentage_lt (h : Announced pay) : blockPercentage pay n < 256 := by
  rw [blockPercentage, h.fecPercentage, h.minRequiredFecPackets]
  split_ifs
  · exact lt_of_le_of_lt (Nat.div_le_self _ _) (by decide)
  · decide

end Announced

/-! ### Frames of up to 1024 packets -/

section Small

variable {pay : GstRtpMoonlightPayVideo} {inbuf : Frame}

theorem le_packetCount_mul (hpay : 16 < pay.payloadSize) (size : ℕ) :
    size ≤ packetCount pay size * pay.room := by
  have hr := room_pos hpay
  have hdm := Nat.div_add_mod (size + (pay.room - 1)) pay.room
  have hlt := Nat.mod_lt (size + (pay.room - 1)) hr
  rw [packetCount, Nat.mul_comm]
  omega

/-- Such a frame is far below `2 ^ 24` bytes, so it is sent, and divided as `Divided` says. -/
theorem splitIntoRtp_divided (hpay : 16 < pay.payloadSize)
    (hcount : packetCount pay (inbuf.data.length + 8) ≤ 1024) :
    ∃ pay' full blocks, splitIntoRtp pay inbuf = some (pay', blocks.flatten) ∧
      full.length = inbuf.data.length + 8 ∧ Divided pay (cutPackets pay full) blocks := by
  obtain ⟨sh, -, hfull, hlen, -⟩ := prependVideoHeader_eq_some hpay inbuf
  have hlenFull : (sh ++ inbuf.data).length = inbuf.data.length + 8 := by
    rw [List.length_append, hlen, ShortHeader.size, Nat.add_comm]
  have hsize : inbuf.data.length + 8 < 2 ^ 24 := by
    have hle := le_packetCount_mul hpay (inbuf.data.length + 8)
    have hroom : pay.room ≤ 10224 := by
      have hmax := pay.payloadSize_le
      simp only [GstRtpMoonlightPayVideo.room, maxRtpHeaderSize]
      omega
    have hmul := Nat.mul_le_mul hcount hroom
    omega
  obtain ⟨pay', blocks, hsplit, hdiv⟩ := splitIntoBlocks_eq_some hpay hfull
    (by rw [hlenFull]; exact Nat.succ_pos _) (by rwa [hlenFull])
  exact ⟨pay', _, blocks, by rw [splitIntoRtp, hsplit]; rfl, hlenFull, hdiv⟩

/-- The blocks of the three-block path, index by index. -/
theorem getElem?_fecBlocks {pay' : GstRtpMoonlightPayVideo} {pkts : List Packet}
    {perBlock : ℕ} {blocks : List (List Packet)}
    (h : fecBlocks pay pkts perBlock (List.range nrBlocks) = some (pay', blocks)) :
    blocks.length = 3 ∧ ∀ {k : ℕ} {blk}, blocks[k]? = some blk → k < 3 ∧
      ∃ n, generateFecPackets (pay.advance n) (blockSub pkts perBlock k) k lastBlockIndex =
        some blk := by
  have hall := forall₂_fecBlocks h
  have hlen : blocks.length = 3 := by rw [← hall.length_eq, List.length_range, nrBlocks]
  refine ⟨hlen, fun {k blk} hk => ?_⟩
  obtain ⟨hlt, rfl⟩ := List.getElem?_eq_some_iff.mp hk
  have hget := hall.get (by rw [List.length_range, nrBlocks]; omega) hlt
  simp only [List.get_eq_getElem, List.getElem_range] at hget
  exact ⟨by omega, hget⟩

/-- When every block skips FEC the frame is sent as it was cut. -/
theorem flatten_of_skipsFec (hpct : 0 < pay.fecPercentage) {pkts : List Packet}
    {blocks : List (List Packet)} (h : Divided pay pkts blocks) (h90 : 90 < pkts.length)
    (hskip : ∀ k < 3, SkipsFec pay (blockLength ((pkts.length + 2) / 3) pkts.length k)) :
    blocks.flatten = pkts := by
  cases h with
  | unprotected h => omega
  | single _ h _ => omega
  | three _ _ hblocks =>
    obtain ⟨hlen, hget⟩ := getElem?_fecBlocks hblocks
    have hblocks : blocks = (List.range' 0 3).map (blockSub pkts ((pkts.length + 2) / 3)) := by
      refine List.ext_getElem? fun k => ?_
      by_cases hk : k < 3
      · obtain ⟨blk, hblk⟩ : ∃ blk, blocks[k]? = some blk :=
          ⟨_, List.getElem?_eq_getElem (by omega)⟩
        obtain ⟨-, n, hn⟩ := hget hblk
        have hout := ((generateFecPackets_eq_some
          (show 0 < (pay.advance n).fecPercentage from hpct)).mp hn).2
        rw [if_pos (by rw [length_blockSub]; exact hskip k hk)] at hout
        rw [hblk, ← hout, List.getElem?_map, ← List.range_eq_range', List.getElem?_range hk,
          Option.map_some]
      · rw [List.getElem?_eq_none (by omega), List.getElem?_eq_none (by simp; omega)]
    rw [hblocks, flatten_blockSub, gstBufferListSub, Nat.zero_mul, List.drop_zero,
      List.take_of_length_le (by omega)]

/-- A stamped block of the three-block path. -/
theorem blockAt_three (ha : Announced pay) {pkts : List Packet} {perBlock n k : ℕ}
    {blk : List Packet} (hk : k < 3) (hlen : blockLength perBlock pkts.length k ≤ 212)
    (horigin : ∀ (i : ℕ) p, pkts[i]? = some p → p.origin = .data i)
    (hhdr : ∀ p ∈ pkts, videoRtpHeadersSize ≤ p.bytes.length)
    (h : generateFecPackets (pay.advance n) (blockSub pkts perBlock k) k lastBlockIndex =
      some blk) :
    BlockAt 2 k (blockLength perBlock pkts.length k) (k * perBlock)
      (pay.advance n).curSeqNumber.toNat blk := by
  have hpct : 0 < (pay.advance n).fecPercentage := ha.pct_pos
  obtain ⟨hpos, hout⟩ := (generateFecPackets_eq_some hpct).mp h
  have hskip : ¬ SkipsFec (pay.advance n) (blockSub pkts perBlock k).length := by
    rw [skipsFec_advance, ha.skipsFec_iff, length_blockSub]
    omega
  rw [if_neg hskip] at hout
  rw [← hout, ← length_blockSub k]
  refine blockAt_stamp hpct ha.payloadSize hpos hskip
    ha.blockPercentage_lt (fun i p hp => ?_) (fun p hp => hhdr p (mem_of_mem_blockSub hp)) ?_ ?_
  · rw [blockSub, gstBufferListSub, List.getElem?_take] at hp
    split_ifs at hp
    rw [List.getElem?_drop] at hp
    exact horigin _ p hp
  · obtain rfl | rfl | rfl : k = 0 ∨ k = 1 ∨ k = 2 := by omega
    all_goals rfl
  · obtain rfl | rfl | rfl : k = 0 ∨ k = 1 ∨ k = 2 := by omega
    all_goals rfl

/-- All blocks but the last are full. -/
theorem sum_blockLength {n k : ℕ} (hn : 90 < n) (hk : k < 3) :
    ∑ j ∈ Finset.range k, blockLength ((n + 2) / 3) n j = k * ((n + 2) / 3) := by
  have hfull : ∀ j ∈ Finset.range k, blockLength ((n + 2) / 3) n j = (n + 2) / 3 := by
    intro j hj
    rw [Finset.mem_range] at hj
    obtain rfl | rfl : j = 0 ∨ j = 1 := by omega
    all_goals
      simp only [blockLength]
      omega
  rw [Finset.sum_const_nat hfull, Finset.card_range]

/-- **The sizes that go right.** -/
theorem exists_describesBlocks (ha : Announced pay) {pkts : List Packet}
    {blocks : List (List Packet)} {full : Bytes} (hcut : CutFrom pay full pkts.length pkts)
    (hne : pkts ≠ []) (h : Divided pay pkts blocks)
    (hN : pkts.length ≤ 636 ∨ pkts.length = 639 ∨ (641 ≤ pkts.length ∧ pkts.length ≤ 1023)) :
    ∃ last data base, DescribesBlocks blocks.flatten last data base := by
  have hhdr : ∀ p ∈ pkts, videoRtpHeadersSize ≤ p.bytes.length := fun p hp => hcut.header_le hp
  have hfresh : ∀ (_ : blocks.flatten = pkts), pkts.length ≤ 1023 →
      ∃ last data base, DescribesBlocks blocks.flatten last data base := by
    intro heq hle
    have hat := blockAt_fresh hcut rfl hne (by omega)
    have hdesc : DescribesBlocks [pkts].flatten 0 (fun _ => pkts.length)
        (fun _ => pay.curSeqNumber.toNat) := describesBlocks_flatten rfl fun b blk hb => by
        obtain rfl : b = 0 := by
          have := (List.getElem?_eq_some_iff.mp hb).1
          simpa using this
        obtain rfl : pkts = blk := by simpa using hb
        simpa using hat
    rw [List.flatten_singleton] at hdesc
    exact ⟨_, _, _, heq ▸ hdesc⟩
  by_cases hbig : 636 < pkts.length
  · refine hfresh (flatten_of_skipsFec ha.pct_pos h (by omega) fun k hk => ?_) (by omega)
    rw [ha.skipsFec_iff]
    simp only [blockLength]
    obtain rfl | rfl | rfl : k = 0 ∨ k = 1 ∨ k = 2 := by omega
    all_goals omega
  · cases h with
    | unprotected h => exact absurd h ha.pct_pos.ne'
    | @single _ h90 blk hblk =>
      obtain ⟨hpos, hout⟩ := (generateFecPackets_eq_some ha.pct_pos).mp hblk
      have hskip : ¬ SkipsFec pay pkts.length := by
        rw [ha.skipsFec_iff]
        omega
      rw [if_neg hskip] at hout
      have hat : BlockAt 0 0 pkts.length 0 pay.curSeqNumber.toNat
          (stamp pay 0 0 pkts.length (protect pay pkts)) :=
        blockAt_stamp ha.pct_pos ha.payloadSize hpos hskip ha.blockPercentage_lt
          (fun i p hp => by rw [hcut.origin hp, Nat.zero_add]) hhdr rfl rfl
      rw [hout] at hat
      refine ⟨0, fun _ => pkts.length, fun _ => pay.curSeqNumber.toNat,
        describesBlocks_flatten rfl fun b blk' hb => ?_⟩
      obtain rfl : b = 0 := by
        have := (List.getElem?_eq_some_iff.mp hb).1
        simpa using this
      obtain rfl : blk = blk' := by simpa using hb
      simpa using hat
    | three _ h90 hblocks =>
      obtain ⟨hlen, hget⟩ := getElem?_fecBlocks hblocks
      have hshare : ∀ k, ∃ base, ∀ blk, blocks[k]? = some blk →
          BlockAt 2 k (blockLength ((pkts.length + 2) / 3) pkts.length k)
            (∑ j ∈ Finset.range k, blockLength ((pkts.length + 2) / 3) pkts.length j) base blk := by
        intro k
        rcases hk : blocks[k]? with _ | blk
        · exact ⟨0, fun blk hb => by cases hb⟩
        · obtain ⟨hlt, n, hn⟩ := hget hk
          refine ⟨(pay.advance n).curSeqNumber.toNat, fun blk' hb => ?_⟩
          obtain rfl : blk = blk' := Option.some.inj hb
          rw [sum_blockLength h90 hlt]
          refine blockAt_three ha hlt ?_ (fun i p hp => hcut.origin hp) hhdr hn
          simp only [blockLength]
          obtain rfl | rfl | rfl : k = 0 ∨ k = 1 ∨ k = 2 := by omega
          all_goals omega
      choose base hbase using hshare
      exact ⟨2, _, base, describesBlocks_flatten hlen fun k blk hk => hbase k blk hk⟩

/-- A first block that skips FEC is sent with headers that announce a single block. -/
theorem exists_lastBlock_eq_zero (ha : Announced pay) {pay' : GstRtpMoonlightPayVideo}
    {pkts : List Packet} {perBlock tot : ℕ} {full : Bytes} {blocks : List (List Packet)}
    (hcut : CutFrom pay full tot pkts)
    (h : fecBlocks pay pkts perBlock (List.range nrBlocks) = some (pay', blocks))
    (hlen : 212 < blockLength perBlock pkts.length 0) :
    ∃ p ∈ blocks.flatten, p.lastBlock = 0 := by
  obtain ⟨hlen3, hget⟩ := getElem?_fecBlocks h
  obtain ⟨blk, hblk⟩ : ∃ blk, blocks[0]? = some blk := ⟨_, List.getElem?_eq_getElem (by omega)⟩
  obtain ⟨-, n, hn⟩ := hget hblk
  have hpct : 0 < (pay.advance n).fecPercentage := ha.pct_pos
  obtain ⟨hpos, hout⟩ := (generateFecPackets_eq_some hpct).mp hn
  have hskip : SkipsFec (pay.advance n) (blockSub pkts perBlock 0).length := by
    rwa [skipsFec_advance, ha.skipsFec_iff, length_blockSub]
  rw [if_pos hskip] at hout
  obtain ⟨p, hp⟩ := List.exists_mem_of_length_pos hpos
  refine ⟨p, List.mem_flatten.mpr ⟨blk, List.mem_of_getElem? hblk, hout ▸ hp⟩, ?_⟩
  obtain ⟨i, hi⟩ := List.mem_iff_getElem?.mp (mem_of_mem_blockSub hp)
  rw [← hcut.packet hi]
  exact lastBlock_createRtpHeader

/-- **Two of three.** From 637 to 640 packets, 639 apart, the first block skips FEC and the
last one does not. -/
theorem not_describesBlocks_mixed (ha : Announced pay) {pkts : List Packet}
    {blocks : List (List Packet)} {full : Bytes} {tot : ℕ} (hcut : CutFrom pay full tot pkts)
    (h : Divided pay pkts blocks)
    (hN : pkts.length = 637 ∨ pkts.length = 638 ∨ pkts.length = 640) {last : ℕ}
    {data base : ℕ → ℕ} : ¬ DescribesBlocks blocks.flatten last data base := by
  intro hd
  cases h with
  | unprotected h => exact absurd h ha.pct_pos.ne'
  | single _ h90 _ => omega
  | three _ _ hblocks =>
    obtain ⟨hlen, hget⟩ := getElem?_fecBlocks hblocks
    set perBlock := (pkts.length + 2) / 3 with hper
    -- the first block kept its fresh headers
    obtain ⟨p₀, hp₀, hlast₀⟩ := exists_lastBlock_eq_zero ha hcut hblocks (by
      simp only [blockLength]
      omega)
    -- the last block was stamped
    obtain ⟨blk₂, hb2⟩ : ∃ blk, blocks[2]? = some blk := ⟨_, List.getElem?_eq_getElem (by omega)⟩
    obtain ⟨-, n₂, hn₂⟩ := hget hb2
    have hat := blockAt_three ha (by decide) (by simp only [blockLength]; omega)
      (fun i p hp => hcut.origin hp) (fun p hp => hcut.header_le hp) hn₂
    have hpos₂ := List.length_pos_iff.mpr hat.ne_nil
    have hlast₂ := hat.lastBlock (List.getElem?_eq_getElem hpos₂)
    have h0 := hd.lastBlock p₀ hp₀
    have h2 := hd.lastBlock _ (List.mem_flatten.mpr
      ⟨_, List.mem_of_getElem? hb2, List.getElem_mem hpos₂⟩)
    omega

/-- **Ten bits.** A fresh header cannot announce 1024 packets. -/
theorem not_describesBlocks_1024 (ha : Announced pay) {pkts : List Packet}
    {blocks : List (List Packet)} {full : Bytes} (hcut : CutFrom pay full pkts.length pkts)
    (h : Divided pay pkts blocks) (hN : pkts.length = 1024) {last : ℕ} {data base : ℕ → ℕ} :
    ¬ DescribesBlocks blocks.flatten last data base := by
  intro hd
  have heq : blocks.flatten = pkts := by
    refine flatten_of_skipsFec ha.pct_pos h (by omega) fun k hk => ?_
    rw [ha.skipsFec_iff]
    simp only [blockLength]
    obtain rfl | rfl | rfl : k = 0 ∨ k = 1 ∨ k = 2 := by omega
    all_goals omega
  rw [heq] at hd
  have hpos : 0 < pkts.length := by omega
  have hget := List.getElem?_eq_getElem hpos
  have hmem : pkts[0] ∈ pkts := List.getElem_mem hpos
  have hdata : pkts[0].dataShards = 0 := by
    rw [← hcut.packet hget]
    exact (dataShards_createRtpHeader (by decide)).trans (by rw [hN])
  have hlt := (hd.shard_lt _ hmem).mpr (hcut.isData hmem)
  omega

end Small

/-! ### Larger frames -/

section Large

variable {pay pay' : GstRtpMoonlightPayVideo} {inbuf : Frame}

/-- A lower bound on the counts computed in floats, that needs no bound on the numerator. -/
theorem lt_ceil_binary32 {size a b n : ℕ} (hle : a ≤ size) (ha : a < 2 ^ 24) (hb : 0 < b)
    (hb' : b ≤ 2 ^ 24) (hn : n * b < a) :
    (n : ℤ) < ⌈binary32 (binary32 size / binary32 b)⌉ := by
  have hbq : (0 : ℚ) < b := by exact_mod_cast hb
  have hmono : (a : ℚ) ≤ binary32 size := by
    rw [← binary32_natCast ha.le]
    exact BinaryFloat.round_mono (by decide) (by positivity) (by exact_mod_cast hle)
  have hquot : (n : ℚ) < (a : ℚ) / b := (lt_div_iff₀ hbq).mpr (by exact_mod_cast hn)
  rw [Int.lt_ceil, binary32_natCast hb']
  calc ((n : ℤ) : ℚ) = n := Int.cast_natCast n
    _ < BinaryFloat.round 24 ((a : ℚ) / b) := BinaryFloat.lt_round_div (by decide) ha hb hquot
    _ ≤ binary32 (binary32 size / b) := BinaryFloat.round_mono (by decide) (by positivity)
        (div_le_div_of_nonneg_right hmono hbq.le)

theorem le_length_packetNumbers {n tot : ℕ} (hn : n ≤ 2 ^ 24) (h : n ≤ tot) :
    n ≤ (packetNumbers tot).length := by
  have hsplit : List.range tot = List.range n ++ List.range' n (tot - n) := by
    have happ := List.range'_append_1 (s := 0) (m := n) (n := tot - n)
    rw [Nat.zero_add, Nat.add_sub_cancel' h] at happ
    rw [List.range_eq_range', List.range_eq_range', happ]
  have hpos : ∀ i ∈ List.range n, decide (binary32 i < tot) = true := by
    intro i hi
    rw [List.mem_range] at hi
    rw [decide_eq_true_eq, binary32_natCast (by omega)]
    exact_mod_cast hi.trans_le h
  rw [packetNumbers, hsplit, List.takeWhile_append_of_pos hpos, List.length_append,
    List.length_range]
  exact Nat.le_add_right _ _

/-- A block list is at least as long as the packets it was made of. -/
theorem length_le_of_generateFecPackets (hpct : 0 < pay.fecPercentage) {pkts out : List Packet}
    {b l : ℕ} (h : generateFecPackets pay pkts b l = some out) : pkts.length ≤ out.length := by
  obtain ⟨-, rfl⟩ := (generateFecPackets_eq_some hpct).mp h
  split_ifs
  · exact le_rfl
  · rw [length_stamp, protect, List.length_append]
    exact Nat.le_add_right _ _

theorem length_le_of_fecBlocks (hpct : 0 < pay.fecPercentage) {pkts : List Packet}
    {perBlock : ℕ} {ks : List ℕ} {blocks : List (List Packet)}
    (h : fecBlocks pay pkts perBlock ks = some (pay', blocks)) :
    (ks.map (blockSub pkts perBlock)).flatten.length ≤ blocks.flatten.length := by
  have hall := forall₂_fecBlocks h
  clear h
  induction hall with
  | nil => exact le_rfl
  | cons hk _ ih =>
    obtain ⟨n, hn⟩ := hk
    have hle := length_le_of_generateFecPackets
      (show 0 < (pay.advance n).fecPercentage from hpct) hn
    rw [List.map_cons, List.flatten_cons, List.flatten_cons, List.length_append,
      List.length_append]
    exact Nat.add_le_add hle ih

/-- The float computations cut a frame of more than 1024 packets into at least 1025. -/
theorem le_length_of_generateRtpPackets (hpay : 16 < pay.payloadSize) {full : Bytes}
    {pkts : List Packet} (h : generateRtpPackets pay full = some pkts)
    (hN : 1025 ≤ packetCount pay full.length) : 1025 ≤ pkts.length := by
  obtain ⟨tot, -, hlen, htot⟩ := cutFrom_generateRtpPackets h
  have hmax := pay.payloadSize_le
  have hcast : ((pay.payloadSize : ℤ) - maxRtpHeaderSize) = (pay.room : ℤ) := by
    simp only [GstRtpMoonlightPayVideo.room, maxRtpHeaderSize]
    omega
  have hroom : pay.room ≤ 10224 := by
    simp only [GstRtpMoonlightPayVideo.room, maxRtpHeaderSize]
    omega
  have hlt : 1024 * pay.room < full.length := mul_room_lt_of_lt_packetCount hpay (by omega)
  have hceil := lt_ceil_binary32 (a := 1024 * pay.room + 1) (b := pay.room) (n := 1024) hlt
    (by omega) (room_pos hpay) (by omega) (by omega)
  rw [hlen]
  refine le_length_packetNumbers (by decide) ?_
  rw [htot, totPackets, hcast, Int.cast_natCast]
  omega

/-- A third of more than 1024 packets, as computed in floats. -/
theorem le_packetsPerBlock {n : ℕ} (hn : 1025 ≤ n) : 342 ≤ packetsPerBlock n := by
  have hceil := lt_ceil_binary32 (a := 1025) (b := 3) (n := 341) hn (by decide) (by decide)
    (by decide) (by decide)
  rw [packetsPerBlock, nrBlocks]
  omega

/-- **More than 1024 packets.** The first block is sent with fresh headers, which say that the
frame is one block; its ten-bit shard numbers cannot tell all its packets apart. -/
theorem not_describesBlocks_large (ha : Announced pay) {blocks : List (List Packet)}
    (h : splitIntoBlocks pay inbuf = some (pay', blocks))
    (hN : 1025 ≤ packetCount pay (inbuf.data.length + 8)) {last : ℕ} {data base : ℕ → ℕ} :
    ¬ DescribesBlocks blocks.flatten last data base := by
  intro hd
  obtain ⟨pkts, tot, full, hfull, hpkts, hcut, -, -, hways⟩ := splitIntoBlocks_cases ha.pct_pos h
  have hsize : full.length = inbuf.data.length + 8 := by
    obtain ⟨sh, -, hfull', hlen', -⟩ := prependVideoHeader_eq_some ha.payloadSize inbuf
    rw [Option.some.inj (hfull.symm.trans hfull'), List.length_append, hlen', ShortHeader.size,
      Nat.add_comm]
  have hcount := le_length_of_generateRtpPackets ha.payloadSize hpkts (by rwa [hsize])
  obtain ⟨pay₁, hblocks⟩ : ∃ pay₁, fecBlocks pay pkts (packetsPerBlock pkts.length)
      (List.range nrBlocks) = some (pay₁, blocks) := by
    rcases hways with ⟨h90, -⟩ | ⟨-, hmulti⟩
    · omega
    · exact hmulti
  have hper := le_packetsPerBlock hcount
  have hmany : 1025 ≤ blocks.flatten.length := by
    have hle := length_le_of_fecBlocks ha.pct_pos hblocks
    rw [List.range_eq_range', flatten_blockSub, nrBlocks, gstBufferListSub, List.length_take,
      List.length_drop] at hle
    omega
  obtain ⟨p, hp, hlast⟩ := exists_lastBlock_eq_zero ha hcut hblocks (by
    simp only [blockLength]
    omega)
  have h0 : last = 0 := (hd.lastBlock p hp).symm.trans hlast
  -- all packets are in block 0, and there are too many of them
  have hall : (blocks.flatten.filter fun p => p.block = 0) = blocks.flatten :=
    List.filter_eq_self.mpr fun q hq => by
      have hle := hd.block_le q hq
      simp only [decide_eq_true_eq]
      omega
  have hperm := hd.shards 0 (Nat.zero_le _)
  rw [hall] at hperm
  have hin : 1024 ∈ blocks.flatten.map Packet.shard :=
    hperm.mem_iff.mpr (List.mem_range.mpr (by omega))
  obtain ⟨q, -, hq⟩ := List.mem_map.mp hin
  have hlt : q.shard ≤ 1023 := Nat.and_le_right
  omega

/-- **Which frames the headers describe.** With the settings the server announces, a frame of
`n` packets is sent with headers that describe it exactly when `n` is at most 636, is 639, or
lies between 641 and 1023. -/
theorem splitIntoRtp_describesBlocks_iff (ha : Announced pay) :
    (∃ pay' pkts last data base, splitIntoRtp pay inbuf = some (pay', pkts) ∧
      DescribesBlocks pkts last data base) ↔
      packetCount pay (inbuf.data.length + 8) ≤ 636 ∨
        packetCount pay (inbuf.data.length + 8) = 639 ∨
        (641 ≤ packetCount pay (inbuf.data.length + 8) ∧
          packetCount pay (inbuf.data.length + 8) ≤ 1023) := by
  have hpay := ha.payloadSize
  have hpos : 0 < packetCount pay (inbuf.data.length + 8) :=
    Nat.div_pos (by have := room_pos hpay; omega) (room_pos hpay)
  by_cases hbig : 1025 ≤ packetCount pay (inbuf.data.length + 8)
  · refine iff_of_false ?_ (by omega)
    rintro ⟨pay', pkts, last, data, base, hsplit, hd⟩
    rw [splitIntoRtp, Option.map_eq_some_iff] at hsplit
    obtain ⟨⟨pay₁, blocks⟩, hblocks, heq⟩ := hsplit
    obtain ⟨rfl, rfl⟩ := Prod.mk.inj heq
    exact not_describesBlocks_large ha hblocks hbig hd
  obtain ⟨pay', full, blocks, hsplit, hsize, hdiv⟩ :=
    splitIntoRtp_divided hpay (show packetCount pay (inbuf.data.length + 8) ≤ 1024 by omega)
  have hlen : (cutPackets pay full).length = packetCount pay (inbuf.data.length + 8) := by
    rw [length_cutPackets, hsize]
  have hcut : CutFrom pay full (cutPackets pay full).length (cutPackets pay full) := by
    rw [length_cutPackets]
    exact cutFrom_cutPackets hpay full
  rw [← hlen] at hbig hpos ⊢
  constructor
  · rintro ⟨pay₁, pkts, last, data, base, hsplit', hd⟩
    obtain ⟨-, rfl⟩ := Prod.mk.inj (Option.some.inj (hsplit.symm.trans hsplit'))
    by_contra hbad
    by_cases h1024 : (cutPackets pay full).length = 1024
    · exact not_describesBlocks_1024 ha hcut hdiv h1024 hd
    · exact not_describesBlocks_mixed ha hcut hdiv (by omega) hd
  · intro hgood
    obtain ⟨last, data, base, hd⟩ := exists_describesBlocks ha hcut
      (List.ne_nil_of_length_pos hpos) hdiv hgood
    exact ⟨pay', blocks.flatten, last, data, base, hsplit, hd⟩

theorem announced_init : Announced .init := ⟨rfl, rfl, by decide⟩

/-- A key frame of 636 packets at the default payload size. -/
theorem splitIntoRtp_describesBlocks_iff_init :
    ∃ pay' pkts last data base,
      splitIntoRtp .init ⟨List.replicate 875128 0, false⟩ = some (pay', pkts) ∧
        DescribesBlocks pkts last data base := by
  obtain ⟨bs, hbs, hlen⟩ : ∃ bs : Bytes, List.replicate 875128 0 = bs ∧ bs.length = 875128 :=
    ⟨_, rfl, List.length_replicate⟩
  rw [hbs]
  refine (splitIntoRtp_describesBlocks_iff announced_init).mpr (.inl ?_)
  rw [hlen]
  decide

/-- One byte more, and the headers disagree on the number of blocks. -/
theorem not_describesBlocks_637 : ¬ ∃ pay' pkts last data base,
    splitIntoRtp .init ⟨List.replicate 875129 0, false⟩ = some (pay', pkts) ∧
      DescribesBlocks pkts last data base := by
  obtain ⟨bs, hbs, hlen⟩ : ∃ bs : Bytes, List.replicate 875129 0 = bs ∧ bs.length = 875129 :=
    ⟨_, rfl, List.length_replicate⟩
  rw [hbs]
  have hcount : packetCount .init (bs.length + 8) = 637 := by rw [hlen]; decide
  obtain ⟨pay', full, blocks, hsplit, hsize, hdiv⟩ :=
    splitIntoRtp_divided announced_init.payloadSize
      (show packetCount .init ((Frame.mk bs false).data.length + 8) ≤ 1024 by rw [hcount]; decide)
  have hcut : (cutPackets .init full).length = 637 := by rw [length_cutPackets, hsize, hcount]
  rintro ⟨pay₁, pkts, last, data, base, hsplit', hd⟩
  obtain ⟨-, rfl⟩ := Prod.mk.inj (Option.some.inj (hsplit.symm.trans hsplit'))
  exact not_describesBlocks_mixed announced_init
    (cutFrom_cutPackets announced_init.payloadSize full) hdiv (.inl hcut) hd

end Large

end SteamStream.Video
