import SteamStream.Video.FecOff
import SteamStream.Video.Receiver

/-!
# What is sent can be received

From the encoder to the picture: the frames go through the payloader, their packets are sent as
datagrams, some of them are lost, and the others arrive in any order and perhaps more than once. As
long as no block loses more packets than it has parity packets, the receiver gets every frame back
with its short header (`packetise_delivered`).

That holds for the settings the server announces and for frames whose headers describe the blocks
they are sent in (`Describable`); the others cannot be put together by the headers even if nothing
is lost.
-/

namespace SteamStream.Video

open Wire Layout Nanors Erasure

/-! ### Blocks with parity -/

section Stamped

variable {pay : GstRtpMoonlightPayVideo} {pkts : List Packet} {b l last off : ℕ}

theorem map_payload_of_sameContent {xs ys : List Packet} (h : List.Forall₂ SameContent xs ys) :
    xs.map Packet.payload = ys.map Packet.payload := by
  rw [← List.forall₂_eq_eq_eq, List.forall₂_map_left_iff, List.forall₂_map_right_iff]
  exact h.imp fun _ _ hpq => hpq.payload

/-- With the announced settings the percentage of a block stands for its parity packets. -/
theorem parityOf_blockPercentage (ha : Announced pay) {n : ℕ} (hn : 0 < n) :
    parityOf n (blockPercentage pay n) = parityShards pay n := by
  by_cases hraise : RaisesParity pay n
  · rw [blockPercentage_of_raises hraise, parityShards_of_raises hraise, parityOf_div_iff]
    rw [RaisesParity, parityOf, ha.fecPercentage, ha.minRequiredFecPackets] at hraise
    rw [ha.minRequiredFecPackets]
    have hmod := Nat.mod_lt (100 * 2) hn
    omega
  · rw [blockPercentage_of_not_raises hraise, parityShards_of_not_raises hraise]

/-- Rows with the same columns have the same product. -/
theorem gemm_congr {a : List (List UInt8)} {rows rows' : List Bytes} {m : ℕ}
    (h : ∀ c < m, column 0 rows c = column 0 rows' c) : gemm a rows m = gemm a rows' m := by
  rw [gemm_eq_combine, gemm_eq_combine]
  refine List.map_congr_left fun row _ => List.map_congr_left fun c hc => ?_
  rw [h c (List.mem_range.mp hc)]

/-- The payloads of the parity packets are the parity of the payloads. -/
theorem payload_parityRows (hpay : 16 < pay.payloadSize) (hfull : FullShards (blockSize pay) pkts)
    {rs : ReedSolomon}
    (hnew : reedSolomonNew pkts.length (parityShards pay pkts.length) = some rs) :
    (parityRows pay pkts).map (·.drop videoRtpHeadersSize) =
      gemm rs.p ((pkts.map Packet.payload).map (extended pay.room)) pay.room := by
  have hsize : blockSize pay - videoRtpHeadersSize = pay.room := by
    rw [blockSize_eq_room_add hpay, Nat.add_sub_cancel]
  rw [parityRows, hnew]
  dsimp only
  rw [gemm_eq_combine, List.map_map]
  simp only [Function.comp_def, drop_combine, hsize]
  rw [← gemm_eq_combine]
  refine gemm_congr fun c hc => ?_
  -- a column of the payloads is one of the packets, past the headers
  have hshift : ∀ rows : List Bytes, column 0 (rows.map (·.drop videoRtpHeadersSize)) c =
      column 0 rows (videoRtpHeadersSize + c) := by
    intro rows
    rw [column, column, List.map_map]
    refine List.map_congr_left fun r _ => ?_
    rw [Function.comp_apply, List.getD_eq_getElem?_getD, List.getElem?_drop,
      ← List.getD_eq_getElem?_getD]
  rw [hshift, column_take_shardsOf rfl hfull (by
    change videoRtpHeadersSize + c < blockSize pay
    rw [blockSize_eq_room_add hpay]
    omega), ← hshift]
  rw [column, column, List.map_map, List.map_map, List.map_map, List.map_map]
  refine List.map_congr_left fun p _ => ?_
  exact (getD_append_replicate _ _ _).symm

/-- **A stamped block** is one a receiver can work with. -/
theorem sentBlock_stamp (ha : Announced pay) (hn : 0 < pkts.length) (hle : pkts.length ≤ 212)
    (hfull : FullShards (blockSize pay) pkts)
    (horigin : ∀ (i : ℕ) p, pkts[i]? = some p → p.origin = .data (off + i))
    (hhdr : ∀ p ∈ pkts, videoRtpHeadersSize ≤ p.bytes.length)
    (hb : (((b <<< 4 ||| l) % 256) >>> 4) &&& 3 = b) (hl : ((b <<< 4 ||| l) % 256) >>> 6 = last) :
    SentBlock pay.room last b (pkts.map Packet.payload)
      (stamp pay b l pkts.length (protect pay pkts)) := by
  have hskip : ¬ SkipsFec pay pkts.length := by
    rw [ha.skipsFec_iff]
    omega
  have hat := blockAt_stamp ha.pct_pos ha.payloadSize hn hskip ha.blockPercentage_lt horigin hhdr
    hb hl
  have hlen : (stamp pay b l pkts.length (protect pay pkts)).length =
      pkts.length + parityShards pay pkts.length := by
    rw [length_stamp, length_protect hn (parityShards_pos ha.pct_pos hn) hskip]
  have hpar : (stamp pay b l pkts.length (protect pay pkts)).length -
      (pkts.map Packet.payload).length = parityShards pay pkts.length := by
    rw [hlen, List.length_map, Nat.add_sub_cancel_left]
  have hindex : ∀ p ∈ stamp pay b l pkts.length (protect pay pkts), ∃ i,
      (stamp pay b l pkts.length (protect pay pkts))[i]? = some p :=
    fun p hp => List.mem_iff_getElem?.mp hp
  have hpayload : (stamp pay b l pkts.length (protect pay pkts)).map Packet.payload =
      pkts.map Packet.payload ++ (parityRows pay pkts).map (·.drop videoRtpHeadersSize) := by
    rw [map_payload_of_sameContent forall₂_sameContent_stamp, protect, List.map_append,
      List.map_map]
    rfl
  refine ⟨?_, ?_, fun _ => ?_, fun p hp => ?_, fun p hp => ?_, hat.shard, fun p hp => ?_,
    fun p hp => ?_, ?_, fun d hd => ?_, fun rs hnew => ?_⟩
  · rw [← List.length_pos_iff, List.length_map]
    exact hn
  · rw [hlen, List.length_map]
    exact Nat.le_add_right _ _
  · rw [hlen]
    exact not_lt.mp hskip
  · obtain ⟨i, hi⟩ := hindex p hp
    exact hat.block hi
  · obtain ⟨i, hi⟩ := hindex p hp
    exact hat.lastBlock hi
  · obtain ⟨i, hi⟩ := hindex p hp
    rw [hat.dataShards hi, List.length_map]
  · obtain ⟨i, hi⟩ := hindex p hp
    rw [getElem?_stamp, Option.map_eq_some_iff] at hi
    obtain ⟨q, hq, rfl⟩ := hi
    rw [percentage_updateFecInfo (header_le_of_mem_protect ha.payloadSize hhdr
      (List.mem_of_getElem? hq)), Nat.mod_eq_of_lt ha.blockPercentage_lt, hpar, List.length_map]
    exact parityOf_blockPercentage ha hn
  · rw [List.map_take, hpayload, List.take_left]
  · obtain ⟨p, hp, rfl⟩ := List.mem_map.mp hd
    obtain ⟨i, hi⟩ := List.mem_iff_getElem?.mp hp
    have hsize := (hfull i p hi).1
    rw [blockSize_eq_room_add ha.payloadSize] at hsize
    rw [Packet.payload, List.length_drop]
    omega
  · rw [hpar, List.length_map] at hnew
    rw [List.map_drop, hpayload, List.drop_left, payload_parityRows ha.payloadSize hfull hnew]

end Stamped

/-! ### Blocks without parity -/

section Fresh

variable {pay : GstRtpMoonlightPayVideo} {pkts : List Packet} {bs : Bytes} {tot : ℕ}

/-- A fresh header names no percentage. -/
theorem percentage_createRtpHeader {nr : ℕ} {rest : Bytes} {o : Origin} :
    Packet.percentage ⟨createRtpHeader pay nr tot ++ rest, o⟩ = 0 := by
  have hword : fecInfo.getLE (createRtpHeader pay nr tot ++ rest) =
      (nr <<< 12 ||| tot <<< 22 ||| 0 <<< 4) % 2 ^ 32 := by
    rw [Field.getLE_append_left (by rw [length_createRtpHeader]; decide), createRtpHeader]
    simp (disch := decide) only [Field.getLE_setLE_of_disjoint]
    rw [Field.getLE_setLE_self (by simp; decide)]
    rfl
  rw [Packet.percentage, hword]
  refine Nat.eq_of_testBit_eq fun i => ?_
  rw [show (0xFF : ℕ) = 2 ^ 8 - 1 from rfl, Nat.and_two_pow_sub_one_eq_mod]
  simp only [Nat.testBit_mod_two_pow, Nat.testBit_shiftRight, Nat.testBit_or,
    Nat.testBit_shiftLeft, Nat.zero_testBit]
  by_cases hi : i < 8
  · have h12 : decide (12 ≤ 4 + i) = false := decide_eq_false (by omega)
    have h22 : decide (22 ≤ 4 + i) = false := decide_eq_false (by omega)
    simp only [h12, h22, Bool.false_and, Bool.and_false, Bool.or_false]
  · rw [decide_eq_false hi, Bool.false_and]

/-- **A frame sent as it was cut** is one block without parity. -/
theorem sentBlock_fresh (h : CutFrom pay bs pkts.length pkts) (hne : pkts ≠ [])
    (hlt : pkts.length < 1024) :
    SentBlock pay.room 0 0 (pkts.map Packet.payload) pkts := by
  have hat := blockAt_fresh h rfl hne hlt
  have hpay := h.room_pos hne
  have hindex : ∀ p ∈ pkts, ∃ i, pkts[i]? = some p := fun p hp => List.mem_iff_getElem?.mp hp
  refine ⟨?_, ?_, fun hmore => ?_, fun p hp => ?_, fun p hp => ?_, hat.shard, fun p hp => ?_,
    fun p hp => ?_, ?_, fun d hd => ?_, fun rs hnew => ?_⟩
  · rwa [ne_eq, List.map_eq_nil_iff]
  · rw [List.length_map]
  · rw [List.length_map] at hmore
    exact absurd hmore (lt_irrefl _)
  · obtain ⟨i, hi⟩ := hindex p hp
    exact hat.block hi
  · obtain ⟨i, hi⟩ := hindex p hp
    exact hat.lastBlock hi
  · obtain ⟨i, hi⟩ := hindex p hp
    rw [hat.dataShards hi, List.length_map]
  · obtain ⟨i, hi⟩ := hindex p hp
    rw [← h.packet hi, packetAt, percentage_createRtpHeader, List.length_map, Nat.sub_self,
      parityOf, Nat.mul_zero]
  · rw [List.length_map, List.take_length]
  · obtain ⟨p, hp, rfl⟩ := List.mem_map.mp hd
    obtain ⟨i, hi⟩ := hindex p hp
    have hsize : p.bytes.length ≤ pay.room + videoRtpHeadersSize := by
      rw [← h.packet hi]
      exact length_packetAt_le
    rw [Packet.payload, List.length_drop]
    omega
  · rw [List.length_map, Nat.sub_self] at hnew
    exact absurd (reedSolomonNew_shape hnew).2.2.2.2.1 (lt_irrefl 0)

end Fresh

/-! ### Frames -/

/-- A frame as it is sent: blocks a receiver can work with, all with the number of the frame. -/
structure SentFrame (w frameIndex : ℕ) (datas : List (List Bytes)) (blocks : List (List Packet)) :
    Prop where
  ne_nil : datas ≠ []
  length : blocks.length = datas.length
  block : ∀ {b : ℕ} {data blk}, datas[b]? = some data → blocks[b]? = some blk →
    SentBlock w (datas.length - 1) b data blk
  frameIndex : ∀ blk ∈ blocks, ∀ p ∈ blk, p.frameIndex = frameIndex

/-- What has arrived of the frame was sent, and no block loses more than there is parity for. -/
structure FrameArrived (datas : List (List Bytes)) (blocks : List (List Packet))
    (arrived : List Bytes) : Prop where
  sent : ∀ d ∈ arrived, ∃ p ∈ blocks.flatten, p.bytes = d
  lost : ∀ {b : ℕ} {data blk}, datas[b]? = some data → blocks[b]? = some blk →
    (blk.filter fun p => p.bytes ∉ arrived).length ≤ blk.length - data.length

section Frame

variable {w n : ℕ} {datas : List (List Bytes)} {blocks : List (List Packet)} {arrived : List Bytes}

theorem SentFrame.block_of_getElem? (h : SentFrame w n datas blocks) {b : ℕ} {blk : List Packet}
    (hblk : blocks[b]? = some blk) :
    ∃ data, datas[b]? = some data ∧ SentBlock w (datas.length - 1) b data blk := by
  have hlt := (List.getElem?_eq_some_iff.mp hblk).1
  rw [h.length] at hlt
  exact ⟨_, List.getElem?_eq_getElem hlt, h.block (List.getElem?_eq_getElem hlt) hblk⟩

/-- Of each block the receiver gets what has arrived of it. -/
theorem blockArrived_filter (h : SentFrame w n datas blocks)
    (harr : FrameArrived datas blocks arrived) {b : ℕ} {data : List Bytes} {blk : List Packet}
    (hdata : datas[b]? = some data) (hblk : blocks[b]? = some blk) :
    BlockArrived data blk (arrived.filter fun d => (onWire d).block = b) := by
  have hsent := h.block hdata hblk
  refine ⟨fun d hd => ?_, ?_⟩
  · obtain ⟨hmem, hd⟩ := List.mem_filter.mp hd
    obtain ⟨p, hp, rfl⟩ := harr.sent d hmem
    obtain ⟨blk', hblk', hpblk⟩ := List.mem_flatten.mp hp
    obtain ⟨b', hb'⟩ := List.mem_iff_getElem?.mp hblk'
    obtain ⟨data', -, hsent'⟩ := h.block_of_getElem? hb'
    obtain rfl : b' = b := (hsent'.block p hpblk).symm.trans (of_decide_eq_true hd)
    obtain rfl : blk' = blk := Option.some.inj (hb'.symm.trans hblk)
    exact ⟨p, hpblk, rfl⟩
  · refine le_of_eq_of_le (congrArg List.length (List.filter_congr fun p hp => ?_))
      (harr.lost hdata hblk)
    have hb : decide ((onWire p.bytes).block = b) = true :=
      decide_eq_true (show p.block = b from hsent.block p hp)
    simp only [List.mem_filter, hb, and_true]

/-- **The stream of a frame comes back** up to zeros behind the payloads. -/
theorem recoverFrame_eq_some (h : SentFrame w n datas blocks)
    (harr : FrameArrived datas blocks arrived) (wrk : Mem) :
    ∃ payloads, recoverFrame wrk arrived = some (joinPayloads payloads) ∧
      List.Forall₂ (fun o d => o = d ∨ o = extended w d) payloads datas.flatten := by
  have hpos : 0 < datas.length := List.length_pos_iff.mpr h.ne_nil
  have hblocks : ∀ b < datas.length, ∃ out,
      recoverBlock wrk (arrived.filter fun d => (onWire d).block = b) = some out ∧
        List.Forall₂ (fun o d => o = d ∨ o = extended w d) out (datas.getD b []) := by
    intro b hb
    have hdata := List.getElem?_eq_getElem hb
    have hblk := List.getElem?_eq_getElem (h.length.symm ▸ hb : b < blocks.length)
    rw [List.getD_eq_getElem _ _ hb]
    exact recoverBlock_eq_some (h.block hdata hblk) (blockArrived_filter h harr hdata hblk) wrk
  -- some datagram arrives, and names the last block
  obtain ⟨first, hfirst, hlast⟩ : ∃ first, arrived.head? = some first ∧
      (onWire first).lastBlock = datas.length - 1 := by
    rcases arrived with _ | ⟨first, rest⟩
    · obtain ⟨out, hout, -⟩ := hblocks 0 hpos
      cases hout
    · obtain ⟨p, hp, hpfirst⟩ := harr.sent first List.mem_cons_self
      obtain ⟨blk, hblk, hpblk⟩ := List.mem_flatten.mp hp
      obtain ⟨b, hb⟩ := List.mem_iff_getElem?.mp hblk
      obtain ⟨data, -, hsent⟩ := h.block_of_getElem? hb
      refine ⟨first, rfl, ?_⟩
      rw [← hpfirst]
      exact hsent.lastBlock p hpblk
  have hrange : datas.length - 1 + 1 = datas.length := Nat.sub_add_cancel hpos
  choose! out hout hall using hblocks
  have hmap : (List.range datas.length).mapM
      (fun b => recoverBlock wrk (arrived.filter fun d => (onWire d).block = b)) =
        some ((List.range datas.length).map out) := by
    rw [mapM_eq_some, List.map_map]
    exact List.map_congr_left fun b hb => hout b (List.mem_range.mp hb)
  refine ⟨((List.range datas.length).map out).flatten, ?_, ?_⟩
  · rw [recoverFrame, hfirst, Option.bind_eq_bind, Option.bind_some, hlast, hrange, hmap]
    rfl
  · have hdatas : datas = (List.range datas.length).map fun b => datas.getD b [] := by
      refine List.ext_getElem (by simp) fun b hb _ => ?_
      rw [List.getElem_map, List.getElem_range, List.getD_eq_getElem _ _ hb]
    conv_rhs => rw [hdatas]
    refine List.rel_flatten ?_
    rw [List.forall₂_map_left_iff, List.forall₂_map_right_iff]
    exact List.forall₂_same.mpr fun b hb => hall b (List.mem_range.mp hb)

end Frame

/-! ### The stream of a frame -/

section Stream

variable {pay : GstRtpMoonlightPayVideo}

/-- Whatever follows the last payload, the stream is cut where it ends. -/
theorem joinPayloads_eq (hpay : 16 < pay.payloadSize) {sh data : Bytes} {n : ℕ}
    (hsh : sh.length = ShortHeader.size)
    (hlast : ShortHeader.lastPayloadLen.getLE sh = lastLength pay (sh ++ data).length)
    (hn : packetCount pay (sh ++ data).length = n + 1) (rest : Bytes) :
    joinPayloads ((List.range n).map (payloadAt pay (sh ++ data)) ++
      [payloadAt pay (sh ++ data) n ++ rest]) = sh ++ data := by
  obtain ⟨hlen, hdrop⟩ := length_lastPayload hpay hn
  have hstream : (sh ++ data).take (n * pay.room) ++ payloadAt pay (sh ++ data) n = sh ++ data := by
    rw [hdrop, List.take_append_drop]
  have hflat : ((List.range n).map (payloadAt pay (sh ++ data)) ++
      [payloadAt pay (sh ++ data) n ++ rest]).flatten = sh ++ (data ++ rest) := by
    rw [List.flatten_append, flatten_payloadAt, List.flatten_singleton, ← List.append_assoc,
      hstream, List.append_assoc]
  have hstop : ShortHeader.lastPayloadLen.stop ≤ sh.length := by
    rw [hsh]
    decide
  rw [joinPayloads, hflat, Field.getLE_append_left hstop, hlast, ← hlen, List.dropLast_concat,
    flatten_payloadAt, List.getLastD_concat, List.take_left, hstream]

/-- The packets in front of the last one are full. -/
theorem length_payloadAt_of_lt (hpay : 16 < pay.payloadSize) {full : Bytes} {n i : ℕ}
    (hn : packetCount pay full.length = n + 1) (hi : i < n) :
    (payloadAt pay full i).length = pay.room := by
  have hle : (i + 1) * pay.room < full.length :=
    mul_room_lt_of_lt_packetCount hpay (by omega : i + 1 < packetCount pay full.length)
  rw [length_payloadAt]
  rw [Nat.succ_mul] at hle
  omega

/-- The payloads of a frame, up to zeros behind them, are joined to its stream. -/
theorem joinPayloads_of_forall₂ (hpay : 16 < pay.payloadSize) {sh data : Bytes}
    {payloads : List Bytes} (hsh : sh.length = ShortHeader.size)
    (hlast : ShortHeader.lastPayloadLen.getLE sh = lastLength pay (sh ++ data).length)
    (h : List.Forall₂ (fun o d => o = d ∨ o = extended pay.room d) payloads
      ((cutPackets pay (sh ++ data)).map Packet.payload)) :
    joinPayloads payloads = sh ++ data := by
  obtain ⟨n, hn⟩ : ∃ n, packetCount pay (sh ++ data).length = n + 1 := by
    refine Nat.exists_eq_succ_of_ne_zero (Nat.div_pos ?_ (room_pos hpay)).ne'
    have hpos : 0 < (sh ++ data).length := by
      rw [List.length_append, hsh, ShortHeader.size]
      omega
    omega
  rw [payloads_cutPackets hpay hn] at h
  have hfront := List.forall₂_take_append _ _ _ h
  have hback := List.forall₂_drop_append _ _ _ h
  rw [List.length_map, List.length_range] at hfront hback
  have heq : payloads.take n = (List.range n).map (payloadAt pay (sh ++ data)) := by
    rw [List.forall₂_map_right_iff] at hfront
    rw [← List.forall₂_eq_eq_eq, List.forall₂_map_right_iff]
    refine List.forall₂_iff_get.mpr ⟨hfront.length_eq, fun i hi hi' => ?_⟩
    have hlt : i < n := by simpa using hi'
    have hget := hfront.get hi hi'
    simp only [List.get_eq_getElem, List.getElem_range] at hget ⊢
    rcases hget with hget | hget
    · exact hget
    · exact hget.trans (extended_of_length_eq (length_payloadAt_of_lt hpay hn hlt))
  obtain ⟨o, others, ho, hothers, hdrop⟩ := List.forall₂_cons_right_iff.mp hback
  obtain rfl := List.forall₂_nil_right_iff.mp hothers
  obtain ⟨rest, hrest⟩ : ∃ rest, o = payloadAt pay (sh ++ data) n ++ rest := by
    rcases ho with rfl | rfl
    · exact ⟨_, rfl⟩
    · exact ⟨_, List.append_assoc ..⟩
  rw [← List.take_append_drop n payloads, heq, hdrop, hrest]
  exact joinPayloads_eq hpay hsh hlast hn rest

end Stream

/-! ### The blocks of a frame -/

section Split

variable {pay : GstRtpMoonlightPayVideo} {pkts out : List Packet} {b l last off : ℕ}
  {blocks : List (List Packet)} {full : Bytes}

/-- A block of up to 212 packets comes out of `generate_fec_packets` as one a receiver can work
with. -/
theorem sentBlock_generateFecPackets (ha : Announced pay) (hle : pkts.length ≤ 212)
    (hfull : FullShards (blockSize pay) pkts)
    (horigin : ∀ (i : ℕ) p, pkts[i]? = some p → p.origin = .data (off + i))
    (hhdr : ∀ p ∈ pkts, videoRtpHeadersSize ≤ p.bytes.length)
    (hb : (((b <<< 4 ||| l) % 256) >>> 4) &&& 3 = b) (hl : ((b <<< 4 ||| l) % 256) >>> 6 = last)
    (h : generateFecPackets pay pkts b l = some out) :
    SentBlock pay.room last b (pkts.map Packet.payload) out := by
  obtain ⟨hn, hout⟩ := (generateFecPackets_eq_some ha.pct_pos).mp h
  have hskip : ¬ SkipsFec pay pkts.length := by
    rw [ha.skipsFec_iff]
    omega
  rw [if_neg hskip] at hout
  rw [← hout]
  exact sentBlock_stamp ha hn hle hfull horigin hhdr hb hl

/-- What `generate_fec_packets` adds to a block is its parity. -/
theorem parityCount_generateFecPackets (hpct : 0 < pay.fecPercentage)
    (hdata : ∀ p ∈ pkts, p.isData = true) (h : generateFecPackets pay pkts b l = some out) :
    parityCount out = out.length - pkts.length := by
  have hcount : dataCount out = pkts.length := by
    rw [dataCount, List.countP_eq_length_filter]
    exact (sameContent_generateFecPackets hpct hdata h).length_eq
  have hsum := dataCount_add_parityCount out
  omega

/-- What has arrived was sent, and of no block more is lost than it has parity packets. -/
structure Tolerable (blocks : List (List Packet)) (arrived : List Bytes) : Prop where
  sent : ∀ d ∈ arrived, ∃ p ∈ blocks.flatten, p.bytes = d
  lost : ∀ blk ∈ blocks, (blk.filter fun p => p.bytes ∉ arrived).length ≤ parityCount blk

theorem eq_of_getElem?_singleton {α : Type*} {a x : α} {i : ℕ} (h : [a][i]? = some x) :
    i = 0 ∧ x = a := by
  rw [List.getElem?_singleton] at h
  split_ifs at h with hi
  exact ⟨hi, (Option.some.inj h).symm⟩

/-- A frame of one block. -/
theorem sentFrame_singleton {w n : ℕ} {data : List Bytes} {blk : List Packet}
    (h : SentBlock w 0 0 data blk) (hframe : ∀ p ∈ blk, p.frameIndex = n) :
    SentFrame w n [data] [blk] := by
  refine ⟨List.cons_ne_nil _ _, rfl, fun {b data' blk'} hd hb => ?_, fun blk' hblk => ?_⟩
  · obtain ⟨rfl, rfl⟩ := eq_of_getElem?_singleton hd
    obtain ⟨-, rfl⟩ := eq_of_getElem?_singleton hb
    exact h
  · rw [List.mem_singleton.mp hblk]
    exact hframe

theorem frameArrived_singleton {data : List Bytes} {blk : List Packet} {arrived : List Bytes}
    (hsent : ∀ d ∈ arrived, ∃ p ∈ blk, p.bytes = d)
    (hlost : (blk.filter fun p => p.bytes ∉ arrived).length ≤ blk.length - data.length) :
    FrameArrived [data] [blk] arrived := by
  refine ⟨by rwa [List.flatten_singleton], fun {b data' blk'} hd hb => ?_⟩
  obtain ⟨rfl, rfl⟩ := eq_of_getElem?_singleton hd
  obtain ⟨-, rfl⟩ := eq_of_getElem?_singleton hb
  exact hlost

/-- What receivers of the blocks of a frame rely on. -/
def Receivable (pay : GstRtpMoonlightPayVideo) (pkts : List Packet) (blocks : List (List Packet)) :
    Prop :=
  ∃ datas sent, SentFrame pay.room pay.frameNum.toNat datas sent ∧
    datas.flatten = pkts.map Packet.payload ∧
    ∀ arrived, Tolerable blocks arrived → FrameArrived datas sent arrived

/-- Where no block has parity, the headers make one block of them. -/
theorem receivable_fresh (hcut : CutFrom pay full pkts.length pkts) (hne : pkts ≠ [])
    (hlt : pkts.length < 1024) (hflat : blocks.flatten = pkts)
    (hframe : ∀ p ∈ blocks.flatten, p.frameIndex = pay.frameNum.toNat) :
    Receivable pay pkts blocks := by
  refine ⟨[pkts.map Packet.payload], [pkts], sentFrame_singleton (sentBlock_fresh hcut hne hlt)
    (hflat ▸ hframe), List.flatten_singleton, fun arrived harr =>
    frameArrived_singleton (hflat ▸ harr.sent) ?_⟩
  have hnone : ∀ blk ∈ blocks, parityCount blk = 0 := by
    intro blk hblk
    rw [parityCount, List.countP_eq_zero]
    intro p hp
    rw [hcut.isData (hflat ▸ List.mem_flatten.mpr ⟨blk, hblk, hp⟩)]
    exact Bool.false_ne_true
  rw [← hflat, List.filter_flatten, List.length_flatten]
  refine (Nat.le_zero.mpr (List.sum_eq_zero fun n hn => ?_)).trans (Nat.zero_le _)
  obtain ⟨lost, hlost, rfl⟩ := List.mem_map.mp hn
  obtain ⟨blk, hblk, rfl⟩ := List.mem_map.mp hlost
  exact Nat.le_zero.mp (hnone blk hblk ▸ harr.lost blk hblk)

theorem receivable_single (ha : Announced pay) (hcut : CutFrom pay full pkts.length pkts)
    (hle : pkts.length ≤ 90) {blk : List Packet} (hblk : generateFecPackets pay pkts 0 0 = some blk)
    (hframe : ∀ p ∈ blk, p.frameIndex = pay.frameNum.toNat) : Receivable pay pkts [blk] := by
  have hfull := hcut.fullShards 0 pkts.length
  rw [List.drop_zero, List.take_length] at hfull
  have horigin : ∀ (i : ℕ) p, pkts[i]? = some p → p.origin = .data (0 + i) := fun i p hp => by
    rw [hcut.origin hp, Nat.zero_add]
  have hsent : SentBlock pay.room 0 0 (pkts.map Packet.payload) blk :=
    sentBlock_generateFecPackets ha (by omega) hfull horigin (fun p hp => hcut.header_le hp) rfl rfl
      hblk
  refine ⟨[pkts.map Packet.payload], [blk], sentFrame_singleton hsent hframe,
    List.flatten_singleton, fun arrived harr => frameArrived_singleton ?_ ?_⟩
  · exact fun d hd => List.flatten_singleton (l := blk) ▸ harr.sent d hd
  · rw [List.length_map, ← parityCount_generateFecPackets ha.pct_pos (fun p hp => hcut.isData hp)
      hblk]
    exact harr.lost blk List.mem_cons_self

theorem receivable_three (ha : Announced pay) (hcut : CutFrom pay full pkts.length pkts)
    (h90 : 90 < pkts.length) (h636 : pkts.length ≤ 636) {pay' : GstRtpMoonlightPayVideo}
    (hblocks : fecBlocks pay pkts ((pkts.length + 2) / 3) (List.range nrBlocks) =
      some (pay', blocks))
    (hframe : ∀ blk ∈ blocks, ∀ p ∈ blk, p.frameIndex = pay.frameNum.toNat) :
    Receivable pay pkts blocks := by
  obtain ⟨hlen, hget⟩ := getElem?_fecBlocks hblocks
  set perBlock := (pkts.length + 2) / 3 with hper
  set data := fun k => (blockSub pkts perBlock k).map Packet.payload with hdata
  have hsub : ∀ {k : ℕ} {d}, k < 3 → ((List.range 3).map data)[k]? = some d → d = data k := by
    intro k d hk hd
    rw [List.getElem?_map, List.getElem?_range hk, Option.map_some] at hd
    exact (Option.some.inj hd).symm
  refine ⟨(List.range 3).map data, blocks,
    ⟨List.cons_ne_nil _ _, hlen, fun {k d blk} hk hblk => ?_, hframe⟩, ?_,
    fun arrived harr => ⟨harr.sent, fun {k d blk} hk hblk => ?_⟩⟩
  · obtain ⟨hlt, n, hn⟩ := hget hblk
    obtain rfl := hsub hlt hk
    have hle : (blockSub pkts perBlock k).length ≤ 212 := by
      rw [length_blockSub]
      simp only [blockLength]
      obtain rfl | rfl | rfl : k = 0 ∨ k = 1 ∨ k = 2 := by omega
      all_goals omega
    have hann : Announced (pay.advance n) := ⟨ha.1, ha.2, ha.3⟩
    have horigin : ∀ (i : ℕ) p, (blockSub pkts perBlock k)[i]? = some p →
        p.origin = .data (k * perBlock + i) := by
      intro i p hp
      rw [blockSub, gstBufferListSub, List.getElem?_take] at hp
      split_ifs at hp
      rw [List.getElem?_drop] at hp
      exact hcut.origin hp
    have hfull : FullShards (blockSize (pay.advance n)) (blockSub pkts perBlock k) :=
      hcut.fullShards_blockSub
    have hsent : SentBlock (pay.advance n).room 2 k (data k) blk := by
      refine sentBlock_generateFecPackets hann hle hfull horigin
        (fun p hp => hcut.header_le (mem_of_mem_blockSub hp)) ?_ ?_ hn
      · obtain rfl | rfl | rfl : k = 0 ∨ k = 1 ∨ k = 2 := by omega
        all_goals rfl
      · obtain rfl | rfl | rfl : k = 0 ∨ k = 1 ∨ k = 2 := by omega
        all_goals rfl
    exact hsent
  · have hcomp : (List.range 3).map data =
        ((List.range 3).map (blockSub pkts perBlock)).map (List.map Packet.payload) := by
      rw [List.map_map]
      rfl
    rw [hcomp, ← List.map_flatten, List.range_eq_range', flatten_blockSub, gstBufferListSub,
      Nat.zero_mul, List.drop_zero, List.take_of_length_le (by omega)]
  · obtain ⟨hlt, n, hn⟩ := hget hblk
    obtain rfl := hsub hlt hk
    have hpct : 0 < (pay.advance n).fecPercentage := ha.pct_pos
    rw [hdata, List.length_map, ← parityCount_generateFecPackets hpct
      (fun p hp => hcut.isData (mem_of_mem_blockSub hp)) hn]
    exact harr.lost blk (List.mem_of_getElem? hblk)

/-- **The blocks of a frame** whose headers describe them. -/
theorem receivable_divided (ha : Announced pay) (hcut : CutFrom pay full pkts.length pkts)
    (hne : pkts ≠ []) (h : Divided pay pkts blocks)
    (hN : pkts.length ≤ 636 ∨ pkts.length = 639 ∨ (641 ≤ pkts.length ∧ pkts.length ≤ 1023))
    (hframe : ∀ p ∈ blocks.flatten, p.frameIndex = pay.frameNum.toNat) :
    Receivable pay pkts blocks := by
  have hindex : ∀ blk ∈ blocks, ∀ p ∈ blk, p.frameIndex = pay.frameNum.toNat :=
    fun blk hblk p hp => hframe p (List.mem_flatten.mpr ⟨blk, hblk, hp⟩)
  by_cases hbig : 636 < pkts.length
  · have hflat : blocks.flatten = pkts := by
      refine flatten_of_skipsFec ha.pct_pos h (by omega) fun k hk => ?_
      rw [ha.skipsFec_iff]
      simp only [blockLength]
      obtain rfl | rfl | rfl : k = 0 ∨ k = 1 ∨ k = 2 := by omega
      all_goals omega
    exact receivable_fresh hcut hne (by omega) hflat hframe
  · cases h with
    | unprotected h => exact absurd h ha.pct_pos.ne'
    | single _ h90 hblk =>
      exact receivable_single ha hcut h90 hblk (hindex _ List.mem_cons_self)
    | three _ h90 hblocks => exact receivable_three ha hcut h90 (by omega) hblocks hindex

end Split

/-! ### The frames of a run -/

/-- The blocks of each frame of a run, if the payloader goes through all of them. -/
def blocksOfFrames (pay : GstRtpMoonlightPayVideo) :
    List Frame → Option (List (List (List Packet)))
  | [] => some []
  | inbuf :: inbufs => do
    let (pay', blocks) ← splitIntoBlocks pay inbuf
    let rest ← blocksOfFrames pay' inbufs
    return blocks :: rest

/-- The headers of the frame describe the blocks it is sent in. -/
def Describable (pay : GstRtpMoonlightPayVideo) (inbuf : Frame) : Prop :=
  let n := packetCount pay (inbuf.data.length + ShortHeader.size)
  n ≤ 636 ∨ n = 639 ∨ (641 ≤ n ∧ n ≤ 1023)

instance {pay : GstRtpMoonlightPayVideo} {inbuf : Frame} : Decidable (Describable pay inbuf) :=
  inferInstanceAs (Decidable (_ ∨ _))

/-- The element some frames later. -/
structure Reached (pay : GstRtpMoonlightPayVideo) (i : ℕ) (pay' : GstRtpMoonlightPayVideo) :
    Prop where
  announced : Announced pay'
  payloadSize : pay'.payloadSize = pay.payloadSize
  frameNum : pay'.frameNum.toNat = (pay.frameNum.toNat + i) % 2 ^ 32

section Run

variable {pay pay' : GstRtpMoonlightPayVideo} {inbuf : Frame} {inbufs : List Frame}
  {blocks : List (List Packet)} {frames : List (List (List Packet))}

theorem Reached.packetCount {i n : ℕ} (h : Reached pay i pay') :
    Video.packetCount pay' n = Video.packetCount pay n := by
  simp only [Video.packetCount, GstRtpMoonlightPayVideo.room, h.payloadSize]

theorem Reached.shortHeader {i : ℕ} (h : Reached pay i pay') :
    Video.shortHeader pay' inbuf = Video.shortHeader pay inbuf := by
  simp only [Video.shortHeader, h.payloadSize]

/-- Every packet carries the number of its frame. -/
theorem frameIndex_of_mem_splitIntoBlocks (hpay : 16 < pay.payloadSize)
    (h : splitIntoBlocks pay inbuf = some (pay', blocks)) {p : Packet} (hp : p ∈ blocks.flatten) :
    p.frameIndex = pay.frameNum.toNat := by
  simp only [splitIntoBlocks, Option.bind_eq_bind, Option.bind_eq_some_iff, Option.pure_def,
    Option.some.injEq, Prod.mk.injEq] at h
  obtain ⟨full, -, pkts, hpkts, ⟨pay₁, blks⟩, hfec, -, rfl⟩ := h
  obtain ⟨tot, hcut, -⟩ := cutFrom_generateRtpPackets hpkts
  refine frameIndex_of_mem_applyFec hpay (fun q hq => hcut.header_le hq) (fun q hq => ?_) hfec hp
  obtain ⟨i, hi⟩ := List.mem_iff_getElem?.mp hq
  rw [← hcut.packet hi]
  exact frameIndex_createRtpHeader

theorem reached_splitIntoBlocks (ha : Announced pay)
    (h : splitIntoBlocks pay inbuf = some (pay', blocks)) : Reached pay 1 pay' := by
  obtain ⟨pkts, tot, full, -, -, -, -, rfl, -⟩ := splitIntoBlocks_cases ha.pct_pos h
  exact ⟨⟨ha.1, ha.2, ha.3⟩, rfl, UInt32.toNat_add ..⟩

theorem Reached.trans {pay'' : GstRtpMoonlightPayVideo} {i j : ℕ} (h : Reached pay i pay')
    (h' : Reached pay' j pay'') : Reached pay (i + j) pay'' := by
  refine ⟨h'.announced, h'.payloadSize.trans h.payloadSize, ?_⟩
  rw [h'.frameNum, h.frameNum, Nat.mod_add_mod, Nat.add_assoc]

/-- **A frame comes back** from the datagrams that arrive of it. -/
theorem recoverFrame_splitIntoBlocks (ha : Announced pay) (hgood : Describable pay inbuf)
    (h : splitIntoBlocks pay inbuf = some (pay', blocks)) {arrived : List Bytes}
    (harr : Tolerable blocks arrived) (wrk : Mem) :
    ∃ sh, shortHeader pay inbuf = some sh ∧
      recoverFrame wrk arrived = some (sh ++ inbuf.data) := by
  obtain ⟨sh, hsh, hfull, hlen, hlast⟩ := prependVideoHeader_eq_some ha.payloadSize inbuf
  have hlenFull : (sh ++ inbuf.data).length = inbuf.data.length + ShortHeader.size := by
    rw [List.length_append, hlen, Nat.add_comm]
  have hcount : packetCount pay (inbuf.data.length + ShortHeader.size) ≤ 1024 := by
    rcases hgood with h | h | h <;> omega
  have hsize : (sh ++ inbuf.data).length < 2 ^ 24 := by
    have hle := le_packetCount_mul ha.payloadSize (inbuf.data.length + ShortHeader.size)
    have hroom : pay.room ≤ 10224 := by
      have hmax := pay.payloadSize_le
      simp only [GstRtpMoonlightPayVideo.room, maxRtpHeaderSize]
      omega
    have hmul := Nat.mul_le_mul hcount hroom
    omega
  have hpos : 0 < (sh ++ inbuf.data).length := by
    rw [hlenFull]
    exact Nat.succ_pos _
  obtain ⟨pay₂, blocks₂, hsplit, hdiv⟩ := splitIntoBlocks_eq_some ha.payloadSize hfull hpos hsize
  obtain ⟨rfl, rfl⟩ := Prod.mk.inj (Option.some.inj (hsplit.symm.trans h))
  have hcut := cutFrom_cutPackets ha.payloadSize (sh ++ inbuf.data)
  rw [← length_cutPackets] at hcut
  have hne : cutPackets pay (sh ++ inbuf.data) ≠ [] := by
    rw [← List.length_pos_iff, length_cutPackets]
    have hroom := room_pos ha.payloadSize
    exact Nat.div_pos (by omega) hroom
  obtain ⟨datas, sent, hframe, hdatas, htol⟩ := receivable_divided ha hcut hne hdiv
    (by rw [length_cutPackets, hlenFull]; exact hgood)
    (fun p hp => frameIndex_of_mem_splitIntoBlocks ha.payloadSize h hp)
  obtain ⟨payloads, hrec, hpayloads⟩ := recoverFrame_eq_some hframe (htol arrived harr) wrk
  rw [hdatas] at hpayloads
  refine ⟨sh, hsh, ?_⟩
  rw [hrec, joinPayloads_of_forall₂ ha.payloadSize hlen (by rw [hlast, hlenFull]) hpayloads]

/-- Frames below `2 ^ 24` bytes are all sent. -/
theorem exists_blocksOfFrames (ha : Announced pay)
    (hsize : ∀ f ∈ inbufs, f.data.length + ShortHeader.size < 2 ^ 24) :
    ∃ frames, blocksOfFrames pay inbufs = some frames ∧
      packetise pay inbufs = frames.flatten.flatten := by
  induction inbufs generalizing pay with
  | nil => exact ⟨[], rfl, rfl⟩
  | cons f inbufs ih =>
    obtain ⟨sh, -, hfull, hlen, -⟩ := prependVideoHeader_eq_some ha.payloadSize f
    have hlenFull : (sh ++ f.data).length = f.data.length + ShortHeader.size := by
      rw [List.length_append, hlen, Nat.add_comm]
    have hpos : 0 < (sh ++ f.data).length := by
      rw [hlenFull]
      exact Nat.succ_pos _
    obtain ⟨pay', blocks, hsplit, -⟩ := splitIntoBlocks_eq_some ha.payloadSize hfull hpos
      (hlenFull ▸ hsize f List.mem_cons_self)
    obtain ⟨rest, hrest, hsent⟩ := ih (reached_splitIntoBlocks ha hsplit).announced
      fun g hg => hsize g (List.mem_cons_of_mem _ hg)
    refine ⟨blocks :: rest, ?_, ?_⟩
    · simp only [blocksOfFrames, hsplit, hrest, Option.bind_eq_bind, Option.bind_some]
      rfl
    · rw [packetise, splitIntoRtp, hsplit, Option.map_some]
      simp only [hsent, List.flatten_cons, List.flatten_append]

/-- The blocks of a frame of a run are those the element makes of it when its turn comes. -/
theorem getElem?_blocksOfFrames (ha : Announced pay) (h : blocksOfFrames pay inbufs = some frames)
    {i : ℕ} (hblocks : frames[i]? = some blocks) :
    ∃ payi pay' f, inbufs[i]? = some f ∧ Reached pay i payi ∧
      splitIntoBlocks payi f = some (pay', blocks) := by
  induction inbufs generalizing pay frames i with
  | nil =>
    obtain rfl : [] = frames := Option.some.inj h
    cases hblocks
  | cons f inbufs ih =>
    simp only [blocksOfFrames, Option.bind_eq_bind, Option.bind_eq_some_iff, Option.pure_def,
      Option.some.injEq] at h
    obtain ⟨⟨pay₁, first⟩, hsplit, rest, hrest, rfl⟩ := h
    have hreach := reached_splitIntoBlocks ha hsplit
    cases i with
    | zero =>
      obtain rfl : first = blocks := Option.some.inj hblocks
      refine ⟨pay, pay₁, f, rfl, ⟨ha, rfl, ?_⟩, hsplit⟩
      exact (Nat.mod_eq_of_lt pay.frameNum.toNat_lt).symm
    | succ i =>
      obtain ⟨payi, pay', g, hg, hreachi, hsplitj⟩ := ih hreach.announced hrest hblocks
      exact ⟨payi, pay', g, hg, Nat.add_comm i 1 ▸ hreach.trans hreachi, hsplitj⟩

/-- **From the encoder to the client.** Of a run of frames the packets are sent as datagrams, of
which any may be lost, and the others arrive in any order and any number of times. A frame whose
headers describe it comes back, with its short header, if none of its blocks loses more packets
than it has parity packets; what happens to the other frames of the run does not matter. -/
theorem packetise_delivered (ha : Announced pay)
    (hsize : ∀ f ∈ inbufs, f.data.length + ShortHeader.size < 2 ^ 24)
    (hcount : inbufs.length ≤ 2 ^ 32) :
    ∃ frames, blocksOfFrames pay inbufs = some frames ∧
      packetise pay inbufs = frames.flatten.flatten ∧
      ∀ arrived, (∀ d ∈ arrived, ∃ p ∈ packetise pay inbufs, p.bytes = d) →
        ∀ (i : ℕ) f blocks, inbufs[i]? = some f → frames[i]? = some blocks → Describable pay f →
          (∀ blk ∈ blocks, (blk.filter fun p => p.bytes ∉ arrived).length ≤ parityCount blk) →
          ∀ wrk, ∃ sh, shortHeader pay f = some sh ∧
            receive wrk arrived ((pay.frameNum.toNat + i) % 2 ^ 32) = some (sh ++ f.data) := by
  obtain ⟨frames, hframes, hsent⟩ := exists_blocksOfFrames ha hsize
  refine ⟨frames, hframes, hsent, fun arrived harr i f blocks hf hblocks hgood hlost wrk => ?_⟩
  obtain ⟨payi, pay', f', hf', hreach, hsplit⟩ := getElem?_blocksOfFrames ha hframes hblocks
  obtain rfl : f' = f := Option.some.inj (hf'.symm.trans hf)
  have hi : i < inbufs.length := (List.getElem?_eq_some_iff.mp hf).1
  have hpay := hreach.announced.payloadSize
  -- the datagrams that name the frame are those sent of it
  have hof : ∀ d ∈ arrived.filter fun d => (onWire d).frameIndex = payi.frameNum.toNat,
      ∃ p ∈ blocks.flatten, p.bytes = d := by
    intro d hd
    obtain ⟨hmem, hd⟩ := List.mem_filter.mp hd
    obtain ⟨p, hp, rfl⟩ := harr d hmem
    rw [hsent, List.flatten_flatten] at hp
    obtain ⟨pkts, hpkts, hp⟩ := List.mem_flatten.mp hp
    obtain ⟨blocks', hblocks', rfl⟩ := List.mem_map.mp hpkts
    obtain ⟨j, hj⟩ := List.mem_iff_getElem?.mp hblocks'
    obtain ⟨payj, payj', g, hg, hreachj, hsplitj⟩ := getElem?_blocksOfFrames ha hframes hj
    have hjlt : j < inbufs.length := (List.getElem?_eq_some_iff.mp hg).1
    have hindex : payj.frameNum.toNat = payi.frameNum.toNat :=
      (frameIndex_of_mem_splitIntoBlocks hreachj.announced.payloadSize hsplitj hp).symm.trans
        (of_decide_eq_true hd)
    obtain rfl : j = i := by
      rw [hreachj.frameNum, hreach.frameNum] at hindex
      omega
    obtain rfl : blocks' = blocks := Option.some.inj (hj.symm.trans hblocks)
    exact ⟨p, hp, rfl⟩
  have htol : Tolerable blocks
      (arrived.filter fun d => (onWire d).frameIndex = payi.frameNum.toNat) := by
    refine ⟨hof, fun blk hblk => le_of_eq_of_le (congrArg List.length ?_) (hlost blk hblk)⟩
    refine List.filter_congr fun p hp => ?_
    have hindex : decide ((onWire p.bytes).frameIndex = payi.frameNum.toNat) = true :=
      decide_eq_true (show p.frameIndex = _ from frameIndex_of_mem_splitIntoBlocks hpay hsplit
        (List.mem_flatten.mpr ⟨blk, hblk, hp⟩))
    simp only [List.mem_filter, hindex, and_true]
  have hgoodi : Describable payi f' := by
    rw [Describable, hreach.packetCount]
    exact hgood
  obtain ⟨sh, hsh, hrec⟩ := recoverFrame_splitIntoBlocks hreach.announced hgoodi hsplit htol wrk
  refine ⟨sh, hreach.shortHeader.symm.trans hsh, ?_⟩
  rw [receive, ← hreach.frameNum]
  exact hrec

/-- An empty frame in packets of eight bytes, of which the data packet and the first parity packet
are lost. -/
theorem packetise_delivered_parityOnly :
    ∃ p q r sh, packetise (.ofPayloadSize 24 (by decide)) [⟨[], false⟩] = [p, q, r] ∧
      p.isData = true ∧ shortHeader (.ofPayloadSize 24 (by decide)) ⟨[], false⟩ = some sh ∧
      receive (fun _ => 0) [r.bytes] 0 = some sh := by
  obtain ⟨frames, hframes, hsent, hdelivered⟩ :=
    @packetise_delivered (.ofPayloadSize 24 (by decide)) [⟨[], false⟩] ⟨rfl, rfl, by decide⟩
      (by decide) (by decide)
  have hshape : (blocksOfFrames (.ofPayloadSize 24 (by decide)) [⟨[], false⟩]).map
      (List.map (List.map (List.map Packet.isData))) = some [[[true, false, false]]] := by
    decide +kernel
  rw [hframes, Option.map_some, Option.some.injEq] at hshape
  obtain ⟨blocks, rfl, hblocks⟩ := List.map_eq_singleton_iff.mp hshape
  obtain ⟨blk, rfl, hblk⟩ := List.map_eq_singleton_iff.mp hblocks
  have hlen : blk.length = 3 := by
    rw [← List.length_map (f := Packet.isData), hblk]
    rfl
  obtain ⟨p, q, r, rfl⟩ := List.length_eq_three.mp hlen
  simp only [List.map_cons, List.map_nil, List.cons.injEq, and_true] at hblk
  obtain ⟨hp, hq, hr⟩ := hblk
  have hpkts : packetise (.ofPayloadSize 24 (by decide)) [⟨[], false⟩] = [p, q, r] := hsent
  have hlost : ([p, q, r].filter fun s => s.bytes ∉ [r.bytes]).length ≤ parityCount [p, q, r] := by
    have htwo : parityCount [p, q, r] = 2 := by
      simp only [parityCount, List.countP_cons, List.countP_nil, hp, hq, hr, Bool.not_true,
        Bool.not_false, if_true, Bool.false_eq_true, if_false]
    have hkept : ([r].filter fun s => s.bytes ∉ [r.bytes]) = [] := by
      simp only [List.mem_singleton, List.filter_cons, not_true, decide_false, Bool.false_eq_true,
        if_false, List.filter_nil]
    rw [htwo, show [p, q, r] = [p, q] ++ [r] from rfl, List.filter_append, hkept, List.append_nil]
    exact List.length_filter_le ..
  obtain ⟨sh, hsh, hrec⟩ := hdelivered [r.bytes]
    (fun d hd => ⟨r, hpkts ▸ List.mem_of_getLast? rfl, (List.mem_singleton.mp hd).symm⟩)
    0 ⟨[], false⟩ [[p, q, r]] rfl rfl (by decide)
    (fun blk hblk => by rw [List.mem_singleton.mp hblk]; exact hlost) (fun _ => 0)
  exact ⟨p, q, r, sh, hpkts, hp, hsh, by rw [List.append_nil] at hrec; exact hrec⟩

end Run

end SteamStream.Video
