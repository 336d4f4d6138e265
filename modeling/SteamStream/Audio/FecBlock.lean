import SteamStream.Audio.Payloader

/-!
# The audio FEC covers its block

Every fourth list the payloader pushes carries two parity packets over the last four data
packets. `FecCovers` says so of what is pushed, in terms of what a receiver reads from the
packets, and `pushed_fecCovers` proves it of every run whose RTP blocks have one size.

What carries the proof is `Tracks`: the sequence number counts the lists pushed so far, and the
last four data packets are in the ring, each in the slot of its number modulo four. The counter
wraps at a multiple of four, so the slots survive the wrap.
-/

namespace SteamStream.Audio

open Wire Nanors Layout

/-! ### What a receiver reads -/

/-- The RTP sequence number. -/
def seq (p : Bytes) : ℕ := sequenceNumber.getBE p

/-- The RTP timestamp. -/
def time (p : Bytes) : ℕ := timestamp.getBE p

/-- The payload of a data packet. -/
def payload (p : Bytes) : Bytes := p.drop rtpHeaderSize

/-- The payload of a parity packet. -/
def fecPayload (p : Bytes) : Bytes := p.drop fecHeaderSize

/-- The data packet of the `i`-th list. -/
def dataPacket (lists : List (List Bytes)) (i : ℕ) : Bytes := (lists.getD i []).headD []

/-- The parity packets of the `i`-th list. -/
def parityPackets (lists : List (List Bytes)) (i : ℕ) : List Bytes := (lists.getD i []).tail

/-- The parity packets `fec` protect the data packets `data`: they carry the two combinations of
their payloads, and name the first of them. -/
structure Protects (fec data : List Bytes) : Prop where
  payloads : fec.map fecPayload = audioFecParity.map fun row =>
    combine row (data.map payload) (payload (data.headD [])).length
  base : ∀ f ∈ fec, baseSequenceNumber.getBE f = seq (data.headD []) ∧
    baseTimestamp.getBE f = time (data.headD [])

/-- The four data packets up to the `i`-th list. -/
def lastFour (lists : List (List Bytes)) (i : ℕ) : List Bytes :=
  (List.range audioDataShards).map fun k => dataPacket lists (i + k - 3)

/-- Every list pushed is one data packet, with the next sequence number, and, in every fourth
list, two parity packets over the last four. -/
structure FecCovers (lists : List (List Bytes)) : Prop where
  data : ∀ i < lists.length, lists.getD i [] ≠ [] ∧ packetType.getLE (dataPacket lists i) = 97
  consecutive : ∀ i, i + 1 < lists.length →
    seq (dataPacket lists (i + 1)) = (seq (dataPacket lists i) + 1) % 2 ^ 16
  parity : ∀ i < lists.length, ∀ f ∈ parityPackets lists i, packetType.getLE f = 127
  count : ∀ i < lists.length,
    (parityPackets lists i).length = if (i + 1) % 4 = 0 then 2 else 0
  protects : ∀ i < lists.length, (i + 1) % 4 = 0 →
    Protects (parityPackets lists i) (lastFour lists i)

/-! ### Headers -/

section Headers

variable {pay : GstRtpMoonlightPayAudio} {rest : Bytes} {fecPacketIdx : ℕ}

@[simp]
theorem length_createRtpHeader : (createRtpHeader pay).length = rtpHeaderSize := by
  simp [createRtpHeader]

@[simp]
theorem length_createRtpFecHeader :
    (createRtpFecHeader pay fecPacketIdx).length = fecHeaderSize := by
  simp [createRtpFecHeader]

theorem packetType_createRtpHeader :
    packetType.getLE (createRtpHeader pay ++ rest) = 97 := by
  rw [Field.getLE_append_left (by rw [length_createRtpHeader]; decide)]
  simp only [createRtpHeader]
  rw [Field.getLE_setBE_of_disjoint (by decide), Field.getLE_setBE_of_disjoint (by decide),
    Field.getLE_setLE_of_disjoint (by decide), Field.getLE_setLE_self (by simp; decide)]
  rfl

theorem seq_createRtpHeader : seq (createRtpHeader pay ++ rest) = pay.curSeqNumber.toNat := by
  rw [seq, Field.getBE_append_left (by rw [length_createRtpHeader]; decide)]
  simp only [createRtpHeader]
  rw [Field.getBE_setBE_of_disjoint (by decide), Field.getBE_setBE_self (by simp; decide)]
  exact Nat.mod_eq_of_lt pay.curSeqNumber.toNat_lt

/-- The timestamp is computed from the sequence number. -/
theorem time_createRtpHeader : time (createRtpHeader pay ++ rest) =
    pay.curSeqNumber.toNat * pay.packetDuration := by
  rw [time, Field.getBE_append_left (by rw [length_createRtpHeader]; decide)]
  simp only [createRtpHeader]
  rw [Field.getBE_setBE_self (by simp; decide)]
  have hseq := pay.curSeqNumber.toNat_lt
  have hmul : pay.curSeqNumber.toNat * pay.packetDuration ≤ 2 ^ 16 * 60 :=
    Nat.mul_le_mul hseq.le pay.packetDuration_le
  exact Nat.mod_eq_of_lt (by change _ < 256 ^ 4; omega)

theorem packetType_createRtpFecHeader :
    packetType.getLE (createRtpFecHeader pay fecPacketIdx ++ rest) = 127 := by
  rw [Field.getLE_append_left (by rw [length_createRtpFecHeader]; decide)]
  simp only [createRtpFecHeader]
  rw [Field.getLE_setLE_of_disjoint (by decide), Field.getLE_setBE_of_disjoint (by decide),
    Field.getLE_setBE_of_disjoint (by decide), Field.getLE_setBE_of_disjoint (by decide),
    Field.getLE_setLE_of_disjoint (by decide), Field.getLE_setLE_of_disjoint (by decide),
    Field.getLE_setLE_of_disjoint (by decide), Field.getLE_setLE_of_disjoint (by decide),
    Field.getLE_setLE_self (by simp; decide)]
  rfl

/-- The base sequence number, where the difference does not go below zero. -/
theorem baseSequenceNumber_createRtpFecHeader (h : 3 ≤ pay.curSeqNumber.toNat) :
    baseSequenceNumber.getBE (createRtpFecHeader pay fecPacketIdx ++ rest) =
      pay.curSeqNumber.toNat - 3 := by
  rw [Field.getBE_append_left (by rw [length_createRtpFecHeader]; decide)]
  simp only [createRtpFecHeader, audioDataShards]
  rw [Field.getBE_setLE_of_disjoint (by decide), Field.getBE_setBE_of_disjoint (by decide),
    Field.getBE_setBE_of_disjoint (by decide), Field.getBE_setBE_self (by simp; decide)]
  have hseq := pay.curSeqNumber.toNat_lt
  change _ % 256 ^ 2 = _
  omega

theorem baseTimestamp_createRtpFecHeader (h : 3 ≤ pay.curSeqNumber.toNat) :
    baseTimestamp.getBE (createRtpFecHeader pay fecPacketIdx ++ rest) =
      (pay.curSeqNumber.toNat - 3) * pay.packetDuration := by
  rw [Field.getBE_append_left (by rw [length_createRtpFecHeader]; decide)]
  simp only [createRtpFecHeader, audioDataShards]
  rw [Field.getBE_setLE_of_disjoint (by decide), Field.getBE_setBE_of_disjoint (by decide),
    Field.getBE_setBE_self (by simp; decide)]
  have hseq := pay.curSeqNumber.toNat_lt
  have hmul : (pay.curSeqNumber.toNat - 3) * pay.packetDuration ≤ 2 ^ 16 * 60 :=
    Nat.mul_le_mul (by omega) pay.packetDuration_le
  have hcast : ((pay.curSeqNumber.toNat : ℤ) - ((4 : ℕ) - 1)) * pay.packetDuration =
      ((pay.curSeqNumber.toNat - 3) * pay.packetDuration : ℕ) := by
    rw [Nat.cast_mul, Nat.cast_sub h]
    rfl
  rw [hcast]
  change _ % 256 ^ 4 = _
  omega

end Headers

/-! ### The ring -/

section Ring

variable {memory : PacketsBuffer} {buf : Bytes} {shard blockSize j : ℕ}

/-- The bytes of a shard buffer. -/
def PacketsBuffer.row (memory : PacketsBuffer) (j : ℕ) : Bytes := memory.rows.getD j []

/-- A packet copied into a slot is at its front. -/
theorem PacketsBuffer.take_row_copyInto (h : buf.length ≤ audioMaxBlockSize)
    (hshard : shard < audioTotalShards) :
    ((memory.copyInto shard buf h).row shard).take buf.length = buf := by
  have hlt : shard < memory.rows.length := memory.length_rows ▸ hshard
  rw [row, copyInto, List.getD_eq_getElem?_getD, List.getElem?_modify_eq,
    List.getElem?_eq_getElem hlt]
  exact List.take_left

/-- The other slots are as they were. -/
theorem PacketsBuffer.row_copyInto_of_ne (h : buf.length ≤ audioMaxBlockSize) (hj : shard ≠ j) :
    (memory.copyInto shard buf h).row j = memory.row j := by
  rw [row, copyInto, List.getD_eq_getElem?_getD, List.getElem?_modify_ne _ _ hj,
    ← List.getD_eq_getElem?_getD, row]

/-- Past the packet a slot is as it was. -/
theorem PacketsBuffer.drop_row_copyInto (h : buf.length ≤ audioMaxBlockSize) :
    ((memory.copyInto shard buf h).row j).drop buf.length = (memory.row j).drop buf.length := by
  rcases eq_or_ne shard j with rfl | hj
  · simp only [row, copyInto, List.getD_eq_getElem?_getD, List.getElem?_modify_eq]
    cases memory.rows[shard]? with
    | none => rfl
    | some old => exact List.drop_left
  · rw [PacketsBuffer.row_copyInto_of_ne h hj]

/-- The first rows, as the encoder is given them. -/
private theorem take_rows (memory : PacketsBuffer) (blockSize : ℕ) :
    (memory.rows.take audioDataShards).map (·.take blockSize) =
      (List.range audioDataShards).map fun j => (memory.row j).take blockSize := by
  have hlen : (memory.rows.take audioDataShards).length = audioDataShards := by
    rw [List.length_take, memory.length_rows]
    rfl
  refine List.ext_getElem (by rw [List.length_map, hlen]; simp) fun i hi hi' => ?_
  rw [List.length_map, hlen] at hi
  have hlt : i < memory.rows.length := by
    rw [memory.length_rows]
    exact hi.trans (by decide)
  simp only [List.getElem_map, List.getElem_take, List.getElem_range, PacketsBuffer.row,
    List.getD_eq_getElem _ _ hlt]

private theorem row_encode (h : blockSize ≤ audioMaxBlockSize) (hj : j < audioTotalShards) :
    (memory.encode blockSize h).row j =
      (encodedShards memory.rows blockSize).getD j [] ++ (memory.row j).drop blockSize := by
  have hlt : j < memory.rows.length := memory.length_rows ▸ hj
  have hlt' : j < (encodedShards memory.rows blockSize).length :=
    (length_encodedShards memory.length_rows blockSize).symm ▸ hj
  simp only [PacketsBuffer.row, PacketsBuffer.encode, List.getD_eq_getElem?_getD,
    List.getElem?_zipWith, List.getElem?_eq_getElem hlt, List.getElem?_eq_getElem hlt',
    Option.getD_some]

/-- Past the block encoding leaves every slot as it was. -/
theorem PacketsBuffer.drop_row_encode (h : blockSize ≤ audioMaxBlockSize)
    (hj : j < audioTotalShards) :
    ((memory.encode blockSize h).row j).drop blockSize = (memory.row j).drop blockSize := by
  have hlt : j < (encodedShards memory.rows blockSize).length :=
    (length_encodedShards memory.length_rows blockSize).symm ▸ hj
  have hblock : ∀ row ∈ memory.rows, blockSize ≤ row.length := fun row hrow =>
    (memory.length_row row hrow).symm ▸ h
  have hlen : ((encodedShards memory.rows blockSize).getD j []).length = blockSize := by
    rw [List.getD_eq_getElem _ _ hlt]
    exact length_of_mem_encodedShards memory.length_rows hblock (List.getElem_mem hlt)
  rw [row_encode h hj]
  exact List.drop_left' hlen

/-- Encoding leaves the data slots as they were. -/
theorem PacketsBuffer.row_encode_data (h : blockSize ≤ audioMaxBlockSize)
    (hj : j < audioDataShards) : (memory.encode blockSize h).row j = memory.row j := by
  rw [row_encode h (hj.trans (by decide)), encodedShards_eq memory.length_rows, take_rows,
    List.getD_append _ _ _ _ (by simpa using hj), List.getD_eq_getElem _ _ (by simpa using hj)]
  simp

/-- The front of a parity shard is the combination of the data slots. -/
theorem PacketsBuffer.take_row_encode_parity (h : blockSize ≤ audioMaxBlockSize)
    (hj : j < audioFecShards) :
    ((memory.encode blockSize h).row (audioDataShards + j)).take blockSize =
      combine (audioFecParity.getD j [])
        ((List.range audioDataShards).map fun j => (memory.row j).take blockSize) blockSize := by
  have hdata : ((List.range audioDataShards).map
      fun j => (memory.row j).take blockSize).length = audioDataShards := by simp
  have hrow : j < audioFecParity.length := hj
  rw [row_encode h (Nat.add_lt_add_left hj _), encodedShards_eq memory.length_rows, take_rows,
    List.getD_append_right _ _ _ _ (by rw [hdata]; exact Nat.le_add_right ..), hdata,
    Nat.add_sub_cancel_left, gemm_eq_combine, List.getD_eq_getElem _ _ (by simpa using hrow),
    List.getElem_map, List.getD_eq_getElem _ _ hrow]
  exact List.take_left' length_combine

end Ring

/-! ### One list -/

section Push

variable {cipher : Cipher} {pay pay' : GstRtpMoonlightPayAudio} {inbuf buf : Bytes}
  {packets : List Bytes}

/-- What a push leaves: the counter is one further, the packet is in its slot, the other data
slots are as they were. -/
structure PushedBuf (pay pay' : GstRtpMoonlightPayAudio) (buf : Bytes) (packets : List Bytes) :
    Prop where
  curSeqNumber : pay'.curSeqNumber = pay.curSeqNumber + 1
  packetDuration : pay'.packetDuration = pay.packetDuration
  slot : (pay'.packetsBuffer.row (pay.curSeqNumber.toNat % audioDataShards)).take buf.length = buf
  others : ∀ j < audioDataShards, pay.curSeqNumber.toNat % audioDataShards ≠ j →
    pay'.packetsBuffer.row j = pay.packetsBuffer.row j
  packets : packets = buf :: if (pay.curSeqNumber.toNat + 1) % audioDataShards = 0 then
    (List.range audioFecShards).map fun idx => createRtpFecHeader pay idx ++
      (combine (audioFecParity.getD idx [])
        ((List.range audioDataShards).map fun j => (pay'.packetsBuffer.row j).take buf.length)
        buf.length).drop rtpHeaderSize
    else []

/-- What is sent of the parity shards, in terms of the data slots. -/
theorem fecPackets_encode {memory : PacketsBuffer} {blockSize : ℕ}
    (h : blockSize ≤ audioMaxBlockSize) :
    fecPackets pay (memory.encode blockSize h) blockSize =
      (List.range audioFecShards).map fun idx => createRtpFecHeader pay idx ++
        (combine (audioFecParity.getD idx [])
          ((List.range audioDataShards).map fun j =>
            ((memory.encode blockSize h).row j).take blockSize) blockSize).drop rtpHeaderSize := by
  unfold fecPackets
  refine List.map_congr_left fun idx hidx => ?_
  have hrows : ∀ j ∈ List.range audioDataShards,
      ((memory.encode blockSize h).row j).take blockSize = (memory.row j).take blockSize :=
    fun j hj => by rw [PacketsBuffer.row_encode_data h (List.mem_range.mp hj)]
  rw [List.map_congr_left hrows,
    ← PacketsBuffer.take_row_encode_parity h (List.mem_range.mp hidx), List.drop_take,
    PacketsBuffer.row]

theorem pushedBuf_of_pushRtp (h : pushRtp pay buf = some (pay', packets)) :
    PushedBuf pay pay' buf packets := by
  unfold pushRtp at h
  split_ifs at h with hlen
  rw [Option.some.injEq, Prod.mk.injEq] at h
  obtain ⟨rfl, rfl⟩ := h
  have hslot : pay.curSeqNumber.toNat % audioDataShards < audioDataShards :=
    Nat.mod_lt _ (by decide)
  by_cases hfec : (pay.curSeqNumber.toNat + 1) % audioDataShards = 0
  · simp only [if_pos hfec]
    refine ⟨rfl, rfl, ?_, fun j hj hne => ?_, ?_⟩
    · rw [PacketsBuffer.row_encode_data hlen hslot,
        PacketsBuffer.take_row_copyInto hlen (hslot.trans (by decide))]
    · rw [PacketsBuffer.row_encode_data hlen hj, PacketsBuffer.row_copyInto_of_ne hlen hne]
    · rw [if_pos hfec, fecPackets_encode hlen]
  · simp only [if_neg hfec]
    refine ⟨rfl, rfl, ?_, fun j _ hne => PacketsBuffer.row_copyInto_of_ne hlen hne, ?_⟩
    · exact PacketsBuffer.take_row_copyInto hlen (hslot.trans (by decide))
    · exact congrArg _ (if_neg hfec).symm

/-- Every packet is its header, and something after it. -/
theorem exists_pushedBuf (h : splitIntoRtp cipher pay inbuf = some (pay', packets)) :
    ∃ rest, PushedBuf pay pay' (createRtpHeader pay ++ rest) packets := by
  obtain ⟨buf, hbuf, hpush⟩ := Option.bind_eq_some_iff.mp h
  unfold createRtpAudioBuffer at hbuf
  split_ifs at hbuf
  · obtain ⟨derivedIv, -, rfl⟩ := Option.map_eq_some_iff.mp hbuf
    exact ⟨_, pushedBuf_of_pushRtp hpush⟩
  · rw [← Option.some.inj hbuf] at hpush
    exact ⟨_, pushedBuf_of_pushRtp hpush⟩

end Push

/-! ### Runs -/

section Lists

variable {lists : List (List Bytes)} {list : List Bytes} {i : ℕ}

theorem dataPacket_append_of_lt (h : i < lists.length) :
    dataPacket (lists ++ [list]) i = dataPacket lists i := by
  rw [dataPacket, List.getD_append _ _ _ _ h, dataPacket]

theorem parityPackets_append_of_lt (h : i < lists.length) :
    parityPackets (lists ++ [list]) i = parityPackets lists i := by
  rw [parityPackets, List.getD_append _ _ _ _ h, parityPackets]

theorem dataPacket_append_self : dataPacket (lists ++ [list]) lists.length = list.headD [] := by
  simp [dataPacket, List.getD_eq_getElem?_getD]

theorem parityPackets_append_self :
    parityPackets (lists ++ [list]) lists.length = list.tail := by
  simp [parityPackets, List.getD_eq_getElem?_getD]

/-- An index into a list with one more element is an old one or the new one. -/
theorem lt_or_eq_of_lt_append (h : i < (lists ++ [list]).length) :
    i < lists.length ∨ i = lists.length := by
  rw [List.length_append, List.length_singleton] at h
  exact Nat.lt_succ_iff_lt_or_eq.mp h

theorem lastFour_append_of_lt (h : i < lists.length) :
    lastFour (lists ++ [list]) i = lastFour lists i := by
  refine List.map_congr_left fun k hk => dataPacket_append_of_lt ?_
  have hk : k < 4 := List.mem_range.mp hk
  omega

end Lists

/-- The element and what it has pushed. -/
structure Tracks (duration : ℕ) (pay : GstRtpMoonlightPayAudio) (lists : List (List Bytes)) :
    Prop where
  count : pay.curSeqNumber.toNat = lists.length % 2 ^ 16
  packetDuration : pay.packetDuration = duration
  nonempty : ∀ i < lists.length, lists.getD i [] ≠ []
  packetType : ∀ i < lists.length, packetType.getLE (dataPacket lists i) = 97
  seq : ∀ i < lists.length, seq (dataPacket lists i) = i % 2 ^ 16
  time : ∀ i < lists.length, time (dataPacket lists i) = i % 2 ^ 16 * duration
  kept : ∀ i < lists.length, lists.length ≤ i + 4 →
    (pay.packetsBuffer.row (i % 4)).take (dataPacket lists i).length = dataPacket lists i

section Tracks

variable {cipher : Cipher} {duration size : ℕ} {pay pay' : GstRtpMoonlightPayAudio} {rest : Bytes}
  {lists : List (List Bytes)} {list : List Bytes}

/-- One more list. -/
theorem Tracks.push (h : Tracks duration pay lists)
    (hpush : PushedBuf pay pay' (createRtpHeader pay ++ rest) list) :
    Tracks duration pay' (lists ++ [list]) := by
  have hcount := h.count
  have hhead : list.headD [] = createRtpHeader pay ++ rest := by
    rw [hpush.packets]
    rfl
  have hnew : dataPacket (lists ++ [list]) lists.length = createRtpHeader pay ++ rest :=
    dataPacket_append_self.trans hhead
  constructor
  case count =>
    have hwrap := UInt16.toNat_add pay.curSeqNumber 1
    rw [hpush.curSeqNumber, hwrap, List.length_append, List.length_singleton, hcount]
    change (lists.length % 2 ^ 16 + 1) % 2 ^ 16 = _
    omega
  case packetDuration => exact hpush.packetDuration.trans h.packetDuration
  case nonempty =>
    intro i hi
    rcases lt_or_eq_of_lt_append hi with hi | rfl
    · rw [List.getD_append _ _ _ _ hi]
      exact h.nonempty i hi
    · rw [List.getD_append_right _ _ _ _ le_rfl, Nat.sub_self, hpush.packets]
      exact List.cons_ne_nil _ _
  case packetType =>
    intro i hi
    rcases lt_or_eq_of_lt_append hi with hi | rfl
    · rw [dataPacket_append_of_lt hi]
      exact h.packetType i hi
    · rw [hnew, packetType_createRtpHeader]
  case seq =>
    intro i hi
    rcases lt_or_eq_of_lt_append hi with hi | rfl
    · rw [dataPacket_append_of_lt hi]
      exact h.seq i hi
    · rw [hnew, seq_createRtpHeader, hcount]
  case time =>
    intro i hi
    rcases lt_or_eq_of_lt_append hi with hi | rfl
    · rw [dataPacket_append_of_lt hi]
      exact h.time i hi
    · rw [hnew, time_createRtpHeader, hcount, h.packetDuration]
  case kept =>
    -- the slot written is the one of the packet that is now five back
    have hslot : pay.curSeqNumber.toNat % 4 = lists.length % 4 := by omega
    intro i hi hlast
    rw [List.length_append, List.length_singleton] at hlast
    rcases lt_or_eq_of_lt_append hi with hi | rfl
    · rw [dataPacket_append_of_lt hi, hpush.others (i % 4) (Nat.mod_lt _ (by decide))
        (by rw [audioDataShards, hslot]; omega)]
      exact h.kept i hi (by omega)
    · rw [hnew, ← hslot]
      exact hpush.slot

/-- The last four packets of one size are what the data slots hold. -/
theorem Tracks.lastFour_eq (h : Tracks duration pay lists) {n : ℕ} (hn : lists.length = n + 1)
    (hfour : (n + 1) % 4 = 0)
    (hsize : ∀ i < lists.length, (dataPacket lists i).length = size) :
    (List.range audioDataShards).map (fun j => (pay.packetsBuffer.row j).take size) =
      lastFour lists n := by
  refine List.map_congr_left fun k hk => ?_
  have hk : k < 4 := List.mem_range.mp hk
  have hlt : n + k - 3 < lists.length := by omega
  have hkept := h.kept (n + k - 3) hlt (by omega)
  rwa [hsize _ hlt, show (n + k - 3) % 4 = k by omega] at hkept

private theorem map_audioFecParity {α : Type} (f : List UInt8 → α) : audioFecParity.map f =
    (List.range audioFecShards).map fun idx => f (audioFecParity.getD idx []) := rfl

theorem headD_lastFour {i : ℕ} : (lastFour lists i).headD [] = dataPacket lists (i - 3) := rfl

/-- The parity packets of a list protect the last four data packets. -/
theorem Tracks.protects (h : Tracks duration pay lists)
    (hpush : PushedBuf pay pay' (createRtpHeader pay ++ rest) list)
    (hfour : (lists.length + 1) % 4 = 0)
    (hsize : ∀ i < (lists ++ [list]).length, (dataPacket (lists ++ [list]) i).length = size) :
    Protects list.tail (lastFour (lists ++ [list]) lists.length) := by
  have hlen : (lists ++ [list]).length = lists.length + 1 := by simp
  have hcount := h.count
  have htime : (pay.curSeqNumber.toNat + 1) % audioDataShards = 0 := by
    rw [audioDataShards]
    omega
  have hbase : pay.curSeqNumber.toNat - 3 = (lists.length - 3) % 2 ^ 16 := by omega
  have hthree : 3 ≤ pay.curSeqNumber.toNat := by omega
  have hlast := (h.push hpush).lastFour_eq hlen hfour hsize
  have hbuf : (createRtpHeader pay ++ rest).length = size := by
    have hself := hsize lists.length (by omega)
    rwa [dataPacket_append_self, hpush.packets] at hself
  have hfec := congrArg List.tail hpush.packets
  rw [if_pos htime, hbuf, hlast, List.tail_cons] at hfec
  have hfirst := (h.push hpush).seq (lists.length - 3) (by omega)
  have hfirst' := (h.push hpush).time (lists.length - 3) (by omega)
  constructor
  case payloads =>
    have hpayload : (payload ((lastFour (lists ++ [list]) lists.length).headD [])).length =
        size - rtpHeaderSize := by
      rw [headD_lastFour, payload, List.length_drop, hsize _ (by omega)]
    have hdrop : ∀ idx : ℕ, fecPayload (createRtpFecHeader pay idx ++
        (combine (audioFecParity.getD idx []) (lastFour (lists ++ [list]) lists.length)
          size).drop rtpHeaderSize) =
        combine (audioFecParity.getD idx [])
          ((lastFour (lists ++ [list]) lists.length).map payload) (size - rtpHeaderSize) :=
      fun idx => by
        rw [fecPayload, List.drop_left' length_createRtpFecHeader, drop_combine]
        rfl
    rw [hpayload, hfec, List.map_map, map_audioFecParity]
    refine List.map_congr_left fun idx _ => ?_
    rw [Function.comp_apply, hdrop]
  case base =>
    intro f hf
    rw [hfec] at hf
    obtain ⟨idx, -, rfl⟩ := List.mem_map.mp hf
    rw [headD_lastFour, baseSequenceNumber_createRtpFecHeader hthree,
      baseTimestamp_createRtpFecHeader hthree, hfirst, hfirst', hbase, h.packetDuration]
    exact ⟨rfl, rfl⟩

/-- What covers the lists pushed so far covers them with one more. -/
theorem FecCovers.push (hcovers : FecCovers lists) (h : Tracks duration pay lists)
    (hpush : PushedBuf pay pay' (createRtpHeader pay ++ rest) list)
    (hsize : ∀ i < (lists ++ [list]).length, (dataPacket (lists ++ [list]) i).length = size) :
    FecCovers (lists ++ [list]) := by
  have hcount := h.count
  have htime : (pay.curSeqNumber.toNat + 1) % audioDataShards = 0 ↔ (lists.length + 1) % 4 = 0 := by
    rw [audioDataShards]
    omega
  have hnext := h.push hpush
  have hparity := hpush.packets
  constructor
  case data => exact fun i hi => ⟨hnext.nonempty i hi, hnext.packetType i hi⟩
  case consecutive =>
    intro i hi
    rw [hnext.seq (i + 1) hi, hnext.seq i (by omega)]
    omega
  case parity =>
    intro i hi f hf
    rcases lt_or_eq_of_lt_append hi with hi | rfl
    · rw [parityPackets_append_of_lt hi] at hf
      exact hcovers.parity i hi f hf
    · rw [parityPackets_append_self, hparity, List.tail_cons] at hf
      split_ifs at hf
      · obtain ⟨idx, -, rfl⟩ := List.mem_map.mp hf
        exact packetType_createRtpFecHeader
      · exact absurd hf List.not_mem_nil
  case count =>
    intro i hi
    rcases lt_or_eq_of_lt_append hi with hi | rfl
    · rw [parityPackets_append_of_lt hi]
      exact hcovers.count i hi
    · rw [parityPackets_append_self, hparity, List.tail_cons]
      by_cases hfour : (lists.length + 1) % 4 = 0
      · rw [if_pos (htime.mpr hfour), if_pos hfour, List.length_map, List.length_range]
        rfl
      · rw [if_neg (mt htime.mp hfour), if_neg hfour]
        rfl
  case protects =>
    intro i hi hfour
    rcases lt_or_eq_of_lt_append hi with hi | rfl
    · rw [parityPackets_append_of_lt hi, lastFour_append_of_lt hi]
      exact hcovers.protects i hi hfour
    · rw [parityPackets_append_self]
      exact h.protects hpush hfour hsize

end Tracks

section Runs

variable {cipher : Cipher} {memory : PacketsBuffer} {props : Properties} {events : List PayEvent}

/-- A new element has pushed nothing. -/
theorem tracks_start (memory : PacketsBuffer) (props : Properties) :
    Tracks props.packetDuration (.start memory props) [] where
  count := rfl
  packetDuration := rfl
  nonempty := nofun
  packetType := nofun
  seq := nofun
  time := nofun
  kept := nofun

/-- What one event pushes: nothing, and the counter and the ring stay; or one list. -/
theorem step_cases {pay pay' : GstRtpMoonlightPayAudio} {start : GstRtpMoonlightPayAudio}
    {event : PayEvent} (h : (payloader cipher start).step pay event = some pay') :
    (pushList cipher pay event = [] ∧ pay'.curSeqNumber = pay.curSeqNumber ∧
      pay'.packetDuration = pay.packetDuration ∧ pay'.packetsBuffer = pay.packetsBuffer) ∨
    ∃ rest list, pushList cipher pay event = [list] ∧
      PushedBuf pay pay' (createRtpHeader pay ++ rest) list := by
  cases event with
  | setAesKey value =>
    obtain rfl := Option.some.inj h
    exact .inl ⟨rfl, rfl, rfl, rfl⟩
  | setAesIv value =>
    obtain rfl := Option.some.inj h
    exact .inl ⟨rfl, rfl, rfl, rfl⟩
  | generateOutput inbuf =>
    obtain ⟨⟨_, list⟩, hsplit, rfl⟩ := Option.map_eq_some_iff.mp h
    obtain ⟨rest, hpush⟩ := exists_pushedBuf hsplit
    exact .inr ⟨rest, list, by simp [pushList, hsplit], hpush⟩

/-- A call that does not return pushes nothing. -/
theorem pushList_of_stuck {pay start : GstRtpMoonlightPayAudio} {event : PayEvent}
    (h : (payloader cipher start).step pay event = none) : pushList cipher pay event = [] := by
  cases event with
  | setAesKey value => cases h
  | setAesIv value => cases h
  | generateOutput inbuf =>
    rw [pushList, Option.map_eq_none_iff.mp h]
    rfl

/-- Nothing to cover. -/
theorem fecCovers_nil : FecCovers [] := ⟨nofun, nofun, nofun, nofun, nofun⟩

/-- The element after a run tracks everything the run has pushed, and blocks of one size are
covered. -/
theorem exists_tracks_pushed : ∃ pay,
    Tracks props.packetDuration pay (pushed cipher memory props events) ∧
      ∀ size, (∀ i < (pushed cipher memory props events).length,
        (dataPacket (pushed cipher memory props events) i).length = size) →
        FecCovers (pushed cipher memory props events) := by
  refine Runs.System.outputs_induction
    (I := fun pay lists => Tracks props.packetDuration pay lists ∧
      ∀ size, (∀ i < lists.length, (dataPacket lists i).length = size) → FecCovers lists)
    (fun {pay event pay' lists} h hstep => ?_) pushList_of_stuck
    ⟨tracks_start memory props, fun _ _ => fecCovers_nil⟩
  obtain ⟨htracks, hcovers⟩ := h
  rcases step_cases hstep with ⟨hnone, hseq, hduration, hbuffer⟩ | ⟨rest, list, hlist, hpush⟩
  · rw [hnone, List.append_nil]
    exact ⟨⟨hseq ▸ htracks.count, hduration.trans htracks.packetDuration, htracks.nonempty,
      htracks.packetType, htracks.seq, htracks.time,
      fun i hi hlast => hbuffer ▸ htracks.kept i hi hlast⟩, hcovers⟩
  · rw [hlist]
    refine ⟨htracks.push hpush, fun size hsize => ?_⟩
    have hsize' : ∀ i < lists.length, (dataPacket lists i).length = size := fun i hi => by
      rw [← hsize i (by rw [List.length_append]; omega), dataPacket_append_of_lt hi]
    exact (hcovers size hsize').push htracks hpush hsize

end Runs

/-- Shard buffers that happen to be zero. -/
def PacketsBuffer.zero : PacketsBuffer where
  rows := List.replicate audioTotalShards (List.replicate audioMaxBlockSize 0)
  length_rows := by rw [List.length_replicate]
  length_row row hrow := by rw [List.eq_of_mem_replicate hrow, List.length_replicate]

/-- The properties of a session that has not asked for encryption. -/
def plainProperties : Properties where
  packetDuration := 5
  encrypt := false
  aesKey := []
  aesIv := []
  packetDuration_le := (GstRtpMoonlightPayAudio.init .zero).packetDuration_le

/-- A cipher, for elements that do not use theirs. -/
def unusedCipher : Cipher := ⟨fun msg _ _ => msg, fun msg _ _ => some msg⟩

end SteamStream.Audio
