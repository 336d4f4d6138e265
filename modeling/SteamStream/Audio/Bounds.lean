import SteamStream.Audio.FecBlock

/-!
# The size of the shard buffers

`split_into_rtp` uses the shard buffers three times: a packet is copied into one of them, the parity
is computed over all of them, and what is sent of the parity is copied out of two. None of the three
looks at the size of the buffers, so `accesses` lists the bytes they use for a packet of any size;
the others are left alone (`getElem?_row_pushRtp`).

All of these bytes are there when the RTP packet is no longer than a buffer. It is longer than its
payload by a header, and by the padding when it is encrypted: `along_inBounds_iff` says which
payloads fit, and those of 1400 bytes that the Opus encoder is allowed are not among them.
-/

namespace SteamStream.Audio

open Wire

/-! ### The bytes that are used -/

/-- A byte of `packets_buffer`. -/
structure Access where
  shard : ℕ
  index : ℕ
  deriving DecidableEq, Repr

/-- The bytes `gst_buffer_copy_into` writes. -/
def copyAccesses (pay : GstRtpMoonlightPayAudio) (rtpBlockSize : ℕ) : List Access :=
  (List.range rtpBlockSize).map (⟨pay.curSeqNumber.toNat % audioDataShards, ·⟩)

/-- The bytes `moonlight::fec::encode` reads and writes: a block of every shard. -/
def encodeAccesses (rtpBlockSize : ℕ) : List Access :=
  (List.range audioTotalShards).flatMap fun shard => (List.range rtpBlockSize).map (⟨shard, ·⟩)

/-- The bytes `gst_buffer_fill` reads: of the parity shards, what is under the payload. -/
def fecPayloadAccesses (rtpBlockSize : ℕ) : List Access :=
  let payloadSize := rtpBlockSize - rtpHeaderSize
  (List.range audioFecShards).flatMap fun fecPacketIdx =>
    (List.range payloadSize).map fun i => ⟨audioDataShards + fecPacketIdx, rtpHeaderSize + i⟩

/-- The bytes `split_into_rtp` uses, for an RTP packet of that size. -/
def accesses (pay : GstRtpMoonlightPayAudio) (rtpBlockSize : ℕ) : List Access :=
  let timeToFec := (pay.curSeqNumber.toNat + 1) % audioDataShards = 0
  copyAccesses pay rtpBlockSize ++
    if timeToFec then encodeAccesses rtpBlockSize ++ fecPayloadAccesses rtpBlockSize else []

/-- A byte that is there. -/
def Access.InBounds (access : Access) : Prop :=
  access.shard < audioTotalShards ∧ access.index < audioMaxBlockSize

section Accesses

variable {pay : GstRtpMoonlightPayAudio} {rtpBlockSize : ℕ} {access : Access}

/-- Every use is of one of the shards, within the block. -/
theorem lt_of_mem_accesses (h : access ∈ accesses pay rtpBlockSize) :
    access.shard < audioTotalShards ∧ access.index < rtpBlockSize := by
  have hslot : pay.curSeqNumber.toNat % audioDataShards < audioDataShards :=
    Nat.mod_lt _ (by decide)
  rcases List.mem_append.mp h with hcopy | hfec
  · obtain ⟨i, hi, rfl⟩ := List.mem_map.mp hcopy
    exact ⟨hslot.trans (by decide), List.mem_range.mp hi⟩
  · split_ifs at hfec
    · rcases List.mem_append.mp hfec with hencode | hfill
      · obtain ⟨shard, hshard, hmem⟩ := List.mem_flatMap.mp hencode
        obtain ⟨i, hi, rfl⟩ := List.mem_map.mp hmem
        exact ⟨List.mem_range.mp hshard, List.mem_range.mp hi⟩
      · obtain ⟨fecPacketIdx, hidx, hmem⟩ := List.mem_flatMap.mp hfill
        obtain ⟨i, hi, rfl⟩ := List.mem_map.mp hmem
        have hi := List.mem_range.mp hi
        exact ⟨Nat.add_lt_add_left (List.mem_range.mp hidx) _, by dsimp only; omega⟩
    · cases hfec

/-- The last byte of the block is used. -/
theorem mem_accesses {index : ℕ} (h : index < rtpBlockSize) :
    ⟨pay.curSeqNumber.toNat % audioDataShards, index⟩ ∈ accesses pay rtpBlockSize :=
  List.mem_append_left _ (List.mem_map.mpr ⟨index, List.mem_range.mpr h, rfl⟩)

/-- All bytes that are used are there when the block is no longer than a buffer. -/
theorem forall_accesses_inBounds_iff :
    (∀ access ∈ accesses pay rtpBlockSize, access.InBounds) ↔ rtpBlockSize ≤ audioMaxBlockSize := by
  constructor
  · intro h
    by_contra hlt
    exact lt_irrefl _ (h _ (mem_accesses (not_le.mp hlt))).2
  · intro h access haccess
    obtain ⟨hshard, hindex⟩ := lt_of_mem_accesses haccess
    exact ⟨hshard, hindex.trans_le h⟩

end Accesses

/-- A push leaves the bytes alone that it does not use. -/
theorem getElem?_row_pushRtp {pay pay' : GstRtpMoonlightPayAudio} {buf : Bytes}
    {packets : List Bytes} (h : pushRtp pay buf = some (pay', packets)) {shard index : ℕ}
    (hshard : shard < audioTotalShards) (hunused : ⟨shard, index⟩ ∉ accesses pay buf.length) :
    (pay'.packetsBuffer.row shard)[index]? = (pay.packetsBuffer.row shard)[index]? := by
  unfold pushRtp at h
  split_ifs at h with hfits
  obtain ⟨rfl, -⟩ := Prod.ext_iff.mp (Option.some.inj h)
  dsimp only
  -- past the block, neither step changes a slot
  have hpast : buf.length ≤ index → ∀ row row' : Bytes,
      row.drop buf.length = row'.drop buf.length → row[index]? = row'[index]? := by
    intro hle row row' hdrop
    obtain ⟨k, rfl⟩ := Nat.exists_eq_add_of_le hle
    rw [← List.getElem?_drop, ← List.getElem?_drop, hdrop]
  split_ifs with htime
  · have hle : buf.length ≤ index := by
      by_contra hlt
      refine hunused (List.mem_append_right _ ?_)
      rw [if_pos htime]
      refine List.mem_append_left _ (List.mem_flatMap.mpr ⟨shard, List.mem_range.mpr hshard, ?_⟩)
      exact List.mem_map.mpr ⟨index, List.mem_range.mpr (not_le.mp hlt), rfl⟩
    refine hpast hle _ _ ?_
    rw [PacketsBuffer.drop_row_encode hfits hshard, PacketsBuffer.drop_row_copyInto]
  · rcases eq_or_ne (pay.curSeqNumber.toNat % audioDataShards) shard with rfl | hne
    · have hle : buf.length ≤ index := by
        by_contra hlt
        exact hunused (mem_accesses (not_le.mp hlt))
      exact hpast hle _ _ (PacketsBuffer.drop_row_copyInto hfits)
    · rw [PacketsBuffer.row_copyInto_of_ne hfits hne]

/-! ### Packets that fit -/

/-- Padding brings a message to the next multiple of 16. -/
def Cipher.Padded (cipher : Cipher) : Prop :=
  ∀ msg key iv, (cipher.aesEncryptCbc msg key iv).length = 16 * (msg.length / 16 + 1)

/-- The longest payload an RTP packet of `AUDIO_MAX_BLOCK_SIZE` bytes has room for. -/
def maxPayload (encrypt : Bool) : ℕ := if encrypt then 1375 else 1388

section Fits

variable (cipher : Cipher)

/-- What the event uses of the shard buffers is there. -/
def AccessesInBounds (pay : GstRtpMoonlightPayAudio) : PayEvent → Prop
  | .generateOutput inbuf => ∀ rtpAudioBuf ∈ createRtpAudioBuffer cipher pay inbuf,
      ∀ access ∈ accesses pay rtpAudioBuf.length, access.InBounds
  | .setAesKey _ | .setAesIv _ => True

/-- The payload fits; or it is to be encrypted, and `derive_iv` throws before there is a packet. -/
def Fits (pay : GstRtpMoonlightPayAudio) : PayEvent → Prop
  | .generateOutput inbuf => inbuf.length ≤ maxPayload pay.encrypt ∨
      pay.encrypt = true ∧ inputIv pay.aesIv = none
  | .setAesKey _ | .setAesIv _ => True

variable {cipher}

/-- The RTP packet is no longer than a buffer when its payload fits. -/
theorem forall_createRtpAudioBuffer_iff (hpadded : cipher.Padded) (pay : GstRtpMoonlightPayAudio)
    (inbuf : Bytes) :
    (∀ rtpAudioBuf ∈ createRtpAudioBuffer cipher pay inbuf,
      rtpAudioBuf.length ≤ audioMaxBlockSize) ↔
    inbuf.length ≤ maxPayload pay.encrypt ∨ pay.encrypt = true ∧ inputIv pay.aesIv = none := by
  unfold createRtpAudioBuffer deriveIv maxPayload
  cases pay.encrypt with
  | false =>
    simp only [Bool.false_eq_true, if_false, Option.mem_def, Option.some.injEq, forall_eq',
      List.length_append, length_createRtpHeader, false_and, or_false]
    dsimp only [audioMaxBlockSize, rtpHeaderSize]
    omega
  | true =>
    cases inputIv pay.aesIv with
    | none => simp
    | some iv =>
      simp only [if_true, Option.map_some, Option.mem_def, Option.some.injEq, forall_eq',
        List.length_append, length_createRtpHeader, encryptPayload, hpadded _ _ _, reduceCtorEq,
        and_false, or_false]
      dsimp only [audioMaxBlockSize, rtpHeaderSize]
      omega

theorem accessesInBounds_iff (hpadded : cipher.Padded) (pay : GstRtpMoonlightPayAudio)
    (event : PayEvent) : AccessesInBounds cipher pay event ↔ Fits pay event := by
  cases event with
  | setAesKey value => exact Iff.rfl
  | setAesIv value => exact Iff.rfl
  | generateOutput inbuf =>
    simp only [AccessesInBounds, forall_accesses_inBounds_iff]
    exact forall_createRtpAudioBuffer_iff hpadded pay inbuf

/-- **The shard buffers are large enough** in the runs whose packets all fit, and in no others. -/
theorem along_accessesInBounds_iff (hpadded : cipher.Padded) (memory : PacketsBuffer)
    (props : Properties) (events : List PayEvent) :
    (payloader cipher (.start memory props)).Along (AccessesInBounds cipher)
      (.start memory props) events ↔
    (payloader cipher (.start memory props)).Along Fits (.start memory props) events :=
  Runs.System.along_congr (accessesInBounds_iff hpadded) _ _

end Fits

/-- A cipher that pads, for elements that do not use theirs. -/
def paddingCipher : Cipher where
  aesEncryptCbc msg _ _ := msg ++ List.replicate (16 * (msg.length / 16 + 1) - msg.length) 0
  aesDecryptCbc msg _ _ := some msg

theorem paddingCipher_padded : paddingCipher.Padded := by
  intro msg key iv
  simp only [paddingCipher, List.length_append, List.length_replicate]
  omega

/-- Five packets of three bytes are copied, encoded and read within the buffers. -/
theorem along_accessesInBounds_fivePackets :
    (payloader paddingCipher (.start .zero plainProperties)).Along
      (AccessesInBounds paddingCipher) (.start .zero plainProperties)
      (List.replicate 5 (.generateOutput [0xf8, 0xff, 0xfe])) := by
  refine (along_accessesInBounds_iff paddingCipher_padded _ _ _).mpr ?_
  refine Runs.System.along_of_forall fun event hevent pay => ?_
  obtain rfl := List.eq_of_mem_replicate hevent
  exact .inl (by cases pay.encrypt <;> decide)

/-- The properties of a session in the clear with the longest packets. -/
def longPackets : Properties where
  packetDuration := 60
  encrypt := false
  aesKey := []
  aesIv := []
  packetDuration_le := le_rfl

/-- A payload as long as the Opus encoder may make it is copied over the end of its buffer. -/
theorem not_along_accessesInBounds_maxPayloadSize :
    ¬ (payloader paddingCipher (.start .zero longPackets)).Along
      (AccessesInBounds paddingCipher) (.start .zero longPackets)
      [.generateOutput (List.replicate 1400 0)] := by
  intro h
  have hbounds := h.1 (createRtpHeader (.start .zero longPackets) ++ List.replicate 1400 0) rfl
  have hle := forall_accesses_inBounds_iff.mp hbounds
  rw [List.length_append, length_createRtpHeader, List.length_replicate] at hle
  exact absurd hle (by decide)

end SteamStream.Audio
