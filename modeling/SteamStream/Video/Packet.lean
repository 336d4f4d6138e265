import SteamStream.Library.Wire
import Mathlib.Data.Nat.Bitwise
import Mathlib.Data.Nat.Size

/-!
# The video RTP packet

`VideoRTPHeaders` is 32 bytes: an RTP header, four reserved bytes, and Moonlight's
`NV_VIDEO_PACKET`. Its members are the fields of `Layout`; multi-byte members are little-endian
(host order on the platforms the server runs on) except `sequenceNumber`, which is sent
big-endian.

`createRtpHeader` fills a fresh header when a frame is cut into packets, `updateFecInfo`
rewrites six of its members once the FEC block a packet belongs to is known. What a receiver
decodes from the two packed members `fecInfo` and `multiFecBlocks` is `Packet.block`,
`Packet.lastBlock`, `Packet.shard` and `Packet.dataShards`.
-/

namespace SteamStream.Video

open Wire

/-- `sizeof(VideoRTPHeaders)`. -/
def videoRtpHeadersSize : ℕ := 32

/-- `MAX_RTP_HEADER_SIZE`. -/
def maxRtpHeaderSize : ℕ := 16

/-- `sizeof(moonlight::NV_VIDEO_PACKET)`. -/
def nvVideoPacketSize : ℕ := 16

/-- `FLAG_EXTENSION`. -/
def flagExtension : ℕ := 0x10

/-- `FLAG_CONTAINS_PIC_DATA`. -/
def flagContainsPicData : ℕ := 0x1

/-- `FLAG_EOF`. -/
def flagEof : ℕ := 0x2

/-- `FLAG_SOF`. -/
def flagSof : ℕ := 0x4

/-! ### Layout -/

namespace Layout

def header : Field := ⟨0, 1⟩
def packetType : Field := ⟨1, 1⟩
def sequenceNumber : Field := ⟨2, 2⟩
def timestamp : Field := ⟨4, 4⟩
def ssrc : Field := ⟨8, 4⟩
def streamPacketIndex : Field := ⟨16, 4⟩
def frameIndex : Field := ⟨20, 4⟩
def flags : Field := ⟨24, 1⟩
def multiFecFlags : Field := ⟨26, 1⟩
def multiFecBlocks : Field := ⟨27, 1⟩
def fecInfo : Field := ⟨28, 4⟩

end Layout

open Layout

/-! ### The element -/

/-- The payloader element. The bounds are those of the `g_param_spec_int` each property is
installed with: GObject refuses a value outside them. -/
structure GstRtpMoonlightPayVideo where
  payloadSize : ℕ
  addPadding : Bool
  fecPercentage : ℕ
  minRequiredFecPackets : ℕ
  curSeqNumber : UInt32
  frameNum : UInt32
  payloadSize_le : payloadSize ≤ 10240
  fecPercentage_le : fecPercentage ≤ 100
  minRequiredFecPackets_le : minRequiredFecPackets ≤ 255

/-- `gst_rtp_moonlight_pay_video_init`. -/
def GstRtpMoonlightPayVideo.init : GstRtpMoonlightPayVideo where
  payloadSize := 1392
  addPadding := true
  fecPercentage := 20
  minRequiredFecPackets := 2
  curSeqNumber := 0
  frameNum := 0
  payloadSize_le := by decide
  fecPercentage_le := by decide
  minRequiredFecPackets_le := by decide

/-- A fresh element with its `payload_size` property set. -/
def GstRtpMoonlightPayVideo.ofPayloadSize (payloadSize : ℕ) (h : payloadSize ≤ 10240) :
    GstRtpMoonlightPayVideo :=
  { GstRtpMoonlightPayVideo.init with payloadSize := payloadSize, payloadSize_le := h }

/-- The counter moved on past `n` packets. -/
def GstRtpMoonlightPayVideo.advance (pay : GstRtpMoonlightPayVideo) (n : ℕ) :
    GstRtpMoonlightPayVideo :=
  { pay with curSeqNumber := pay.curSeqNumber + UInt32.ofNat n }

/-- Where a buffer of the output list came from: made by `generate_rtp_packets` with that
`packet_nr`, or appended by `generate_fec_packets`. Not on the wire. -/
inductive Origin where
  | data (packetNr : ℕ)
  | parity
  deriving DecidableEq, Repr

/-- A buffer of an output list. -/
structure Packet where
  bytes : Bytes
  origin : Origin
  deriving DecidableEq

namespace Packet

/-- The packet carries frame data, not parity. -/
def isData (p : Packet) : Bool :=
  match p.origin with
  | .data _ => true
  | .parity => false

/-- The RTP sequence number. -/
def seq (p : Packet) : ℕ := sequenceNumber.getBE p.bytes

/-- The payload, and the padding after it. -/
def payload (p : Packet) : Bytes := p.bytes.drop videoRtpHeadersSize

/-- The number of the frame. -/
def frameIndex (p : Packet) : ℕ := Layout.frameIndex.getLE p.bytes

/-- `(multiFecBlocks >> 4) & 3`. -/
def block (p : Packet) : ℕ := (multiFecBlocks.getLE p.bytes >>> 4) &&& 3

/-- `multiFecBlocks >> 6`. -/
def lastBlock (p : Packet) : ℕ := multiFecBlocks.getLE p.bytes >>> 6

/-- `(fecInfo >> 12) & 0x3FF`. -/
def shard (p : Packet) : ℕ := (fecInfo.getLE p.bytes >>> 12) &&& 0x3FF

/-- `fecInfo >> 22`. -/
def dataShards (p : Packet) : ℕ := fecInfo.getLE p.bytes >>> 22

/-- `(fecInfo >> 4) & 0xFF`. -/
def percentage (p : Packet) : ℕ := (fecInfo.getLE p.bytes >>> 4) &&& 0xFF

end Packet

/-! ### Writing headers -/

/-- A zeroed header filled for the packet `packetNr` of `totPackets`. -/
def createRtpHeader (pay : GstRtpMoonlightPayVideo) (packetNr totPackets : ℕ) : Bytes :=
  let sequence := (pay.curSeqNumber.toNat + packetNr) % 2 ^ 32
  let picFlags := flagContainsPicData ||| (if packetNr = 0 then flagSof else 0) |||
    (if packetNr + 1 = totPackets then flagEof else 0)
  let packet : Bytes := List.replicate videoRtpHeadersSize 0
  let packet := header.setLE packet (0x80 ||| flagExtension)
  let packet := packetType.setLE packet 0
  let packet := timestamp.setLE packet 0
  let packet := ssrc.setLE packet 0
  let packet := sequenceNumber.setBE packet sequence
  let packet := frameIndex.setLE packet pay.frameNum.toNat
  let packet := streamPacketIndex.setLE packet (sequence <<< 8)
  let packet := multiFecFlags.setLE packet 0x10
  let packet := multiFecBlocks.setLE packet 0
  let packet := fecInfo.setLE packet (packetNr <<< 12 ||| totPackets <<< 22 ||| 0 <<< 4)
  flags.setLE packet picFlags

/-- Rewrite, in place, the members that depend on the FEC block. -/
def updateFecInfo (pay : GstRtpMoonlightPayVideo) (rtpPacket : Bytes)
    (shardIdx dataShards fecPercentage blockIndex lastBlockIndex : ℕ) : Bytes :=
  let packet := frameIndex.setLE rtpPacket pay.frameNum.toNat
  let packet := fecInfo.setLE packet (shardIdx <<< 12 ||| dataShards <<< 22 ||| fecPercentage <<< 4)
  let packet := multiFecBlocks.setLE packet (blockIndex <<< 4 ||| lastBlockIndex)
  let packet := multiFecFlags.setLE packet 0x10
  let packet := header.setLE packet (0x80 ||| flagExtension)
  sequenceNumber.setBE packet ((pay.curSeqNumber.toNat + shardIdx) % 2 ^ 32)

/-! ### The packed members -/

section Packing

variable {shard data pct : ℕ}

/-- The `fecInfo` word a packet carries. -/
private def fecWord (shard data pct : ℕ) : ℕ :=
  (shard <<< 12 ||| data <<< 22 ||| pct <<< 4) % 2 ^ 32

private theorem fecWord_shift (hpct : pct < 256) :
    fecWord shard data pct >>> 12 = (shard ||| data <<< 10) % 2 ^ 20 := by
  refine Nat.eq_of_testBit_eq fun i => ?_
  have hp : pct.testBit (12 + i - 4) = false :=
    Nat.testBit_lt_two_pow (hpct.trans_le (Nat.pow_le_pow_right two_pos (by omega : 8 ≤ 12 + i - 4)))
  simp only [fecWord, Nat.testBit_shiftRight, Nat.testBit_mod_two_pow, Nat.testBit_or,
    Nat.testBit_shiftLeft, hp, Bool.and_false, Bool.or_false, Nat.add_sub_cancel_left]
  have h1 : decide (12 + i < 32) = decide (i < 20) := by simp only [decide_eq_decide]; omega
  have h2 : decide (12 ≤ 12 + i) = true := by simp
  have h3 : decide (22 ≤ 12 + i) = decide (10 ≤ i) := by simp only [decide_eq_decide]; omega
  rw [h1, h2, h3, Bool.true_and, show 12 + i - 22 = i - 10 by omega]

/-- The shard number reads back modulo its ten bits. -/
private theorem fecWord_shard (hpct : pct < 256) :
    (fecWord shard data pct >>> 12) &&& 0x3FF = shard % 1024 := by
  rw [fecWord_shift hpct, show (0x3FF : ℕ) = 2 ^ 10 - 1 from rfl, Nat.and_two_pow_sub_one_eq_mod,
    Nat.mod_mod_of_dvd _ (by decide : 2 ^ 10 ∣ 2 ^ 20), Nat.or_mod_two_pow]
  have h0 : data <<< 10 % 2 ^ 10 = 0 := by rw [Nat.shiftLeft_eq]; exact Nat.mul_mod_left _ _
  rw [h0, Nat.or_zero]

/-- The data count reads back modulo its ten bits when the shard number fits its own. -/
private theorem fecWord_data (hpct : pct < 256) (hshard : shard < 1024) :
    fecWord shard data pct >>> 22 = data % 1024 := by
  rw [show (22 : ℕ) = 12 + 10 from rfl, Nat.shiftRight_add, fecWord_shift hpct]
  have hor : shard ||| data <<< 10 = data * 1024 + shard := by
    rw [Nat.or_comm, ← Nat.shiftLeft_add_eq_or_of_lt (by simpa using hshard), Nat.shiftLeft_eq]
  rw [hor, Nat.shiftRight_eq_div_pow]
  omega

/-- The percentage reads back modulo its eight bits. -/
private theorem fecWord_pct : (fecWord shard data pct >>> 4) &&& 0xFF = pct % 256 := by
  refine Nat.eq_of_testBit_eq fun i => ?_
  rw [show (0xFF : ℕ) = 2 ^ 8 - 1 from rfl, Nat.and_two_pow_sub_one_eq_mod,
    show (256 : ℕ) = 2 ^ 8 from rfl]
  simp only [fecWord, Nat.testBit_shiftRight, Nat.testBit_mod_two_pow, Nat.testBit_or,
    Nat.testBit_shiftLeft, Nat.add_sub_cancel_left]
  by_cases hi : i < 8
  · have h12 : decide (12 ≤ 4 + i) = false := decide_eq_false (by omega)
    have h22 : decide (22 ≤ 4 + i) = false := decide_eq_false (by omega)
    have h32 : decide (4 + i < 32) = true := decide_eq_true (by omega)
    have h4 : decide (4 ≤ 4 + i) = true := decide_eq_true (by omega)
    simp only [h12, h22, h32, h4, Bool.false_and, Bool.true_and, Bool.false_or]
  · rw [decide_eq_false hi, Bool.false_and, Bool.false_and]

end Packing

/-! ### Reading a fresh header -/

section CreateRtpHeader

variable {pay : GstRtpMoonlightPayVideo} {nr tot : ℕ} {rest : Bytes} {o : Origin}

@[simp]
theorem length_createRtpHeader : (createRtpHeader pay nr tot).length = videoRtpHeadersSize := by
  simp [createRtpHeader]

/-- Every member of `Layout` lies in the header. -/
private theorem stop_le_createRtpHeader {f : Field} (h : f.stop ≤ videoRtpHeadersSize) :
    f.stop ≤ (createRtpHeader pay nr tot).length := by rwa [length_createRtpHeader]

theorem seq_createRtpHeader :
    Packet.seq ⟨createRtpHeader pay nr tot ++ rest, o⟩ =
      (pay.curSeqNumber.toNat + nr) % 65536 := by
  rw [Packet.seq, Field.getBE_append_left (stop_le_createRtpHeader (by decide)), createRtpHeader]
  simp (disch := decide) only [Field.getBE_setLE_of_disjoint]
  rw [Field.getBE_setBE_self (by simp; decide)]
  simp only [sequenceNumber]
  omega

private theorem multiFecBlocks_createRtpHeader :
    multiFecBlocks.getLE (createRtpHeader pay nr tot ++ rest) = 0 := by
  rw [Field.getLE_append_left (stop_le_createRtpHeader (by decide)), createRtpHeader]
  simp (disch := decide) only [Field.getLE_setLE_of_disjoint]
  rw [Field.getLE_setLE_self (by simp; decide)]
  simp

private theorem fecInfo_createRtpHeader :
    fecInfo.getLE (createRtpHeader pay nr tot ++ rest) = fecWord nr tot 0 := by
  rw [Field.getLE_append_left (stop_le_createRtpHeader (by decide)), createRtpHeader]
  simp (disch := decide) only [Field.getLE_setLE_of_disjoint]
  rw [Field.getLE_setLE_self (by simp; decide)]
  rfl

@[simp]
theorem block_createRtpHeader : Packet.block ⟨createRtpHeader pay nr tot ++ rest, o⟩ = 0 := by
  rw [Packet.block, multiFecBlocks_createRtpHeader]
  rfl

@[simp]
theorem lastBlock_createRtpHeader :
    Packet.lastBlock ⟨createRtpHeader pay nr tot ++ rest, o⟩ = 0 := by
  rw [Packet.lastBlock, multiFecBlocks_createRtpHeader]
  rfl

theorem shard_createRtpHeader :
    Packet.shard ⟨createRtpHeader pay nr tot ++ rest, o⟩ = nr % 1024 := by
  rw [Packet.shard, fecInfo_createRtpHeader, fecWord_shard (by decide)]

theorem dataShards_createRtpHeader (h : nr < 1024) :
    Packet.dataShards ⟨createRtpHeader pay nr tot ++ rest, o⟩ = tot % 1024 := by
  rw [Packet.dataShards, fecInfo_createRtpHeader, fecWord_data (by decide) h]

@[simp]
theorem payload_createRtpHeader :
    Packet.payload ⟨createRtpHeader pay nr tot ++ rest, o⟩ = rest := by
  rw [Packet.payload, List.drop_left' length_createRtpHeader]

/-- The flags: every data packet carries picture data, the first one SOF, the last one EOF. -/
theorem flags_createRtpHeader :
    flags.getLE (createRtpHeader pay nr tot ++ rest) = flagContainsPicData |||
      (if nr = 0 then flagSof else 0) ||| (if nr + 1 = tot then flagEof else 0) := by
  rw [Field.getLE_append_left (stop_le_createRtpHeader (by decide)), createRtpHeader,
    Field.getLE_setLE_self (by simp; decide)]
  split_ifs <;> rfl

theorem frameIndex_createRtpHeader :
    Packet.frameIndex ⟨createRtpHeader pay nr tot ++ rest, o⟩ = pay.frameNum.toNat := by
  rw [Packet.frameIndex, Field.getLE_append_left (stop_le_createRtpHeader (by decide)),
    createRtpHeader]
  simp (disch := decide) only [Field.getLE_setLE_of_disjoint]
  rw [Field.getLE_setLE_self (by simp; decide)]
  exact Nat.mod_eq_of_lt pay.frameNum.toNat_lt

end CreateRtpHeader

/-! ### Reading a rewritten header -/

section UpdateFecInfo

variable {pay : GstRtpMoonlightPayVideo} {bs : Bytes} {s d pct b l : ℕ} {o : Origin}

@[simp]
theorem length_updateFecInfo : (updateFecInfo pay bs s d pct b l).length = bs.length := by
  simp [updateFecInfo]

theorem seq_updateFecInfo (h : videoRtpHeadersSize ≤ bs.length) :
    Packet.seq ⟨updateFecInfo pay bs s d pct b l, o⟩ =
      (pay.curSeqNumber.toNat + s) % 65536 := by
  have hstop : sequenceNumber.stop ≤ videoRtpHeadersSize := by decide
  rw [Packet.seq, updateFecInfo, Field.getBE_setBE_self (by simpa using hstop.trans h)]
  simp only [sequenceNumber]
  omega

private theorem multiFecBlocks_updateFecInfo (h : videoRtpHeadersSize ≤ bs.length) :
    multiFecBlocks.getLE (updateFecInfo pay bs s d pct b l) = (b <<< 4 ||| l) % 256 := by
  have hstop : multiFecBlocks.stop ≤ videoRtpHeadersSize := by decide
  simp (disch := decide) only [updateFecInfo, Field.getLE_setLE_of_disjoint,
    Field.getLE_setBE_of_disjoint]
  rw [Field.getLE_setLE_self (by simpa using hstop.trans h)]
  rfl

private theorem fecInfo_updateFecInfo (h : videoRtpHeadersSize ≤ bs.length) :
    fecInfo.getLE (updateFecInfo pay bs s d pct b l) = fecWord s d pct := by
  have hstop : fecInfo.stop ≤ videoRtpHeadersSize := by decide
  simp (disch := decide) only [updateFecInfo, Field.getLE_setLE_of_disjoint,
    Field.getLE_setBE_of_disjoint]
  rw [Field.getLE_setLE_self (by simpa using hstop.trans h)]
  rfl

theorem block_updateFecInfo (h : videoRtpHeadersSize ≤ bs.length) :
    Packet.block ⟨updateFecInfo pay bs s d pct b l, o⟩ = (((b <<< 4 ||| l) % 256) >>> 4) &&& 3 := by
  rw [Packet.block, multiFecBlocks_updateFecInfo h]

theorem lastBlock_updateFecInfo (h : videoRtpHeadersSize ≤ bs.length) :
    Packet.lastBlock ⟨updateFecInfo pay bs s d pct b l, o⟩ = ((b <<< 4 ||| l) % 256) >>> 6 := by
  rw [Packet.lastBlock, multiFecBlocks_updateFecInfo h]

theorem shard_updateFecInfo (h : videoRtpHeadersSize ≤ bs.length) (hpct : pct < 256) :
    Packet.shard ⟨updateFecInfo pay bs s d pct b l, o⟩ = s % 1024 := by
  rw [Packet.shard, fecInfo_updateFecInfo h, fecWord_shard hpct]

theorem dataShards_updateFecInfo (h : videoRtpHeadersSize ≤ bs.length) (hpct : pct < 256)
    (hs : s < 1024) : Packet.dataShards ⟨updateFecInfo pay bs s d pct b l, o⟩ = d % 1024 := by
  rw [Packet.dataShards, fecInfo_updateFecInfo h, fecWord_data hpct hs]

theorem percentage_updateFecInfo (h : videoRtpHeadersSize ≤ bs.length) :
    Packet.percentage ⟨updateFecInfo pay bs s d pct b l, o⟩ = pct % 256 := by
  rw [Packet.percentage, fecInfo_updateFecInfo h, fecWord_pct]

theorem frameIndex_updateFecInfo (h : videoRtpHeadersSize ≤ bs.length) :
    Packet.frameIndex ⟨updateFecInfo pay bs s d pct b l, o⟩ = pay.frameNum.toNat := by
  have hstop : frameIndex.stop ≤ videoRtpHeadersSize := by decide
  rw [Packet.frameIndex]
  simp (disch := decide) only [updateFecInfo, Field.getLE_setLE_of_disjoint,
    Field.getLE_setBE_of_disjoint]
  rw [Field.getLE_setLE_self (hstop.trans h)]
  exact Nat.mod_eq_of_lt pay.frameNum.toNat_lt

@[simp]
theorem payload_updateFecInfo :
    Packet.payload ⟨updateFecInfo pay bs s d pct b l, o⟩ = Packet.payload ⟨bs, o⟩ := by
  simp only [Packet.payload, updateFecInfo, Field.setLE, Field.setBE]
  simp (disch := decide) only [Field.drop_put]

/-- The members `updateFecInfo` writes. -/
def rewritten : List Field :=
  [header, sequenceNumber, frameIndex, multiFecFlags, multiFecBlocks, fecInfo]

/-- A byte of no rewritten member survives. -/
theorem getElem?_updateFecInfo {c : ℕ} (h : ∀ f ∈ rewritten, ¬ f.Covers c) :
    (updateFecInfo pay bs s d pct b l)[c]? = bs[c]? := by
  simp only [rewritten, List.mem_cons, List.not_mem_nil, or_false, forall_eq_or_imp,
    forall_eq] at h
  obtain ⟨h1, h2, h3, h4, h5, h6⟩ := h
  simp only [updateFecInfo, Field.setLE, Field.setBE]
  simp only [Field.getElem?_put_of_outside, h1, h2, h3, h4, h5, h6, not_false_eq_true]

end UpdateFecInfo

end SteamStream.Video
