import SteamStream.Fec.Nanors
import SteamStream.Library.BinaryFloat
import SteamStream.Video.Packet
import Mathlib.Data.List.TakeWhile

/-!
# The video payloader

`splitIntoRtp` turns one encoded frame into the list of RTP packets that is pushed downstream:
a short header is put in front of the frame (`prependVideoHeader`), the result is cut into
packets (`generateRtpPackets`), and, when FEC is on, parity packets are added to the frame as a
whole (`generateFecPackets`) or, above 90 packets, to each third of it
(`generateFecMultiBlocks`).

`none` stands for a call that does not return: a division by zero, a null pointer, or a loop
that never ends. The quotients the source computes in single precision are `binary32`; `int`
products are exact here, as none of the values they could overflow at changes the branch taken.
Buffers are values: the packets of a block share no memory with the list they were taken
from once they are mapped for writing.
-/

namespace SteamStream.Video

open Wire Layout Nanors

/-! ### The short header -/

/-- An encoded frame as the encoder hands it over. -/
structure Frame where
  data : Bytes
  /-- `GST_BUFFER_FLAG_DELTA_UNIT`: the frame is no key frame. -/
  deltaUnit : Bool

namespace ShortHeader

/-- `sizeof(VideoShortHeader)`. -/
def size : ℕ := 8

def headerType : Field := ⟨0, 1⟩
def frameType : Field := ⟨3, 1⟩
def lastPayloadLen : Field := ⟨4, 2⟩

end ShortHeader

/-- The short header of a frame; `none` is the remainder by zero. -/
def shortHeader (pay : GstRtpMoonlightPayVideo) (inbuf : Frame) : Option Bytes :=
  -- `payload_size - sizeof(..)` is computed in `size_t`
  let modulus := (((pay.payloadSize : ℤ) - nvVideoPacketSize) % 2 ^ 64).toNat
  if modulus = 0 then none
  else
    let stored := (inbuf.data.length + ShortHeader.size) % modulus % 2 ^ 16
    let packet : Bytes := List.replicate ShortHeader.size 0
    let packet := ShortHeader.headerType.setLE packet 0x01
    let packet := ShortHeader.frameType.setLE packet (if inbuf.deltaUnit then 0x01 else 0x02)
    some (ShortHeader.lastPayloadLen.setLE packet (if stored = 0 then modulus else stored))

/-- `prepend_video_header`. -/
def prependVideoHeader (pay : GstRtpMoonlightPayVideo) (inbuf : Frame) : Option Bytes :=
  (shortHeader pay inbuf).map (· ++ inbuf.data)

/-! ### Cutting into packets -/

/-- A rational rounded to single precision. -/
def binary32 (x : ℚ) : ℚ := BinaryFloat.round 24 x

/-- `std::ceil((float)in_buf_size / payload_size)`. -/
def totPackets (inBufSize : ℕ) (payloadSize : ℤ) : ℤ :=
  ⌈binary32 (binary32 inBufSize / binary32 payloadSize)⌉

/-- The body of the loop of `generate_rtp_packets`; `gst_buffer_copy_region` refuses an offset
past the end of the buffer and returns null. -/
def rtpPacket (pay : GstRtpMoonlightPayVideo) (inbuf : Bytes) (payloadSize tot packetNr : ℕ) :
    Option Packet :=
  let start := packetNr * payloadSize
  if inbuf.length < start then none
  else
    let remaining := inbuf.length - start
    let payload := (inbuf.drop start).take (min remaining payloadSize)
    let padding := if remaining < payloadSize ∧ pay.addPadding then
      List.replicate (payloadSize - remaining) 0 else []
    some ⟨createRtpHeader pay packetNr tot ++ (payload ++ padding), .data packetNr⟩

/-- The values `packet_nr` takes: it is compared as a float, and never runs past `tot`. -/
def packetNumbers (tot : ℕ) : List ℕ :=
  (List.range tot).takeWhile fun packetNr => decide (binary32 packetNr < tot)

/-- `generate_rtp_packets`. A payload size of zero makes the packet count infinite. -/
def generateRtpPackets (pay : GstRtpMoonlightPayVideo) (inbuf : Bytes) : Option (List Packet) :=
  let payloadSize : ℤ := pay.payloadSize - maxRtpHeaderSize
  if payloadSize = 0 then none
  else
    let tot := (totPackets inbuf.length payloadSize).toNat
    (packetNumbers tot).mapM (rtpPacket pay inbuf payloadSize.toNat tot)

/-! ### Forward error correction -/

/-- `struct BLOCKS`. -/
structure Blocks where
  blockSize : ℕ
  dataShards : ℕ
  parityShards : ℕ
  fecPercentage : ℕ

/-- `determine_split`; `none` is the division by zero. -/
def determineSplit (pay : GstRtpMoonlightPayVideo) (dataShards : ℕ) : Option Blocks :=
  let blockSize := pay.payloadSize + videoRtpHeadersSize - maxRtpHeaderSize
  let parityShards := (dataShards * pay.fecPercentage + 99) / 100
  -- bump the percentage up to meet the required number of parity packets
  if parityShards < pay.minRequiredFecPackets then
    let parityShards := pay.minRequiredFecPackets
    if dataShards = 0 then none
    else some
      { blockSize, dataShards, parityShards, fecPercentage := 100 * parityShards / dataShards }
  else some { blockSize, dataShards, parityShards, fecPercentage := pay.fecPercentage }

/-- `gst_buffer_list_unfold`. -/
def gstBufferListUnfold (bufferList : List Packet) : Bytes := (bufferList.map Packet.bytes).flatten

/-- `gst_buffer_list_sub`. -/
def gstBufferListSub (bufferList : List Packet) (start stop : ℕ) : List Packet :=
  (bufferList.drop start).take (stop - start)

/-- The shards the encoder is pointed at: the packets one after another, extended with zeros to
whole shards, then room for the parity. -/
def shardsOf (rtpPackets : List Packet) (blocks : Blocks) : List Bytes :=
  let rtpPayload := gstBufferListUnfold rtpPackets
  let pad := if rtpPayload.length % blocks.blockSize ≠ 0 then
    blocks.dataShards * blocks.blockSize - rtpPayload.length else 0
  let info := rtpPayload ++ List.replicate pad 0 ++
    List.replicate (blocks.parityShards * blocks.blockSize) 0
  (List.range (blocks.dataShards + blocks.parityShards)).map fun shardIdx =>
    (info.drop (shardIdx * blocks.blockSize)).take blocks.blockSize

/-- `generate_fec_packets`: the packets with their FEC members filled in, and the parity packets
after them; above 255 shards the packets are left as they are. -/
def generateFecPackets (pay : GstRtpMoonlightPayVideo) (rtpPackets : List Packet)
    (blockIndex lastBlockIndex : ℕ) : Option (List Packet) := do
  let blocks ← determineSplit pay rtpPackets.length
  let nrShards := blocks.dataShards + blocks.parityShards
  if dataShardsMax < nrShards then
    return rtpPackets
  let rs ← reedSolomonNew blocks.dataShards blocks.parityShards
  let shards := shardsOf rtpPackets blocks
  -- a failing encoder is only logged
  let encoded := (reedSolomonEncode rs shards nrShards blocks.blockSize).getD shards
  let update (shardIdx : ℕ) (bytes : Bytes) := updateFecInfo pay bytes shardIdx blocks.dataShards
    blocks.fecPercentage blockIndex lastBlockIndex
  return (rtpPackets.mapIdx fun i p => ⟨update i p.bytes, p.origin⟩) ++
    ((encoded.drop blocks.dataShards).mapIdx fun i bytes =>
      ⟨update (blocks.dataShards + i) bytes, .parity⟩)

/-- `nr_blocks`. -/
def nrBlocks : ℕ := 3

/-- `last_block_index`. -/
def lastBlockIndex : ℕ := 2 <<< 6

/-- The loop of `generate_fec_multi_blocks` over the block indices: the packets of each block,
and the element after it. -/
def fecBlocks (pay : GstRtpMoonlightPayVideo) (rtpPackets : List Packet) (packetsPerBlock : ℕ) :
    List ℕ → Option (GstRtpMoonlightPayVideo × List (List Packet))
  | [] => some (pay, [])
  | blockIdx :: blockIdxs => do
    let listStart := blockIdx * packetsPerBlock
    let listEnd := min ((blockIdx + 1) * packetsPerBlock) rtpPackets.length
    let blockPackets ← generateFecPackets pay (gstBufferListSub rtpPackets listStart listEnd)
      blockIdx lastBlockIndex
    let (pay', rest) ← fecBlocks (pay.advance blockPackets.length) rtpPackets packetsPerBlock
      blockIdxs
    return (pay', blockPackets :: rest)

/-- `(int)std::ceil((float)data_shards / nr_blocks)`. -/
def packetsPerBlock (dataShards : ℕ) : ℕ :=
  ⌈binary32 (binary32 dataShards / binary32 nrBlocks)⌉.toNat

/-- `generate_fec_multi_blocks`, block by block. -/
def generateFecMultiBlocks (pay : GstRtpMoonlightPayVideo) (rtpPackets : List Packet)
    (dataShards : ℕ) : Option (GstRtpMoonlightPayVideo × List (List Packet)) :=
  fecBlocks pay rtpPackets (packetsPerBlock dataShards) (List.range nrBlocks)

/-- The FEC branch of `split_into_rtp`: the element after it and the lists
`generate_fec_packets` returned, one for each block. -/
def applyFec (pay : GstRtpMoonlightPayVideo) (rtpPackets : List Packet) :
    Option (GstRtpMoonlightPayVideo × List (List Packet)) :=
  if 0 < pay.fecPercentage then do
    let blocks ← determineSplit pay rtpPackets.length
    if 90 < blocks.dataShards then
      generateFecMultiBlocks pay rtpPackets blocks.dataShards
    else
      (generateFecPackets pay rtpPackets 0 0).map fun rtpPackets =>
        (pay.advance rtpPackets.length, [rtpPackets])
  else some (pay, [rtpPackets])

/-- `split_into_rtp`, with the output list still divided into blocks. -/
def splitIntoBlocks (pay : GstRtpMoonlightPayVideo) (inbuf : Frame) :
    Option (GstRtpMoonlightPayVideo × List (List Packet)) := do
  let fullPayloadBuf ← prependVideoHeader pay inbuf
  let rtpPackets ← generateRtpPackets pay fullPayloadBuf
  let (pay', blocks) ← applyFec pay rtpPackets
  return ({ pay' with frameNum := pay'.frameNum + 1 }, blocks)

/-- `split_into_rtp`: the element after the frame and the packets pushed downstream. -/
def splitIntoRtp (pay : GstRtpMoonlightPayVideo) (inbuf : Frame) :
    Option (GstRtpMoonlightPayVideo × List Packet) :=
  (splitIntoBlocks pay inbuf).map fun r => (r.1, r.2.flatten)

/-- Everything pushed downstream over a run of frames. A frame whose packetisation does not
return ends the run. -/
def packetise (pay : GstRtpMoonlightPayVideo) : List Frame → List Packet
  | [] => []
  | inbuf :: inbufs =>
    match splitIntoRtp pay inbuf with
    | none => []
    | some (pay', packets) => packets ++ packetise pay' inbufs

end SteamStream.Video
