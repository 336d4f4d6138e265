import SteamStream.Crypto.Hex
import SteamStream.Fec.Nanors
import SteamStream.Library.Runs

/-!
# The audio payloader

`splitIntoRtp` turns one Opus packet into one RTP packet. The packet is kept in a ring of four
shard buffers, and every fourth time two parity packets are computed from the ring and pushed
with it: the Reed–Solomon step runs over the whole RTP packets, and what is sent of its result
is the part under their payloads.

`none` stands for a call that does not return: `std::stoul` throws on the `aes_iv`, or the RTP
packet is longer than a shard buffer and the copy runs over its end. The bytes of a shard buffer
are not initialised, so `PacketsBuffer` says nothing about them. AES is OpenSSL's and stays a
parameter.
-/

namespace SteamStream.Audio

open Wire CText Crypto Nanors

/-- `AUDIO_DATA_SHARDS`. -/
def audioDataShards : ℕ := 4

/-- `AUDIO_FEC_SHARDS`. -/
def audioFecShards : ℕ := 2

/-- `AUDIO_TOTAL_SHARDS`. -/
def audioTotalShards : ℕ := audioDataShards + audioFecShards

/-- `AUDIO_MAX_BLOCK_SIZE`. -/
def audioMaxBlockSize : ℕ := 1400

/-- `AUDIO_FEC_PARITY`, by rows. -/
def audioFecParity : List (List UInt8) := [[0x77, 0x40, 0x38, 0x0e], [0xc7, 0xa7, 0x0d, 0x6c]]

/-- `RTP_HEADER_SIZE`. -/
def rtpHeaderSize : ℕ := 12

/-- `FEC_HEADER_SIZE`. -/
def fecHeaderSize : ℕ := 24

/-! ### Layout -/

namespace Layout

def header : Field := ⟨0, 1⟩
def packetType : Field := ⟨1, 1⟩
def sequenceNumber : Field := ⟨2, 2⟩
def timestamp : Field := ⟨4, 4⟩
def ssrc : Field := ⟨8, 4⟩
def fecShardIndex : Field := ⟨12, 1⟩
def payloadType : Field := ⟨13, 1⟩
def baseSequenceNumber : Field := ⟨14, 2⟩
def baseTimestamp : Field := ⟨16, 4⟩
def fecSsrc : Field := ⟨20, 4⟩

end Layout

open Layout

/-! ### The element -/

/-- `packets_buffer`: a buffer of `AUDIO_MAX_BLOCK_SIZE` bytes for every shard. -/
structure PacketsBuffer where
  rows : List Bytes
  length_rows : rows.length = audioTotalShards
  length_row : ∀ row ∈ rows, row.length = audioMaxBlockSize

/-- The payloader element. The bounds of `packet_duration` are those of its `g_param_spec_int`:
GObject refuses a value outside them. -/
structure GstRtpMoonlightPayAudio where
  curSeqNumber : UInt16
  encrypt : Bool
  aesKey : Bytes
  aesIv : Bytes
  packetDuration : ℕ
  packetsBuffer : PacketsBuffer
  packetDuration_le : packetDuration ≤ 60

/-- The `reed_solomon` of every element: made for the shard counts, its parity matrix then
overwritten. -/
def rs : ReedSolomon where
  ds := audioDataShards
  ps := audioFecShards
  p := audioFecParity

/-- A new element, in whatever memory it was given. -/
def GstRtpMoonlightPayAudio.init (memory : PacketsBuffer) : GstRtpMoonlightPayAudio where
  curSeqNumber := 0
  encrypt := true
  aesKey := []
  aesIv := []
  packetDuration := 5
  packetsBuffer := memory
  packetDuration_le := by decide

/-- `gst_rtp_moonlight_pay_audio_set_property`, for `aes_key`. -/
def GstRtpMoonlightPayAudio.setAesKey (pay : GstRtpMoonlightPayAudio) (value : Bytes) :
    GstRtpMoonlightPayAudio := { pay with aesKey := hexToStr value true }

/-- `gst_rtp_moonlight_pay_audio_set_property`, for `aes_iv`. -/
def GstRtpMoonlightPayAudio.setAesIv (pay : GstRtpMoonlightPayAudio) (value : Bytes) :
    GstRtpMoonlightPayAudio := { pay with aesIv := value }

/-- The properties `build_audio_pipeline` starts an element with. -/
structure Properties where
  packetDuration : ℕ
  encrypt : Bool
  aesKey : Bytes
  aesIv : Bytes
  packetDuration_le : packetDuration ≤ 60

/-- The element of a pipeline that has just been built. -/
def GstRtpMoonlightPayAudio.start (memory : PacketsBuffer) (props : Properties) :
    GstRtpMoonlightPayAudio :=
  (({ GstRtpMoonlightPayAudio.init memory with
        packetDuration := props.packetDuration
        encrypt := props.encrypt
        packetDuration_le := props.packetDuration_le }).setAesKey props.aesKey).setAesIv props.aesIv

/-! ### Headers -/

/-- `create_rtp_header`. -/
def createRtpHeader (pay : GstRtpMoonlightPayAudio) : Bytes :=
  let packet : Bytes := List.replicate rtpHeaderSize 0
  let packet := header.setLE packet 0x80
  let packet := packetType.setLE packet 97
  let packet := ssrc.setLE packet 0
  let packet := sequenceNumber.setBE packet pay.curSeqNumber.toNat
  timestamp.setBE packet (pay.curSeqNumber.toNat * pay.packetDuration)

/-- `create_rtp_fec_header`. The differences are taken in `int`. -/
def createRtpFecHeader (pay : GstRtpMoonlightPayAudio) (fecPacketIdx : ℕ) : Bytes :=
  let baseSeqNum : ℤ := pay.curSeqNumber.toNat - (audioDataShards - 1)
  let baseTime : ℤ := baseSeqNum * pay.packetDuration
  let packet : Bytes := List.replicate fecHeaderSize 0
  let packet := header.setLE packet 0x80
  let packet := packetType.setLE packet 127
  let packet := ssrc.setLE packet 0
  let packet := timestamp.setLE packet 0
  let packet := payloadType.setLE packet 97
  let packet := fecSsrc.setLE packet 0
  let packet := baseSequenceNumber.setBE packet (baseSeqNum % 2 ^ 16).toNat
  let packet := baseTimestamp.setBE packet (baseTime % 2 ^ 32).toNat
  let packet := sequenceNumber.setBE packet (pay.curSeqNumber.toNat + fecPacketIdx)
  fecShardIndex.setLE packet fecPacketIdx

/-! ### Encryption -/

/-- AES-128 in CBC mode with padding. -/
structure Cipher where
  /-- `aes_encrypt_cbc`: message, key, IV. -/
  aesEncryptCbc : Bytes → Bytes → Bytes → Bytes
  /-- `aes_decrypt_cbc`: ciphertext, key, IV; `none` when the padding is wrong. -/
  aesDecryptCbc : Bytes → Bytes → Bytes → Option Bytes

/-- The number `derive_iv` starts from. -/
def inputIv (aesIv : Bytes) : Option UInt32 := (stoul aesIv).map UInt32.ofNat

/-- `derive_iv`: the sum is taken in 32 bits. -/
def deriveIv (aesIv : Bytes) (curSeqNumber : ℕ) : Option Bytes :=
  (inputIv aesIv).map fun inputIv =>
    beBytes 4 (inputIv + UInt32.ofNat curSeqNumber).toNat ++ List.replicate 12 0

section Split

variable (cipher : Cipher)

/-- `encrypt_payload`. -/
def encryptPayload (aesKey aesIv inbuf : Bytes) : Bytes := cipher.aesEncryptCbc inbuf aesKey aesIv

/-- `create_rtp_audio_buffer`. -/
def createRtpAudioBuffer (pay : GstRtpMoonlightPayAudio) (inbuf : Bytes) : Option Bytes :=
  if pay.encrypt then
    (deriveIv pay.aesIv pay.curSeqNumber.toNat).map fun derivedIv =>
      createRtpHeader pay ++ encryptPayload cipher pay.aesKey derivedIv inbuf
  else some (createRtpHeader pay ++ inbuf)

/-! ### Splitting -/

/-- `gst_buffer_copy_into`, into one of the shard buffers. -/
def PacketsBuffer.copyInto (memory : PacketsBuffer) (shard : ℕ) (buf : Bytes)
    (h : buf.length ≤ audioMaxBlockSize) : PacketsBuffer where
  rows := memory.rows.modify shard fun row => buf ++ row.drop buf.length
  length_rows := by rw [List.length_modify, memory.length_rows]
  length_row row hrow := by
    obtain ⟨i, hi⟩ := List.mem_iff_getElem?.mp hrow
    rw [List.getElem?_modify] at hi
    obtain ⟨old, hold, rfl⟩ := Option.map_eq_some_iff.mp hi
    have hlen := memory.length_row old (List.mem_of_getElem? hold)
    split_ifs
    · rw [List.length_append, List.length_drop, hlen]
      omega
    · exact hlen

/-- The shards `moonlight::fec::encode` leaves, of which it is given the first `blockSize` bytes.
An error is only logged. -/
def encodedShards (rows : List Bytes) (blockSize : ℕ) : List Bytes :=
  let shards := rows.map (·.take blockSize)
  (reedSolomonEncode rs shards audioTotalShards blockSize).getD shards

/-- The encoder has as many shards as it asks for, so it does not fail. -/
theorem encodedShards_eq {rows : List Bytes} (hrows : rows.length = audioTotalShards)
    (blockSize : ℕ) : encodedShards rows blockSize =
      (rows.take audioDataShards).map (·.take blockSize) ++
        gemm audioFecParity ((rows.take audioDataShards).map (·.take blockSize)) blockSize := by
  have hdrop : (rows.map (·.take blockSize)).drop rs.ts = [] :=
    List.drop_eq_nil_of_le (by rw [List.length_map, hrows]; exact le_rfl)
  have hok : ¬ audioTotalShards < rs.ts := lt_irrefl audioTotalShards
  simp only [encodedShards, reedSolomonEncode, if_neg hok, Option.getD_some, hdrop,
    List.append_nil, ← List.map_take]
  rfl

theorem length_encodedShards {rows : List Bytes} (hrows : rows.length = audioTotalShards)
    (blockSize : ℕ) : (encodedShards rows blockSize).length = audioTotalShards := by
  rw [encodedShards_eq hrows, List.length_append, List.length_map, List.length_take, length_gemm,
    hrows]
  rfl

/-- Every shard is a block. -/
theorem length_of_mem_encodedShards {rows : List Bytes} {blockSize : ℕ}
    (hrows : rows.length = audioTotalShards) (hrow : ∀ row ∈ rows, blockSize ≤ row.length)
    {shard : Bytes} (hshard : shard ∈ encodedShards rows blockSize) :
    shard.length = blockSize := by
  rw [encodedShards_eq hrows] at hshard
  rcases List.mem_append.mp hshard with hdata | hparity
  · obtain ⟨row, hmem, rfl⟩ := List.mem_map.mp hdata
    rw [List.length_take, Nat.min_eq_left (hrow row (List.mem_of_mem_take hmem))]
  · exact length_of_mem_gemm hparity

/-- The shard buffers after `moonlight::fec::encode`: bytes past the block are not touched. -/
def PacketsBuffer.encode (memory : PacketsBuffer) (blockSize : ℕ)
    (h : blockSize ≤ audioMaxBlockSize) : PacketsBuffer where
  rows := List.zipWith (fun shard row => shard ++ row.drop blockSize)
    (encodedShards memory.rows blockSize) memory.rows
  length_rows := by
    rw [List.length_zipWith, length_encodedShards memory.length_rows, memory.length_rows,
      Nat.min_self]
  length_row row hrow := by
    obtain ⟨i, hi⟩ := List.mem_iff_getElem?.mp hrow
    obtain ⟨shard, old, hshard, hold, rfl⟩ := List.getElem?_zipWith_eq_some.mp hi
    have hblock : ∀ row ∈ memory.rows, blockSize ≤ row.length := fun row hrow =>
      (memory.length_row row hrow).symm ▸ h
    rw [List.length_append, List.length_drop,
      length_of_mem_encodedShards memory.length_rows hblock (List.mem_of_getElem? hshard),
      memory.length_row old (List.mem_of_getElem? hold)]
    omega

/-- The parity packets made from the shard buffers: of each parity shard, what is under the
payload. -/
def fecPackets (pay : GstRtpMoonlightPayAudio) (memory : PacketsBuffer) (rtpBlockSize : ℕ) :
    List Bytes :=
  let payloadSize := rtpBlockSize - rtpHeaderSize
  (List.range audioFecShards).map fun fecPacketIdx =>
    let shard := memory.rows.getD (audioDataShards + fecPacketIdx) []
    createRtpFecHeader pay fecPacketIdx ++ (shard.drop rtpHeaderSize).take payloadSize

/-- `split_into_rtp`, once the RTP packet has been made: the element after it, and the packets
that are pushed together. -/
def pushRtp (pay : GstRtpMoonlightPayAudio) (rtpAudioBuf : Bytes) :
    Option (GstRtpMoonlightPayAudio × List Bytes) :=
  if h : rtpAudioBuf.length ≤ audioMaxBlockSize then
    let timeToFec := (pay.curSeqNumber.toNat + 1) % audioDataShards = 0
    let memory := pay.packetsBuffer.copyInto (pay.curSeqNumber.toNat % audioDataShards)
      rtpAudioBuf h
    let memory' := if timeToFec then memory.encode rtpAudioBuf.length h else memory
    let fec := if timeToFec then fecPackets pay memory' rtpAudioBuf.length else []
    some ({ pay with packetsBuffer := memory', curSeqNumber := pay.curSeqNumber + 1 },
      rtpAudioBuf :: fec)
  else none

/-- `split_into_rtp`. -/
def splitIntoRtp (pay : GstRtpMoonlightPayAudio) (inbuf : Bytes) :
    Option (GstRtpMoonlightPayAudio × List Bytes) :=
  (createRtpAudioBuffer cipher pay inbuf).bind (pushRtp pay)

/-! ### Runs -/

/-- What happens to the element of a running pipeline: a packet arrives, or `retarget` sets one
of the two properties it sets. -/
inductive PayEvent
  | generateOutput (inbuf : Bytes)
  | setAesKey (value : Bytes)
  | setAesIv (value : Bytes)
  deriving DecidableEq, Repr

/-- The element as a system. -/
def payloader (start : GstRtpMoonlightPayAudio) : Runs.System GstRtpMoonlightPayAudio PayEvent where
  init := start
  step pay
    | .generateOutput inbuf => (splitIntoRtp cipher pay inbuf).map Prod.fst
    | .setAesKey value => some (pay.setAesKey value)
    | .setAesIv value => some (pay.setAesIv value)

/-- What an event pushes downstream: one list for every packet that arrives. -/
def pushList (pay : GstRtpMoonlightPayAudio) : PayEvent → List (List Bytes)
  | .generateOutput inbuf => ((splitIntoRtp cipher pay inbuf).map Prod.snd).toList
  | .setAesKey _ | .setAesIv _ => []

/-- The lists a run of a new element pushes. A call that does not return ends the run. -/
def pushed (memory : PacketsBuffer) (props : Properties) (events : List PayEvent) :
    List (List Bytes) :=
  let start := GstRtpMoonlightPayAudio.start memory props
  (payloader cipher start).outputs (pushList cipher) start events

end Split

end SteamStream.Audio
