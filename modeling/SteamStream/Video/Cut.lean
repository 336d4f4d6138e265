import SteamStream.Video.FecBlock

/-!
# The packets a frame is cut into

What `generateRtpPackets` returns, first without any bound on the frame. The loop compares a
float with the packet count, so on huge frames it may stop early; what it returned is
nevertheless a run of packets `0, 1, …`, packet `i` carrying the bytes from `i * payload` on
(`CutFrom`). Every packet but the last is full, as the next one starts where it ends.

Below `2 ^ 24` bytes the float computations are exact and the count is the ceiling of the
quotient: `generateRtpPackets_eq`.
-/

namespace SteamStream.Video

open Wire Layout

/-- The room for frame data in a packet: `payload_size - MAX_RTP_HEADER_SIZE`. -/
def GstRtpMoonlightPayVideo.room (pay : GstRtpMoonlightPayVideo) : ℕ :=
  pay.payloadSize - maxRtpHeaderSize

section Room

variable {pay : GstRtpMoonlightPayVideo} {n : ℕ}

@[simp]
theorem room_advance : (pay.advance n).room = pay.room := rfl

theorem blockSize_eq_room_add (h : 16 < pay.payloadSize) :
    blockSize pay = pay.room + videoRtpHeadersSize := by
  simp only [blockSize, GstRtpMoonlightPayVideo.room, maxRtpHeaderSize, videoRtpHeadersSize]
  omega

end Room

/-! ### One packet -/

/-- The bytes of the frame that packet `i` carries. -/
def payloadAt (pay : GstRtpMoonlightPayVideo) (inbuf : Bytes) (i : ℕ) : Bytes :=
  (inbuf.drop (i * pay.room)).take pay.room

/-- The zeros appended to the payload of packet `i`. -/
def paddingAt (pay : GstRtpMoonlightPayVideo) (inbuf : Bytes) (i : ℕ) : Bytes :=
  if pay.addPadding then List.replicate (pay.room - (payloadAt pay inbuf i).length) 0 else []

/-- Packet `i` of `tot`. -/
def packetAt (pay : GstRtpMoonlightPayVideo) (inbuf : Bytes) (tot i : ℕ) : Packet :=
  ⟨createRtpHeader pay i tot ++ (payloadAt pay inbuf i ++ paddingAt pay inbuf i), .data i⟩

section PacketAt

variable {pay : GstRtpMoonlightPayVideo} {inbuf : Bytes} {tot i : ℕ}

theorem length_payloadAt :
    (payloadAt pay inbuf i).length = min pay.room (inbuf.length - i * pay.room) := by
  rw [payloadAt, List.length_take, List.length_drop]

theorem rtpPacket_eq_some {p : Packet} : rtpPacket pay inbuf pay.room tot i = some p ↔
    i * pay.room ≤ inbuf.length ∧ packetAt pay inbuf tot i = p := by
  unfold rtpPacket
  by_cases h : inbuf.length < i * pay.room
  · rw [if_pos h]
    exact iff_of_false (by simp) fun hp => absurd hp.1 (not_le.mpr h)
  rw [if_neg h, Option.some.injEq, and_iff_right (not_lt.mp h)]
  have htake : (inbuf.drop (i * pay.room)).take (min (inbuf.length - i * pay.room) pay.room) =
      payloadAt pay inbuf i := by
    rw [payloadAt, List.take_eq_take_iff, List.length_drop]
    omega
  have hpad : (if inbuf.length - i * pay.room < pay.room ∧ pay.addPadding = true then
      List.replicate (pay.room - (inbuf.length - i * pay.room)) 0 else []) =
      paddingAt pay inbuf i := by
    rw [paddingAt, length_payloadAt]
    by_cases hadd : pay.addPadding = true
    · by_cases hlt : inbuf.length - i * pay.room < pay.room
      · rw [if_pos ⟨hlt, hadd⟩, if_pos hadd, min_eq_right hlt.le]
      · rw [if_neg (fun hc => hlt hc.1), if_pos hadd, min_eq_left (not_lt.mp hlt), Nat.sub_self]
        rfl
    · rw [if_neg (fun hc => hadd hc.2), if_neg hadd]
  simp only [htake, hpad]
  exact Iff.rfl

@[simp]
theorem origin_packetAt : (packetAt pay inbuf tot i).origin = .data i := rfl

@[simp]
theorem isData_packetAt : (packetAt pay inbuf tot i).isData = true := rfl

@[simp]
theorem payload_packetAt :
    (packetAt pay inbuf tot i).payload = payloadAt pay inbuf i ++ paddingAt pay inbuf i :=
  payload_createRtpHeader

theorem length_packetAt : (packetAt pay inbuf tot i).bytes.length =
    videoRtpHeadersSize + ((payloadAt pay inbuf i).length + (paddingAt pay inbuf i).length) := by
  simp only [packetAt, List.length_append, length_createRtpHeader]

theorem length_payloadAt_le : (payloadAt pay inbuf i).length ≤ pay.room := by
  rw [length_payloadAt]
  exact min_le_left _ _

/-- A padded packet is full. -/
theorem length_packetAt_of_addPadding (h : pay.addPadding = true) :
    (packetAt pay inbuf tot i).bytes.length = pay.room + videoRtpHeadersSize := by
  have hle : (payloadAt pay inbuf i).length ≤ pay.room := length_payloadAt_le
  rw [length_packetAt, paddingAt, if_pos h, List.length_replicate]
  omega

theorem length_packetAt_le :
    (packetAt pay inbuf tot i).bytes.length ≤ pay.room + videoRtpHeadersSize := by
  have hle : (payloadAt pay inbuf i).length ≤ pay.room := length_payloadAt_le
  by_cases h : pay.addPadding = true
  · exact (length_packetAt_of_addPadding h).le
  · rw [length_packetAt, paddingAt, if_neg h, List.length_nil]
    omega

/-- A packet that the frame goes on after is full. -/
theorem length_packetAt_of_le (h : (i + 1) * pay.room ≤ inbuf.length) :
    (packetAt pay inbuf tot i).bytes.length = pay.room + videoRtpHeadersSize := by
  have hlen : (payloadAt pay inbuf i).length = pay.room := by
    rw [length_payloadAt]
    rw [Nat.succ_mul] at h
    omega
  have hpad : (paddingAt pay inbuf i).length = 0 := by
    rw [paddingAt, hlen]
    split_ifs <;> simp
  rw [length_packetAt, hlen, hpad]
  omega

end PacketAt

/-! ### Frames of any size -/

/-- `pkts` are the packets `0, 1, …` of the frame, each announcing `tot` packets, and every one
starts inside the frame. -/
structure CutFrom (pay : GstRtpMoonlightPayVideo) (inbuf : Bytes) (tot : ℕ)
    (pkts : List Packet) : Prop where
  room_pos : pkts ≠ [] → 16 < pay.payloadSize
  packet : ∀ {i p}, pkts[i]? = some p → packetAt pay inbuf tot i = p
  start : ∀ {i p}, pkts[i]? = some p → i * pay.room ≤ inbuf.length

namespace CutFrom

variable {pay : GstRtpMoonlightPayVideo} {inbuf : Bytes} {tot i : ℕ} {pkts : List Packet}
  {p : Packet}

theorem origin (h : CutFrom pay inbuf tot pkts) (hp : pkts[i]? = some p) :
    p.origin = .data i := by rw [← h.packet hp, origin_packetAt]

theorem isData (h : CutFrom pay inbuf tot pkts) (hp : p ∈ pkts) : p.isData = true := by
  obtain ⟨i, hi⟩ := List.mem_iff_getElem?.mp hp
  rw [← h.packet hi, isData_packetAt]

theorem seq (h : CutFrom pay inbuf tot pkts) (hp : pkts[i]? = some p) :
    p.seq = (pay.curSeqNumber.toNat + i) % 65536 := by
  rw [← h.packet hp]
  exact seq_createRtpHeader

theorem header_le (h : CutFrom pay inbuf tot pkts) (hp : p ∈ pkts) :
    videoRtpHeadersSize ≤ p.bytes.length := by
  obtain ⟨i, hi⟩ := List.mem_iff_getElem?.mp hp
  rw [← h.packet hi, length_packetAt]
  omega

/-- A run of consecutive packets is what the encoder needs. -/
theorem fullShards (h : CutFrom pay inbuf tot pkts) (k m : ℕ) :
    FullShards (blockSize pay) ((pkts.drop k).take m) := by
  intro i p hp
  have hp' : pkts[k + i]? = some p := by
    rw [List.getElem?_take] at hp
    split_ifs at hp
    rwa [List.getElem?_drop] at hp
  have hlt : k + i < pkts.length := (List.getElem?_eq_some_iff.mp hp').1
  have hroom := h.room_pos (List.ne_nil_of_length_pos (by omega))
  rw [blockSize_eq_room_add hroom, ← h.packet hp']
  refine ⟨length_packetAt_le, fun hnext => length_packetAt_of_le ?_⟩
  have hlt' : k + i + 1 < pkts.length := by
    rw [List.length_take, List.length_drop] at hnext
    omega
  exact h.start (List.getElem?_eq_getElem hlt')

end CutFrom

/-- In `Option`, mapping a list succeeds exactly when every element does. -/
theorem mapM_eq_some {α β : Type*} {f : α → Option β} {xs : List α} {ys : List β} :
    xs.mapM f = some ys ↔ xs.map f = ys.map some := by
  induction xs generalizing ys with
  | nil => cases ys <;> simp
  | cons x xs ih =>
    cases ys with
    | nil => simp [Option.bind_eq_bind, Option.bind_eq_some_iff]
    | cons y ys =>
      simp only [List.mapM_cons, Option.bind_eq_bind, Option.bind_eq_some_iff, Option.pure_def,
        Option.some.injEq, List.cons.injEq, List.map_cons, ← ih]
      aesop

/-- The packet numbers are `0, 1, …`, without a gap. -/
theorem packetNumbers_eq_range (tot : ℕ) : ∃ n ≤ tot, packetNumbers tot = List.range n := by
  have hpre : packetNumbers tot <+: List.range tot := List.takeWhile_prefix _
  rw [List.prefix_iff_eq_take, List.take_range] at hpre
  exact ⟨_, min_le_right _ _, hpre⟩

/-- The quotient the packet count is the ceiling of is not positive when the room is not. -/
theorem totPackets_toNat_of_neg {size : ℕ} {room : ℤ} (h : room < 0) :
    (totPackets size room).toNat = 0 := by
  have hsize : (0 : ℚ) ≤ binary32 size := BinaryFloat.round_nonneg (by decide) (by positivity)
  have hroom : binary32 room ≤ 0 :=
    BinaryFloat.round_nonpos _ (by exact_mod_cast h.le)
  have hquot : binary32 (binary32 size / binary32 room) ≤ 0 :=
    BinaryFloat.round_nonpos _ (div_nonpos_of_nonneg_of_nonpos hsize hroom)
  rw [Int.toNat_eq_zero, totPackets]
  exact Int.ceil_le.mpr (by simpa using hquot)

/-- **Whatever `generate_rtp_packets` returns is cut from the frame.** -/
theorem cutFrom_generateRtpPackets {pay : GstRtpMoonlightPayVideo} {inbuf : Bytes}
    {pkts : List Packet} (h : generateRtpPackets pay inbuf = some pkts) :
    ∃ tot, CutFrom pay inbuf tot pkts ∧ pkts.length = (packetNumbers tot).length ∧
      tot = (totPackets inbuf.length (pay.payloadSize - maxRtpHeaderSize)).toNat := by
  unfold generateRtpPackets at h
  by_cases hzero : ((pay.payloadSize : ℤ) - maxRtpHeaderSize) = 0
  · rw [if_pos hzero] at h
    cases h
  rw [if_neg hzero] at h
  set tot := (totPackets inbuf.length (pay.payloadSize - maxRtpHeaderSize)).toNat with htot
  have hroom : ((pay.payloadSize : ℤ) - maxRtpHeaderSize).toNat = pay.room := by
    simp only [GstRtpMoonlightPayVideo.room, maxRtpHeaderSize]
    omega
  simp only [hroom] at h
  rw [mapM_eq_some] at h
  have hlen : pkts.length = (packetNumbers tot).length := by
    simpa using (congrArg List.length h).symm
  obtain ⟨n, hn, hrange⟩ := packetNumbers_eq_range tot
  have hget : ∀ {i p}, pkts[i]? = some p → rtpPacket pay inbuf pay.room tot i = some p := by
    intro i p hp
    have hi := congrArg (fun l => l[i]?) h
    have hlt : i < n := by
      have := (List.getElem?_eq_some_iff.mp hp).1
      rw [hlen, hrange, List.length_range] at this
      exact this
    simpa [hrange, List.getElem?_map, hp, List.getElem?_range hlt] using hi
  refine ⟨tot, ⟨fun hne => ?_, fun hp => (rtpPacket_eq_some.mp (hget hp)).2,
    fun hp => (rtpPacket_eq_some.mp (hget hp)).1⟩, hlen, rfl⟩
  by_contra hsmall
  have hneg : ((pay.payloadSize : ℤ) - maxRtpHeaderSize) < 0 := by
    simp only [maxRtpHeaderSize] at hzero ⊢
    omega
  have h0 : tot = 0 := by rw [htot, totPackets_toNat_of_neg hneg]
  rw [h0] at hlen
  exact hne (List.eq_nil_of_length_eq_zero (by simpa [packetNumbers] using hlen))

/-- Every packet of a protected block has room for the headers. -/
theorem header_le_of_mem_protect {pay : GstRtpMoonlightPayVideo} {pkts : List Packet}
    (hpay : 16 < pay.payloadSize) (hhdr : ∀ p ∈ pkts, videoRtpHeadersSize ≤ p.bytes.length) {p : Packet}
    (hp : p ∈ protect pay pkts) : videoRtpHeadersSize ≤ p.bytes.length := by
  rw [protect, List.mem_append] at hp
  rcases hp with hp | hp
  · exact hhdr p hp
  · obtain ⟨r, hr, rfl⟩ := List.mem_map.mp hp
    rw [length_of_mem_parityRows hr, blockSize_eq_room_add hpay]
    exact Nat.le_add_left _ _

/-! ### Frames the float computations are exact for -/

/-- The number of packets `size` bytes take: `⌈size / room⌉`. -/
def packetCount (pay : GstRtpMoonlightPayVideo) (size : ℕ) : ℕ :=
  (size + (pay.room - 1)) / pay.room

section Exact

variable {pay : GstRtpMoonlightPayVideo} {inbuf : Bytes}

theorem room_pos (h : 16 < pay.payloadSize) : 0 < pay.room := Nat.sub_pos_of_lt h

/-- The exact ceiling of a quotient of naturals. -/
theorem ceil_natCast_div {a b : ℕ} (hb : 0 < b) : ⌈(a : ℚ) / b⌉ = ((a + (b - 1)) / b : ℕ) := by
  have hbq : (0 : ℚ) < b := by exact_mod_cast hb
  have hdiv := Nat.div_add_mod (a + (b - 1)) b
  have hmod := Nat.mod_lt (a + (b - 1)) hb
  set q := (a + (b - 1)) / b with hq
  rw [Int.ceil_eq_iff, lt_div_iff₀ hbq, div_le_iff₀ hbq]
  constructor
  · have h1 : b * q < a + b := by omega
    have h2 : ((b * q : ℕ) : ℚ) < ((a + b : ℕ) : ℚ) := by exact_mod_cast h1
    push_cast at h2 ⊢
    linarith
  · have h1 : a ≤ b * q := by omega
    have h2 : (a : ℚ) ≤ ((b * q : ℕ) : ℚ) := by exact_mod_cast h1
    push_cast at h2 ⊢
    linarith

theorem binary32_natCast {n : ℕ} (h : n ≤ 2 ^ 24) : binary32 n = n :=
  BinaryFloat.round_natCast (by decide) h

theorem totPackets_eq {size : ℕ} (hpay : 16 < pay.payloadSize) (hsize : size < 2 ^ 24) :
    totPackets size (pay.payloadSize - maxRtpHeaderSize) = packetCount pay size := by
  have hroom : ((pay.payloadSize : ℤ) - maxRtpHeaderSize) = (pay.room : ℤ) := by
    simp only [GstRtpMoonlightPayVideo.room, maxRtpHeaderSize]
    omega
  have hle : pay.room ≤ 2 ^ 24 := by
    have := pay.payloadSize_le
    simp only [GstRtpMoonlightPayVideo.room]
    omega
  rw [totPackets, hroom, Int.cast_natCast, binary32_natCast hsize.le, binary32_natCast hle,
    binary32, BinaryFloat.ceil_round_div (by decide) hsize (room_pos hpay),
    ceil_natCast_div (room_pos hpay), packetCount]

theorem packetNumbers_eq {tot : ℕ} (h : tot ≤ 2 ^ 24) : packetNumbers tot = List.range tot := by
  rw [packetNumbers, List.takeWhile_eq_self_iff]
  intro i hi
  rw [List.mem_range] at hi
  rw [decide_eq_true_eq, binary32_natCast (by omega)]
  exact_mod_cast hi

/-- Packet `i` starts inside the frame. -/
theorem mul_room_lt_of_lt_packetCount {size i : ℕ} (hpay : 16 < pay.payloadSize)
    (h : i < packetCount pay size) : i * pay.room < size := by
  have hr := room_pos hpay
  rw [packetCount, Nat.lt_div_iff_mul_lt hr] at h
  omega

theorem packetCount_le {size : ℕ} (hpay : 16 < pay.payloadSize) : packetCount pay size ≤ size := by
  have hr := room_pos hpay
  rw [packetCount, Nat.div_le_iff_le_mul_add_pred hr]
  have := Nat.le_mul_of_pos_left size hr
  omega

/-- **Below `2 ^ 24` bytes the frame is cut into exactly `packetCount` packets.** -/
theorem generateRtpPackets_eq (hpay : 16 < pay.payloadSize) (hsize : inbuf.length < 2 ^ 24) :
    generateRtpPackets pay inbuf = some ((List.range (packetCount pay inbuf.length)).map
      (packetAt pay inbuf (packetCount pay inbuf.length))) := by
  have hroom : ((pay.payloadSize : ℤ) - maxRtpHeaderSize).toNat = pay.room := by
    simp only [GstRtpMoonlightPayVideo.room, maxRtpHeaderSize]
    omega
  have hne : ¬ ((pay.payloadSize : ℤ) - maxRtpHeaderSize) = 0 := by
    simp only [maxRtpHeaderSize]
    omega
  have hcount : packetCount pay inbuf.length ≤ inbuf.length := packetCount_le hpay
  unfold generateRtpPackets
  rw [if_neg hne]
  simp only [totPackets_eq hpay hsize, Int.toNat_natCast, hroom]
  rw [packetNumbers_eq (by omega), mapM_eq_some, List.map_map]
  refine List.map_congr_left fun i hi => ?_
  rw [List.mem_range] at hi
  exact rtpPacket_eq_some.mpr ⟨(mul_room_lt_of_lt_packetCount hpay hi).le, rfl⟩

end Exact

/-! ### The short header -/

section Header

variable {pay : GstRtpMoonlightPayVideo}

/-- The length of the last payload of a buffer of `size` bytes. -/
def lastLength (pay : GstRtpMoonlightPayVideo) (size : ℕ) : ℕ :=
  if size % pay.room = 0 then pay.room else size % pay.room

/-- The short header exists, and announces the length of the last payload. -/
theorem shortHeader_eq_some (hpay : 16 < pay.payloadSize) (inbuf : Frame) :
    ∃ sh, shortHeader pay inbuf = some sh ∧ sh.length = ShortHeader.size ∧
      ShortHeader.lastPayloadLen.getLE sh =
        lastLength pay (inbuf.data.length + ShortHeader.size) := by
  have hmax := pay.payloadSize_le
  have hmod : (((pay.payloadSize : ℤ) - nvVideoPacketSize) % 2 ^ 64).toNat = pay.room := by
    simp only [nvVideoPacketSize, GstRtpMoonlightPayVideo.room, maxRtpHeaderSize]
    omega
  have hroom := room_pos hpay
  have hsmall : pay.room < 2 ^ 16 := by
    simp only [GstRtpMoonlightPayVideo.room]
    omega
  unfold shortHeader
  simp only [hmod, if_neg hroom.ne']
  refine ⟨_, rfl, by simp, ?_⟩
  rw [Field.getLE_setLE_self (by simp; decide)]
  have hlt := Nat.mod_lt (inbuf.data.length + ShortHeader.size) hroom
  rw [Nat.mod_eq_of_lt (by omega : _ % pay.room < 2 ^ 16), lastLength]
  exact Nat.mod_eq_of_lt (by simp only [ShortHeader.lastPayloadLen]; split_ifs <;> omega)

/-- The buffer that is cut: the short header and the frame. -/
theorem prependVideoHeader_eq_some (hpay : 16 < pay.payloadSize) (inbuf : Frame) :
    ∃ sh, shortHeader pay inbuf = some sh ∧
      prependVideoHeader pay inbuf = some (sh ++ inbuf.data) ∧ sh.length = ShortHeader.size ∧
      ShortHeader.lastPayloadLen.getLE sh =
        lastLength pay (inbuf.data.length + ShortHeader.size) := by
  obtain ⟨sh, hsh, hlen, hlast⟩ := shortHeader_eq_some hpay inbuf
  exact ⟨sh, hsh, by rw [prependVideoHeader, hsh, Option.map_some], hlen, hlast⟩

end Header

end SteamStream.Video
