import SteamStream.Rtsp.Commands
import SteamStream.Video.Lossless

/-!
# Packet sizes the payloader cannot serve

`payload_size` is whatever a client asks for between 0 and 10240, and sixteen bytes are taken off it
three times. At sixteen the short header divides by zero. Below sixteen the room is negative, no
packet is made, and the FEC of no packets divides by zero or runs into a null pointer. Above sixteen
the payloader goes through every frame, as long as the packet count it computes in single precision
does not lead its loop past the end of the buffer (`StaysInside`, which holds below `2 ^ 24` bytes).
-/

namespace SteamStream.Video

open Wire Layout Nanors

/-! ### The packet loop -/

/-- Every packet number the loop reaches starts inside a buffer of that size. -/
def StaysInside (pay : GstRtpMoonlightPayVideo) (size : ℕ) : Prop :=
  ∀ packetNr : ℕ, (packetNr : ℤ) < totPackets size (pay.payloadSize - maxRtpHeaderSize) →
    binary32 packetNr < totPackets size (pay.payloadSize - maxRtpHeaderSize) →
      packetNr * pay.room ≤ size

theorem mem_packetNumbers {tot packetNr : ℕ} :
    packetNr ∈ packetNumbers tot ↔ packetNr < tot ∧ binary32 packetNr < tot := by
  constructor
  · intro h
    rw [packetNumbers] at h
    have hpasses : decide (binary32 packetNr < tot) = true :=
      List.mem_takeWhile_imp (p := fun j : ℕ => decide (binary32 j < tot)) h
    exact ⟨List.mem_range.mp ((List.takeWhile_prefix _).subset h), of_decide_eq_true hpasses⟩
  · rintro ⟨hlt, hfloat⟩
    have hsplit : List.range tot =
        List.range (packetNr + 1) ++ (List.range tot).drop (packetNr + 1) := by
      conv_lhs => rw [← List.take_append_drop (packetNr + 1) (List.range tot)]
      rw [List.take_range, min_eq_left hlt]
    -- rounding is monotone, so the numbers before this one pass the test too
    have hpass : ∀ j ∈ List.range (packetNr + 1), decide (binary32 j < tot) = true := by
      intro j hj
      have hle : (j : ℚ) ≤ packetNr := by exact_mod_cast Nat.lt_succ_iff.mp (List.mem_range.mp hj)
      exact decide_eq_true ((BinaryFloat.round_mono (by decide) (by positivity) hle).trans_lt hfloat)
    rw [packetNumbers, hsplit, List.takeWhile_append_of_pos hpass]
    exact List.mem_append_left _ (List.mem_range.mpr (Nat.lt_succ_self _))

section Loop

variable {pay : GstRtpMoonlightPayVideo} {bs : Bytes}

/-- The count of a nonempty buffer is positive. -/
theorem totPackets_pos (hpay : 16 < pay.payloadSize) (hbs : 0 < bs.length) :
    0 < totPackets bs.length (pay.payloadSize - maxRtpHeaderSize) := by
  have hroom : (0 : ℚ) < ((pay.payloadSize - maxRtpHeaderSize : ℤ) : ℚ) := by
    have : (0 : ℤ) < pay.payloadSize - maxRtpHeaderSize := by
      simp only [maxRtpHeaderSize]
      omega
    exact_mod_cast this
  exact Int.ceil_pos.mpr (BinaryFloat.round_pos (by decide) (div_pos
    (BinaryFloat.round_pos (by decide) (by exact_mod_cast hbs))
    (BinaryFloat.round_pos (by decide) hroom)))

/-- **`generate_rtp_packets` returns exactly if its loop stays inside the buffer.** -/
theorem exists_generateRtpPackets_iff (hpay : 16 < pay.payloadSize) :
    (∃ pkts, generateRtpPackets pay bs = some pkts) ↔ StaysInside pay bs.length := by
  have hne : ¬ ((pay.payloadSize : ℤ) - maxRtpHeaderSize) = 0 := by
    simp only [maxRtpHeaderSize]
    omega
  have hroom : ((pay.payloadSize : ℤ) - maxRtpHeaderSize).toNat = pay.room := by
    simp only [GstRtpMoonlightPayVideo.room, maxRtpHeaderSize]
    omega
  unfold generateRtpPackets StaysInside
  rw [if_neg hne]
  simp only [hroom]
  set tot := totPackets bs.length (pay.payloadSize - maxRtpHeaderSize) with htot
  have hreached : ∀ packetNr : ℕ, packetNr ∈ packetNumbers tot.toNat ↔
      (packetNr : ℤ) < tot ∧ binary32 packetNr < tot := by
    intro packetNr
    rw [mem_packetNumbers, Int.lt_toNat]
    refine and_congr_right fun hlt => ?_
    rw [show ((tot.toNat : ℕ) : ℚ) = (tot : ℚ) by exact_mod_cast Int.toNat_of_nonneg (by omega)]
  constructor
  · rintro ⟨pkts, hpkts⟩ packetNr hlt hfloat
    rw [mapM_eq_some] at hpkts
    have hmem := List.mem_map_of_mem (f := rtpPacket pay bs pay.room tot.toNat)
      ((hreached packetNr).mpr ⟨hlt, hfloat⟩)
    rw [hpkts, List.mem_map] at hmem
    obtain ⟨p, -, hp⟩ := hmem
    exact (rtpPacket_eq_some.mp hp.symm).1
  · intro h
    refine ⟨(packetNumbers tot.toNat).map (packetAt pay bs tot.toNat), ?_⟩
    rw [mapM_eq_some, List.map_map]
    refine List.map_congr_left fun packetNr hmem => ?_
    obtain ⟨hlt, hfloat⟩ := (hreached packetNr).mp hmem
    exact rtpPacket_eq_some.mpr ⟨h packetNr hlt hfloat, rfl⟩

/-- A nonempty buffer is cut into packets. -/
theorem generateRtpPackets_ne_nil (hpay : 16 < pay.payloadSize) (hbs : 0 < bs.length)
    {pkts : List Packet} (h : generateRtpPackets pay bs = some pkts) : pkts ≠ [] := by
  obtain ⟨-, -, hlen, rfl⟩ := cutFrom_generateRtpPackets h
  have hpos := totPackets_pos hpay hbs
  set tot := totPackets bs.length (pay.payloadSize - maxRtpHeaderSize)
  have hfirst : 0 ∈ packetNumbers tot.toNat := by
    have hnat : 0 < tot.toNat := by omega
    refine mem_packetNumbers.mpr ⟨hnat, ?_⟩
    rw [binary32, Nat.cast_zero, BinaryFloat.round_zero]
    exact_mod_cast hnat
  exact List.ne_nil_of_length_pos (hlen ▸ List.length_pos_of_mem hfirst)

/-- Below `2 ^ 24` bytes the loop stays inside. -/
theorem staysInside_of_lt (hpay : 16 < pay.payloadSize) {size : ℕ} (hsize : size < 2 ^ 24) :
    StaysInside pay size := by
  have hlen : (List.replicate size (0 : UInt8)).length = size := List.length_replicate
  rw [← hlen] at hsize ⊢
  exact (exists_generateRtpPackets_iff hpay).mp ⟨_, generateRtpPackets_eq hpay hsize⟩

end Loop

/-! ### The FEC branch -/

theorem packetsPerBlock_pos {n : ℕ} (h : 0 < n) : 0 < packetsPerBlock n := by
  have hn : (0 : ℚ) < n := by exact_mod_cast h
  rw [packetsPerBlock, Int.lt_toNat]
  exact Int.ceil_pos.mpr (BinaryFloat.round_pos (by decide) (div_pos
    (BinaryFloat.round_pos (by decide) hn)
    (BinaryFloat.round_pos (by decide) (by norm_num [nrBlocks]))))

/-- Two thirds of more than 90 packets, each third rounded up, leave some for the last block. -/
theorem two_mul_packetsPerBlock_lt {n : ℕ} (h : 90 < n) : 2 * packetsPerBlock n < n := by
  have hn : (90 : ℚ) < n := by exact_mod_cast h
  have hthree : binary32 nrBlocks = 3 := binary32_natCast (n := 3) (by decide)
  set x := binary32 n with hx
  have hxpos : 0 < x := BinaryFloat.round_pos (by decide) (by linarith)
  have hxle : x ≤ n + n / 2 ^ 24 := BinaryFloat.round_le (by linarith)
  have hquot : binary32 (x / 3) ≤ x / 3 + x / 3 / 2 ^ 24 := BinaryFloat.round_le (by positivity)
  have hquotPos : 0 < binary32 (x / 3) := BinaryFloat.round_pos (by decide) (by positivity)
  have hceil : (⌈binary32 (x / 3)⌉ : ℚ) < binary32 (x / 3) + 1 := Int.ceil_lt_add_one _
  have hnat : ((packetsPerBlock n : ℕ) : ℚ) = (⌈binary32 (x / 3)⌉ : ℚ) := by
    rw [packetsPerBlock, hthree]
    exact_mod_cast Int.toNat_of_nonneg (Int.ceil_pos.mpr hquotPos).le
  have hlt : (2 : ℚ) * packetsPerBlock n < n := by
    rw [hnat]
    linarith
  exact_mod_cast hlt

section Fec

variable {pay pay' : GstRtpMoonlightPayVideo} {pkts : List Packet}

/-- Above 90 packets each of the three blocks has one. -/
theorem blockLength_packetsPerBlock_pos {n k : ℕ} (h : 90 < n) (hk : k < nrBlocks) :
    0 < blockLength (packetsPerBlock n) n k := by
  have hpos := packetsPerBlock_pos (n := n) (by omega)
  have hlt := two_mul_packetsPerBlock_lt h
  have hle : k * packetsPerBlock n ≤ 2 * packetsPerBlock n :=
    Nat.mul_le_mul_right _ (Nat.lt_succ_iff.mp hk)
  simp only [blockLength, Nat.succ_mul]
  omega

/-- FEC returns on every list of packets but the empty one. -/
theorem exists_applyFec (hne : pkts ≠ []) : ∃ pay' blocks, applyFec pay pkts = some (pay', blocks) := by
  have hpos := List.length_pos_of_ne_nil hne
  by_cases hpct : 0 < pay.fecPercentage
  · rw [applyFec, if_pos hpct, determineSplit_eq hpos, Option.bind_eq_bind, Option.bind_some]
    by_cases h90 : 90 < pkts.length
    · have hblocks : ∀ k ∈ List.range nrBlocks,
          0 < blockLength (packetsPerBlock pkts.length) pkts.length k := fun k hk =>
        blockLength_packetsPerBlock_pos h90 (List.mem_range.mp hk)
      obtain ⟨out, hout⟩ := fecBlocks_eq_some hpct hblocks
      exact ⟨_, out, by rw [if_pos h90, generateFecMultiBlocks, hout]⟩
    · have hblk := (generateFecPackets_eq_some (b := 0) (l := 0) hpct).mpr ⟨hpos, rfl⟩
      exact ⟨_, _, by rw [if_neg h90, hblk, Option.map_some]⟩
  · exact ⟨pay, [pkts], if_neg hpct⟩

/-- FEC does not return on no packets. -/
theorem applyFec_nil (hpct : 0 < pay.fecPercentage) : applyFec pay [] = none := by
  rw [applyFec, if_pos hpct, Option.bind_eq_bind]
  cases hsplit : determineSplit pay ([] : List Packet).length with
  | none => rfl
  | some split =>
    have hshards := dataShards_of_determineSplit hsplit
    rw [Option.bind_some, hshards, if_neg (by decide), generateFecPackets_nil, Option.map_none]

/-- The packets that leave the FEC branch: those of the three blocks, which may end before the last
packet when the third is rounded down. -/
def sentPackets (pay : GstRtpMoonlightPayVideo) (pkts : List Packet) : List Packet :=
  if 0 < pay.fecPercentage ∧ 90 < pkts.length then
    pkts.take (nrBlocks * packetsPerBlock pkts.length)
  else pkts

theorem sentPackets_isPrefix : sentPackets pay pkts <+: pkts := by
  rw [sentPackets]
  split_ifs
  · exact List.take_prefix ..
  · exact List.prefix_rfl

/-- **The data packets of the FEC branch are packets cut from the frame**, in order from the first. -/
theorem sameContent_applyFec (hdata : ∀ p ∈ pkts, p.isData = true) {blocks : List (List Packet)}
    (h : applyFec pay pkts = some (pay', blocks)) :
    List.Forall₂ SameContent (blocks.flatten.filter Packet.isData) (sentPackets pay pkts) := by
  rw [sentPackets]
  by_cases hpct : 0 < pay.fecPercentage
  · rw [applyFec, if_pos hpct, Option.bind_eq_bind, Option.bind_eq_some_iff] at h
    obtain ⟨split, hsplit, h⟩ := h
    rw [dataShards_of_determineSplit hsplit] at h
    by_cases h90 : 90 < pkts.length
    · rw [if_pos h90, generateFecMultiBlocks, List.range_eq_range'] at h
      have hsame := sameContent_fecBlocks hpct hdata h
      rw [flatten_blockSub, gstBufferListSub, Nat.zero_mul, List.drop_zero, Nat.sub_zero,
        Nat.zero_add] at hsame
      rw [if_pos ⟨hpct, h90⟩, List.take_eq_take_min]
      exact hsame
    · rw [if_neg h90, Option.map_eq_some_iff] at h
      obtain ⟨blk, hblk, heq⟩ := h
      obtain ⟨-, rfl⟩ := Prod.mk.inj heq
      rw [if_neg fun hboth => h90 hboth.2, List.flatten_singleton]
      exact sameContent_generateFecPackets hpct hdata hblk
  · rw [applyFec, if_neg hpct] at h
    obtain ⟨-, rfl⟩ := Prod.mk.inj (Option.some.inj h)
    rw [if_neg fun hboth => hpct hboth.1, List.flatten_singleton, List.filter_eq_self.mpr hdata]
    exact forall₂_sameContent_refl pkts

end Fec

/-! ### The payloader -/

section Frames

variable {pay pay' : GstRtpMoonlightPayVideo} {inbuf : Frame}

/-- `split_into_rtp` goes through the frame, and every data packet but the last carries bytes of it. -/
def SplitsTotally (pay : GstRtpMoonlightPayVideo) (inbuf : Frame) : Prop :=
  ∃ pay' pkts full, splitIntoRtp pay inbuf = some (pay', pkts) ∧
    prependVideoHeader pay inbuf = some full ∧
    ∀ i p, (pkts.filter Packet.isData)[i]? = some p → i + 1 < (pkts.filter Packet.isData).length →
      payloadAt pay full i ≠ [] ∧ payloadAt pay full i <+: p.payload

/-- What `split_into_rtp` returns on: a short header, packets, and FEC for them. -/
theorem splitIntoRtp_eq_some_iff {pkts : List Packet} :
    splitIntoRtp pay inbuf = some (pay', pkts) ↔ ∃ full cut pay₁ blocks,
      prependVideoHeader pay inbuf = some full ∧ generateRtpPackets pay full = some cut ∧
      applyFec pay cut = some (pay₁, blocks) ∧
      pay' = { pay₁ with frameNum := pay₁.frameNum + 1 } ∧ pkts = blocks.flatten := by
  simp only [splitIntoRtp, splitIntoBlocks, Option.bind_eq_bind, Option.map_eq_some_iff,
    Option.bind_eq_some_iff, Option.pure_def, Option.some.injEq, Prod.exists, Prod.mk.injEq]
  constructor
  · rintro ⟨_, _, ⟨full, hfull, cut, hcut, pay₁, blocks, hfec, rfl, rfl⟩, rfl, rfl⟩
    exact ⟨full, cut, pay₁, blocks, hfull, hcut, hfec, rfl, rfl⟩
  · rintro ⟨full, cut, pay₁, blocks, hfull, hcut, hfec, rfl, rfl⟩
    exact ⟨_, _, ⟨full, hfull, cut, hcut, pay₁, blocks, hfec, rfl, rfl⟩, rfl, rfl⟩

/-- With room for frame data, `split_into_rtp` returns exactly if its packet loop stays inside. -/
theorem exists_splitIntoRtp_iff (hpay : 16 < pay.payloadSize) :
    (∃ pay' pkts, splitIntoRtp pay inbuf = some (pay', pkts)) ↔
      StaysInside pay (inbuf.data.length + ShortHeader.size) := by
  obtain ⟨sh, -, hfull, hlen, -⟩ := prependVideoHeader_eq_some hpay inbuf
  have hsize : (sh ++ inbuf.data).length = inbuf.data.length + ShortHeader.size := by
    rw [List.length_append, hlen, Nat.add_comm]
  rw [← hsize, ← exists_generateRtpPackets_iff hpay]
  constructor
  · rintro ⟨pay', pkts, hsplit⟩
    obtain ⟨full, cut, -, -, hfull', hcut, -⟩ := splitIntoRtp_eq_some_iff.mp hsplit
    rw [hfull, Option.some.injEq] at hfull'
    exact ⟨cut, hfull' ▸ hcut⟩
  · rintro ⟨cut, hcut⟩
    have hne : cut ≠ [] :=
      generateRtpPackets_ne_nil hpay (by rw [hsize]; exact Nat.succ_pos _) hcut
    obtain ⟨pay₁, blocks, hfec⟩ : ∃ pay₁ blocks, applyFec pay cut = some (pay₁, blocks) :=
      exists_applyFec hne
    exact ⟨_, _, splitIntoRtp_eq_some_iff.mpr ⟨_, cut, pay₁, blocks, hfull, hcut, hfec, rfl, rfl⟩⟩

/-- With room for frame data, everything but the packet loop is total. -/
theorem splitsTotally_iff_of_room (hpay : 16 < pay.payloadSize) :
    SplitsTotally pay inbuf ↔ StaysInside pay (inbuf.data.length + ShortHeader.size) := by
  rw [← exists_splitIntoRtp_iff hpay]
  constructor
  · rintro ⟨pay', pkts, -, hsplit, -⟩
    exact ⟨pay', pkts, hsplit⟩
  · rintro ⟨pay', pkts, hsplit⟩
    obtain ⟨full, cut, pay₁, blocks, hfull, hcut, hfec, -, rfl⟩ := splitIntoRtp_eq_some_iff.mp hsplit
    obtain ⟨tot, hfrom, -⟩ := cutFrom_generateRtpPackets hcut
    have hsame := sameContent_applyFec (fun q hq => hfrom.isData hq) hfec
    refine ⟨pay', _, full, hsplit, hfull, fun i p hp hlast => ?_⟩
    rw [hsame.length_eq] at hlast
    have hi : i < (sentPackets pay cut).length := (Nat.lt_succ_self i).trans hlast
    have hq : (sentPackets pay cut)[i]? = some (packetAt pay full tot i) := by
      rw [List.getElem?_eq_getElem hi, sentPackets_isPrefix.getElem hi,
        hfrom.packet (List.getElem?_eq_getElem _)]
    rw [(sameContent_getElem? hsame hp hq).payload, payload_packetAt]
    refine ⟨List.ne_nil_of_length_pos ?_, List.prefix_append ..⟩
    -- the next packet starts inside the buffer
    have hnext := hfrom.start (List.getElem?_eq_getElem (hlast.trans_le sentPackets_isPrefix.length_le))
    have hroom := room_pos hpay
    rw [length_payloadAt]
    rw [Nat.succ_mul] at hnext
    omega

/-- Below sixteen the short header is computed modulo a number close to `2 ^ 64`. -/
theorem exists_prependVideoHeader_of_no_room (hpay : pay.payloadSize < 16) (inbuf : Frame) :
    ∃ full, prependVideoHeader pay inbuf = some full := by
  have hmod : (((pay.payloadSize : ℤ) - nvVideoPacketSize) % 2 ^ 64).toNat ≠ 0 := by
    simp only [nvVideoPacketSize]
    omega
  rw [prependVideoHeader, shortHeader]
  simp only [if_neg hmod]
  exact ⟨_, rfl⟩

/-- And no packet is made of it. -/
theorem generateRtpPackets_of_no_room (hpay : pay.payloadSize < 16) {bs : Bytes} :
    generateRtpPackets pay bs = some [] := by
  have hneg : ((pay.payloadSize : ℤ) - maxRtpHeaderSize) < 0 := by
    simp only [maxRtpHeaderSize]
    omega
  rw [generateRtpPackets]
  simp only [if_neg hneg.ne, totPackets_toNat_of_neg hneg]
  rfl

/-- Without room for frame data, nothing is sent, and that only if there is no FEC to be computed. -/
theorem splitsTotally_iff_of_no_room (hpay : pay.payloadSize ≤ 16) :
    SplitsTotally pay inbuf ↔ pay.payloadSize < 16 ∧ pay.fecPercentage = 0 := by
  have hnil : ∀ {full cut}, generateRtpPackets pay full = some cut → cut = [] := by
    intro full cut hcut
    obtain ⟨tot, hfrom, -⟩ := cutFrom_generateRtpPackets hcut
    by_contra hne
    exact absurd (hfrom.room_pos hne) (by omega)
  constructor
  · rintro ⟨pay', pkts, -, hsplit, -⟩
    obtain ⟨full, cut, pay₁, blocks, hfull, hcut, hfec, -⟩ := splitIntoRtp_eq_some_iff.mp hsplit
    obtain rfl := hnil hcut
    constructor
    · refine lt_of_le_of_ne hpay fun h => ?_
      rw [generateRtpPackets, if_pos (by rw [h]; rfl)] at hcut
      cases hcut
    · by_contra hpct
      rw [applyFec_nil (Nat.pos_of_ne_zero hpct)] at hfec
      cases hfec
  · rintro ⟨hlt, hpct⟩
    obtain ⟨full, hfull⟩ := exists_prependVideoHeader_of_no_room hlt inbuf
    refine ⟨_, _, full, splitIntoRtp_eq_some_iff.mpr ⟨full, [], pay, [[]], hfull,
      generateRtpPackets_of_no_room hlt, if_neg (by omega), rfl, rfl⟩, hfull, ?_⟩
    intro i p hp
    cases hp

end Frames

/-! ### Negotiated packet sizes -/

/-- What an `int` property holds after it was set: a value outside its range is refused. -/
def paramSpecInt (maximum default : ℕ) (value : ℤ) : ℕ :=
  if 0 ≤ value ∧ value ≤ maximum then value.toNat else default

theorem paramSpecInt_le {maximum default : ℕ} {value : ℤ} (h : default ≤ maximum) :
    paramSpecInt maximum default value ≤ maximum := by
  rw [paramSpecInt]
  split_ifs <;> omega

/-- The element of the video pipeline, with the properties its description sets. -/
def GstRtpMoonlightPayVideo.ofVideoParams (video : Session.VideoParams) :
    GstRtpMoonlightPayVideo where
  payloadSize := paramSpecInt 10240 1392 video.packetSize
  addPadding := true
  fecPercentage := paramSpecInt 100 20 video.fecPercentage
  minRequiredFecPackets := paramSpecInt 255 2 video.minRequiredFecPackets
  curSeqNumber := 0
  frameNum := 0
  payloadSize_le := paramSpecInt_le (by decide)
  fecPercentage_le := paramSpecInt_le (by decide)
  minRequiredFecPackets_le := paramSpecInt_le (by decide)

@[simp]
theorem payloadSize_ofVideoParams (video : Session.VideoParams) :
    (GstRtpMoonlightPayVideo.ofVideoParams video).payloadSize =
      paramSpecInt 10240 1392 video.packetSize := rfl

end SteamStream.Video
