import SteamStream.Video.Sequence
import SteamStream.Video.Totality

/-!
# Streaming without FEC

`fec_percentage` may be zero. The packets of a frame are then those the frame is cut into, and they
carry what the data packets carry with FEC on, run after run: two elements that differ in their FEC
alone stay in step (`Twins`). The running sequence number is another matter. It is moved on in the
FEC branch only, so without FEC every frame is numbered from where the first one was, and no two
frames can follow each other (`onlyRemovesFec_iff`).
-/

namespace SteamStream.Video

open Wire Layout

/-- The same element with FEC off. -/
def GstRtpMoonlightPayVideo.fecOff (pay : GstRtpMoonlightPayVideo) : GstRtpMoonlightPayVideo :=
  { pay with
    fecPercentage := 0
    fecPercentage_le := Nat.zero_le _ }

/-- The packets of each frame of a run, if the payloader goes through all of them. -/
def packetiseFrames (pay : GstRtpMoonlightPayVideo) : List Frame → Option (List (List Packet))
  | [] => some []
  | inbuf :: inbufs => do
    let (pay', pkts) ← splitIntoRtp pay inbuf
    let rest ← packetiseFrames pay' inbufs
    return pkts :: rest

/-- The packets carry the same bytes of the same frame, under the same flags. -/
structure SameData (p q : Packet) : Prop where
  payload : p.payload = q.payload
  flags : flags.getLE p.bytes = flags.getLE q.bytes
  frameIndex : p.frameIndex = q.frameIndex

/-- Without FEC a run sends the data packets it sends with FEC, frame by frame, and their sequence
numbers go up by one from each packet to the next, so that frames in sequence share none. -/
def OnlyRemovesFec (pay : GstRtpMoonlightPayVideo) (inbufs : List Frame) : Prop :=
  ∃ off on, packetiseFrames pay.fecOff inbufs = some off ∧ packetiseFrames pay inbufs = some on ∧
    List.Forall₂ (fun ps qs => List.Forall₂ SameData ps (qs.filter Packet.isData)) off on ∧
    (off.flatten.IsChain fun p q => q.seq = (p.seq + 1) % 2 ^ 16) ∧
    off.IsChain fun ps qs => ∀ p ∈ ps, ∀ q ∈ qs, p.seq ≠ q.seq

/-! ### The packets of a frame -/

section Frame

variable {pay pay' : GstRtpMoonlightPayVideo} {inbuf : Frame} {pkts : List Packet}

/-- The number of packets a buffer of that size is cut into. -/
def packetTotal (pay : GstRtpMoonlightPayVideo) (size : ℕ) : ℕ :=
  (packetNumbers (totPackets size (pay.payloadSize - maxRtpHeaderSize)).toNat).length

/-- A buffer of that size is cut without running past its end, and the three blocks it is divided
into, if it is, leave no packet out. -/
def CutWhole (pay : GstRtpMoonlightPayVideo) (size : ℕ) : Prop :=
  StaysInside pay size ∧ (90 < packetTotal pay size →
    packetTotal pay size ≤ nrBlocks * packetsPerBlock (packetTotal pay size))

/-- A buffer below `2 ^ 24` bytes is cut whole. -/
theorem cutWhole_of_lt (hpay : 16 < pay.payloadSize) {size : ℕ} (hsize : size < 2 ^ 24) :
    CutWhole pay size := by
  refine ⟨staysInside_of_lt hpay hsize, fun _ => ?_⟩
  have hcount : packetCount pay size ≤ size := packetCount_le hpay
  have htotal : packetTotal pay size = packetCount pay size := by
    rw [packetTotal, totPackets_eq hpay hsize, Int.toNat_natCast, packetNumbers_eq (by omega),
      List.length_range]
  rw [htotal, packetsPerBlock_eq (hcount.trans_lt hsize), nrBlocks]
  omega

/-- Every packet that leaves the FEC branch belongs to the frame. -/
theorem frameIndex_of_mem_applyFec (hpay : 16 < pay.payloadSize)
    (hhdr : ∀ p ∈ pkts, videoRtpHeadersSize ≤ p.bytes.length)
    (hframe : ∀ p ∈ pkts, p.frameIndex = pay.frameNum.toNat) {blocks : List (List Packet)}
    (h : applyFec pay pkts = some (pay', blocks)) {p : Packet} (hp : p ∈ blocks.flatten) :
    p.frameIndex = pay.frameNum.toNat := by
  -- a block is the packets as they were, or each of them written to
  have hblock : ∀ n sub b l out, (∀ q ∈ sub, q ∈ pkts) → 0 < pay.fecPercentage →
      generateFecPackets (pay.advance n) sub b l = some out → ∀ q ∈ out,
        q.frameIndex = pay.frameNum.toNat := by
    intro n sub b l out hsub hpct hout q hq
    obtain ⟨-, rfl⟩ := (generateFecPackets_eq_some
      (show 0 < (pay.advance n).fecPercentage from hpct)).mp hout
    split_ifs at hq
    · exact hframe q (hsub q hq)
    · obtain ⟨i, hi⟩ := List.mem_iff_getElem?.mp hq
      rw [getElem?_stamp, Option.map_eq_some_iff] at hi
      obtain ⟨r, hr, rfl⟩ := hi
      have hhdr' : videoRtpHeadersSize ≤ r.bytes.length :=
        header_le_of_mem_protect (show 16 < (pay.advance n).payloadSize from hpay)
          (fun s hs => hhdr s (hsub s hs)) (List.mem_of_getElem? hr)
      exact frameIndex_updateFecInfo hhdr'
  obtain ⟨blk, hblk, hpb⟩ := List.mem_flatten.mp hp
  by_cases hpct : 0 < pay.fecPercentage
  · rw [applyFec, if_pos hpct, Option.bind_eq_bind, Option.bind_eq_some_iff] at h
    obtain ⟨split, -, h⟩ := h
    split_ifs at h
    · obtain ⟨k, -, n, hn⟩ := exists_of_mem_fecBlocks h hblk
      exact hblock n _ _ _ blk (fun q hq => mem_of_mem_blockSub hq) hpct hn p hpb
    · rw [Option.map_eq_some_iff] at h
      obtain ⟨out, hout, heq⟩ := h
      obtain ⟨-, rfl⟩ := Prod.mk.inj heq
      rw [List.mem_singleton] at hblk
      rw [← @advance_zero pay] at hout
      exact hblock 0 _ _ _ out (fun q hq => hq) hpct hout p (hblk ▸ hpb)
  · rw [applyFec, if_neg hpct] at h
    obtain ⟨-, rfl⟩ := Prod.mk.inj (Option.some.inj h)
    rw [List.mem_singleton] at hblk
    exact hframe p (hblk ▸ hpb)

/-- How many packets are sent depends on how many there are. -/
theorem length_sentPackets_congr {pkts' : List Packet} (h : pkts.length = pkts'.length) :
    (sentPackets pay pkts).length = (sentPackets pay pkts').length := by
  rw [sentPackets, sentPackets, h]
  split_ifs
  · rw [List.length_take, List.length_take, h]
  · exact h

/-- All packets are sent if there are no three blocks, or if these reach the last packet. -/
theorem length_sentPackets_eq_iff (hpct : 0 < pay.fecPercentage) :
    (sentPackets pay pkts).length = pkts.length ↔
      (90 < pkts.length → pkts.length ≤ nrBlocks * packetsPerBlock pkts.length) := by
  rw [sentPackets]
  split_ifs with h
  · rw [List.length_take, min_eq_right_iff]
    exact ⟨fun hle _ => hle, fun hle => hle h.2⟩
  · exact iff_of_true rfl fun h90 => absurd ⟨hpct, h90⟩ h

/-- FEC moves the counter and nothing else. -/
theorem applyFec_fst {blocks : List (List Packet)} (h : applyFec pay pkts = some (pay', blocks)) :
    ∃ n, pay' = pay.advance n := by
  by_cases hpct : 0 < pay.fecPercentage
  · rw [applyFec, if_pos hpct, Option.bind_eq_bind, Option.bind_eq_some_iff] at h
    obtain ⟨split, -, h⟩ := h
    split_ifs at h
    · exact ⟨_, fecBlocks_fst h⟩
    · rw [Option.map_eq_some_iff] at h
      obtain ⟨out, -, heq⟩ := h
      exact ⟨out.length, (Prod.mk.inj heq).1.symm⟩
  · rw [applyFec, if_neg hpct] at h
    exact ⟨0, by rw [advance_zero, (Prod.mk.inj (Option.some.inj h)).1]⟩

/-- Without FEC the packets of a frame are those it is cut into, and only the frame number goes up. -/
theorem splitIntoRtp_fecOff_iff (h : pay.fecPercentage = 0) :
    splitIntoRtp pay inbuf = some (pay', pkts) ↔ ∃ full, prependVideoHeader pay inbuf = some full ∧
      generateRtpPackets pay full = some pkts ∧ pay' = { pay with frameNum := pay.frameNum + 1 } := by
  have hfec : ∀ cut, applyFec pay cut = some (pay, [cut]) := fun cut =>
    if_neg (by rw [h]; exact lt_irrefl 0)
  rw [splitIntoRtp_eq_some_iff]
  constructor
  · rintro ⟨full, cut, pay₁, blocks, hfull, hcut, hblocks, rfl, rfl⟩
    rw [hfec, Option.some.injEq, Prod.mk.injEq] at hblocks
    obtain ⟨rfl, rfl⟩ := hblocks
    rw [List.flatten_singleton]
    exact ⟨full, hfull, hcut, rfl⟩
  · rintro ⟨full, hfull, hcut, rfl⟩
    exact ⟨full, pkts, pay, [pkts], hfull, hcut, hfec pkts, rfl, List.flatten_singleton.symm⟩

/-- Without FEC every frame has packets, numbered from where the run began. -/
theorem numbered_of_mem_packetiseFrames (hpay : 16 < pay.payloadSize) (h : pay.fecPercentage = 0)
    {inbufs : List Frame} {frames : List (List Packet)}
    (hframes : packetiseFrames pay inbufs = some frames) :
    ∀ ps ∈ frames, ps ≠ [] ∧ Numbered pay.curSeqNumber.toNat ps := by
  induction inbufs generalizing pay frames with
  | nil =>
    obtain rfl := Option.some.inj hframes
    exact List.forall_mem_nil _
  | cons inbuf inbufs ih =>
    simp only [packetiseFrames, Option.bind_eq_bind, Option.bind_eq_some_iff, Option.pure_def,
      Option.some.injEq, Prod.exists] at hframes
    obtain ⟨pay', ps, hsplit, rest, hrest, rfl⟩ := hframes
    obtain ⟨full, hfull, hcut, rfl⟩ := (splitIntoRtp_fecOff_iff h).mp hsplit
    obtain ⟨tot, hfrom, -⟩ := cutFrom_generateRtpPackets hcut
    obtain ⟨sh, -, hprepend, hsh, -⟩ := prependVideoHeader_eq_some hpay inbuf
    have hpos : 0 < full.length := by
      rw [hprepend, Option.some.injEq] at hfull
      rw [← hfull, List.length_append, hsh]
      exact Nat.add_pos_left (by decide) _
    refine List.forall_mem_cons.mpr ⟨⟨generateRtpPackets_ne_nil hpay hpos hcut, hfrom.numbered⟩, ?_⟩
    -- the counter stands still
    exact @ih { pay with frameNum := pay.frameNum + 1 } hpay h rest hrest

end Frame

/-! ### Two elements in step -/

/-- Two elements that differ in their FEC alone, the first one without it, at the same frame. -/
structure Twins (off on : GstRtpMoonlightPayVideo) : Prop where
  payloadSize : off.payloadSize = on.payloadSize
  addPadding : off.addPadding = on.addPadding
  frameNum : off.frameNum = on.frameNum
  fecPercentage : off.fecPercentage = 0

namespace Twins

variable {off on off' on' : GstRtpMoonlightPayVideo} {inbuf : Frame} {full : Bytes}
  {ps qs : List Packet}

theorem fecOff (pay : GstRtpMoonlightPayVideo) : Twins pay.fecOff pay := ⟨rfl, rfl, rfl, rfl⟩

theorem prependVideoHeader (h : Twins off on) (inbuf : Frame) :
    Video.prependVideoHeader off inbuf = Video.prependVideoHeader on inbuf := by
  rw [Video.prependVideoHeader, Video.prependVideoHeader, shortHeader, shortHeader, h.payloadSize]

theorem packetTotal (h : Twins off on) (size : ℕ) :
    Video.packetTotal off size = Video.packetTotal on size := by
  rw [Video.packetTotal, Video.packetTotal, h.payloadSize]

theorem staysInside (h : Twins off on) {size : ℕ} : StaysInside off size ↔ StaysInside on size := by
  rw [StaysInside, StaysInside, GstRtpMoonlightPayVideo.room, GstRtpMoonlightPayVideo.room,
    h.payloadSize]

theorem payloadAt (h : Twins off on) (bs : Bytes) (i : ℕ) :
    Video.payloadAt off bs i = Video.payloadAt on bs i := by
  rw [Video.payloadAt, Video.payloadAt, GstRtpMoonlightPayVideo.room, GstRtpMoonlightPayVideo.room,
    h.payloadSize]

theorem paddingAt (h : Twins off on) (bs : Bytes) (i : ℕ) :
    Video.paddingAt off bs i = Video.paddingAt on bs i := by
  rw [Video.paddingAt, Video.paddingAt, h.payloadAt, h.addPadding, GstRtpMoonlightPayVideo.room,
    GstRtpMoonlightPayVideo.room, h.payloadSize]

/-- Packet `i` of the one carries what a data packet with the content of packet `i` of the other
carries. -/
theorem sameData_packetAt (h : Twins off on) {bs : Bytes} {tot i : ℕ} {q : Packet}
    (hq : SameContent q (packetAt on bs tot i)) (hframe : q.frameIndex = on.frameNum.toNat) :
    SameData (packetAt off bs tot i) q where
  payload := by rw [hq.payload, payload_packetAt, payload_packetAt, h.payloadAt, h.paddingAt]
  flags := by
    rw [hq.getLE (by decide), packetAt, packetAt, flags_createRtpHeader, flags_createRtpHeader]
  frameIndex := by rw [hframe, packetAt, frameIndex_createRtpHeader, h.frameNum]

/-- After a frame the elements are in step again. -/
theorem next (h : Twins off on) (hoff : splitIntoRtp off inbuf = some (off', ps))
    (hon : splitIntoRtp on inbuf = some (on', qs)) : Twins off' on' := by
  obtain ⟨-, -, -, rfl⟩ := (splitIntoRtp_fecOff_iff h.fecPercentage).mp hoff
  obtain ⟨_, _, pay₁, _, -, -, hfec, rfl, -⟩ := splitIntoRtp_eq_some_iff.mp hon
  obtain ⟨n, rfl⟩ := applyFec_fst hfec
  exact ⟨h.payloadSize, h.addPadding, congrArg (· + 1) h.frameNum, h.fecPercentage⟩

/-- **The data packets of a frame are the same with FEC and without**, as far as they are sent. -/
theorem forall₂_sameData (h : Twins off on) (hpay : 16 < on.payloadSize)
    (hoff : splitIntoRtp off inbuf = some (off', ps)) (hon : splitIntoRtp on inbuf = some (on', qs)) :
    ps.length = Video.packetTotal on (inbuf.data.length + ShortHeader.size) ∧
      List.Forall₂ SameData (ps.take (sentPackets on ps).length) (qs.filter Packet.isData) := by
  obtain ⟨full, hfull, hcut, rfl⟩ := (splitIntoRtp_fecOff_iff h.fecPercentage).mp hoff
  obtain ⟨full', cut, pay₁, blocks, hfull', hcut', hfec, rfl, rfl⟩ := splitIntoRtp_eq_some_iff.mp hon
  rw [h.prependVideoHeader, hfull', Option.some.injEq] at hfull
  obtain rfl := hfull
  obtain ⟨tot, hfrom, hlen, htot⟩ := cutFrom_generateRtpPackets hcut
  obtain ⟨tot', hfrom', hlen', htot'⟩ := cutFrom_generateRtpPackets hcut'
  rw [h.payloadSize, ← htot'] at htot
  obtain rfl := htot
  obtain ⟨sh, -, hprepend, hsh, -⟩ := prependVideoHeader_eq_some hpay inbuf
  rw [hprepend, Option.some.injEq] at hfull'
  have hsize : full'.length = inbuf.data.length + ShortHeader.size := by
    rw [← hfull', List.length_append, hsh, Nat.add_comm]
  refine ⟨by rw [hlen, htot', Video.packetTotal, hsize], ?_⟩
  have hsame := sameContent_applyFec (fun p hp => hfrom'.isData hp) hfec
  have hsent : (sentPackets on ps).length = (sentPackets on cut).length :=
    length_sentPackets_congr (hlen.trans hlen'.symm)
  have hle : (sentPackets on ps).length ≤ ps.length := sentPackets_isPrefix.length_le
  refine List.forall₂_iff_get.mpr ⟨?_, fun i hi hi' => ?_⟩
  · rw [List.length_take, min_eq_left hle, hsent, hsame.length_eq]
  · have hcutLt : i < (sentPackets on cut).length := hsame.length_eq ▸ hi'
    have hcutAt : (sentPackets on cut)[i] = packetAt on full' tot i := by
      rw [sentPackets_isPrefix.getElem hcutLt, hfrom'.packet (List.getElem?_eq_getElem _)]
    have hps : (ps.take (sentPackets on ps).length)[i] = packetAt off full' tot i := by
      rw [List.getElem_take, hfrom.packet (List.getElem?_eq_getElem _)]
    have hq := hsame.get hi' hcutLt
    simp only [List.get_eq_getElem, hps, hcutAt] at hq ⊢
    refine h.sameData_packetAt hq ?_
    refine frameIndex_of_mem_applyFec hpay (fun p hp => hfrom'.header_le hp) (fun p hp => ?_) hfec
      (List.mem_filter.mp (List.getElem_mem hi')).1
    obtain ⟨j, hj⟩ := List.mem_iff_getElem?.mp hp
    rw [← hfrom'.packet hj, packetAt, frameIndex_createRtpHeader]

/-- The data packets of a frame are all there exactly if the frame is cut whole. -/
theorem forall₂_sameData_iff (h : Twins off on) (hpay : 16 < on.payloadSize)
    (hpct : 0 < on.fecPercentage) (hoff : splitIntoRtp off inbuf = some (off', ps))
    (hon : splitIntoRtp on inbuf = some (on', qs)) :
    List.Forall₂ SameData ps (qs.filter Packet.isData) ↔
      CutWhole on (inbuf.data.length + ShortHeader.size) := by
  obtain ⟨hlen, hsent⟩ := h.forall₂_sameData hpay hoff hon
  have hinside := (exists_splitIntoRtp_iff hpay).mp ⟨on', qs, hon⟩
  rw [CutWhole, and_iff_right hinside, ← hlen, ← length_sentPackets_eq_iff hpct]
  constructor
  · intro hall
    rw [← min_eq_left sentPackets_isPrefix.length_le, ← List.length_take, hsent.length_eq,
      hall.length_eq]
  · intro hall
    rwa [hall, List.take_length] at hsent

/-- **In step over a run**: the data packets are the same, frame by frame, exactly if every frame is
cut whole. -/
theorem forall₂_packetiseFrames_iff (h : Twins off on) (hpay : 16 < on.payloadSize)
    (hpct : 0 < on.fecPercentage) (inbufs : List Frame) :
    (∃ fs gs, packetiseFrames off inbufs = some fs ∧ packetiseFrames on inbufs = some gs ∧
      List.Forall₂ (fun ps qs => List.Forall₂ SameData ps (qs.filter Packet.isData)) fs gs) ↔
      ∀ inbuf ∈ inbufs, CutWhole on (inbuf.data.length + ShortHeader.size) := by
  induction inbufs generalizing off on with
  | nil => exact iff_of_true ⟨[], [], rfl, rfl, .nil⟩ (List.forall_mem_nil _)
  | cons inbuf inbufs ih =>
    -- the element after the frame has the same packet size
    have hwhole : ∀ {on' qs}, splitIntoRtp on inbuf = some (on', qs) →
        on'.payloadSize = on.payloadSize ∧ on'.fecPercentage = on.fecPercentage := by
      intro on' qs hon
      obtain ⟨_, _, pay₁, _, -, -, hfec, rfl, -⟩ := splitIntoRtp_eq_some_iff.mp hon
      obtain ⟨n, rfl⟩ := applyFec_fst hfec
      exact ⟨rfl, rfl⟩
    have hsize : ∀ {on' : GstRtpMoonlightPayVideo} {size}, on'.payloadSize = on.payloadSize →
        (CutWhole on' size ↔ CutWhole on size) := by
      intro on' size hsize
      rw [CutWhole, CutWhole, StaysInside, StaysInside, GstRtpMoonlightPayVideo.room,
        GstRtpMoonlightPayVideo.room, Video.packetTotal, Video.packetTotal, hsize]
    simp only [packetiseFrames, Option.bind_eq_bind, Option.bind_eq_some_iff, Option.pure_def,
      Option.some.injEq, Prod.exists, List.forall_mem_cons]
    constructor
    · rintro ⟨_, _, ⟨off', ps, hoff, fs, hfs, rfl⟩, ⟨on', qs, hon, gs, hgs, rfl⟩, hall⟩
      obtain ⟨hhead, htail⟩ := List.forall₂_cons.mp hall
      obtain ⟨hpay', hpct'⟩ := hwhole hon
      refine ⟨(h.forall₂_sameData_iff hpay hpct hoff hon).mp hhead, fun inbuf' hmem => ?_⟩
      exact (hsize hpay').mp ((ih (h.next hoff hon) (hpay' ▸ hpay) (hpct' ▸ hpct)).mp
        ⟨fs, gs, hfs, hgs, htail⟩ inbuf' hmem)
    · rintro ⟨hhead, htail⟩
      obtain ⟨on', qs, hon⟩ := (exists_splitIntoRtp_iff hpay).mpr hhead.1
      obtain ⟨off', ps, hoff⟩ := (exists_splitIntoRtp_iff (h.payloadSize ▸ hpay)).mpr
        (h.staysInside.mpr hhead.1)
      obtain ⟨hpay', hpct'⟩ := hwhole hon
      obtain ⟨fs, gs, hfs, hgs, hall⟩ := (ih (h.next hoff hon) (hpay' ▸ hpay) (hpct' ▸ hpct)).mpr
        fun inbuf' hmem => (hsize hpay').mpr (htail inbuf' hmem)
      exact ⟨_, _, ⟨off', ps, hoff, fs, hfs, rfl⟩, ⟨on', qs, hon, gs, hgs, rfl⟩,
        .cons ((h.forall₂_sameData_iff hpay hpct hoff hon).mpr hhead) hall⟩

end Twins

/-! ### The whole run -/

section Runs

variable {pay : GstRtpMoonlightPayVideo} {inbufs : List Frame}

/-- A run of one frame is numbered without a gap, and a second frame would repeat its numbers. -/
theorem neighbours_share_iff (hpay : 16 < pay.payloadSize) {frames : List (List Packet)}
    (hframes : packetiseFrames pay.fecOff inbufs = some frames) :
    ((frames.flatten.IsChain fun p q => q.seq = (p.seq + 1) % 2 ^ 16) ∧
      frames.IsChain fun ps qs => ∀ p ∈ ps, ∀ q ∈ qs, p.seq ≠ q.seq) ↔ frames.length ≤ 1 := by
  have hnum := numbered_of_mem_packetiseFrames (show 16 < pay.fecOff.payloadSize from hpay) rfl hframes
  match frames, hnum with
  | [], _ => exact iff_of_true ⟨.nil, .nil⟩ (Nat.zero_le _)
  | [ps], hnum =>
    refine iff_of_true ⟨?_, .singleton _⟩ le_rfl
    rw [List.flatten_singleton]
    exact (hnum ps (List.mem_singleton_self ps)).2.isChain
  | ps :: qs :: rest, hnum =>
    refine iff_of_false (fun h => ?_) (by simp)
    obtain ⟨hps, hnumps⟩ := hnum ps (List.mem_cons_self ..)
    obtain ⟨hqs, hnumqs⟩ := hnum qs (List.mem_cons_of_mem _ (List.mem_cons_self ..))
    obtain ⟨p, ps, rfl⟩ := List.exists_cons_of_ne_nil hps
    obtain ⟨q, qs, rfl⟩ := List.exists_cons_of_ne_nil hqs
    -- the first packets of both frames carry the number the counter stands at
    refine (List.isChain_cons_cons.mp h.2).1 p (List.mem_cons_self ..) q (List.mem_cons_self ..) ?_
    rw [hnumps 0 p rfl, hnumqs 0 q rfl]

theorem length_packetiseFrames {frames : List (List Packet)}
    (hframes : packetiseFrames pay inbufs = some frames) : frames.length = inbufs.length := by
  induction inbufs generalizing pay frames with
  | nil =>
    obtain rfl := Option.some.inj hframes
    rfl
  | cons inbuf inbufs ih =>
    simp only [packetiseFrames, Option.bind_eq_bind, Option.bind_eq_some_iff, Option.pure_def,
      Option.some.injEq, Prod.exists] at hframes
    obtain ⟨pay', ps, -, rest, hrest, rfl⟩ := hframes
    rw [List.length_cons, List.length_cons, ih hrest]

end Runs

end SteamStream.Video
