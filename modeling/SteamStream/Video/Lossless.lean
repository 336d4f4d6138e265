import SteamStream.Video.Blocks

/-!
# Packetisation loses nothing

A receiver drops the parity packets, strips the headers, concatenates the payloads, and cuts
the last one to the length the short header in front of the stream announces: `reassemble`.

`sameContent_divided`: whatever way a frame is divided into blocks, its data packets are those
`generate_rtp_packets` cut, in order, up to the members the FEC stamp rewrites. The rest is
about the cut itself: all payloads but the last are full, so they add up to a prefix of the
buffer (`flatten_payloadAt`), and the remainder the short header carries is the length of what
is left (`length_lastPayload`).
-/

namespace SteamStream.Video

open Wire Layout

/-! ### The data packets of the output -/

section DataPackets

variable {pay pay' : GstRtpMoonlightPayVideo} {pkts out : List Packet} {b l : ℕ}

theorem filter_isData_protect (hdata : ∀ p ∈ pkts, p.isData = true) :
    (protect pay pkts).filter Packet.isData = pkts := by
  have hpar : ((parityRows pay pkts).map fun r => (⟨r, .parity⟩ : Packet)).filter
      Packet.isData = [] := by
    rw [List.filter_eq_nil_iff]
    intro p hp
    obtain ⟨r, -, rfl⟩ := List.mem_map.mp hp
    exact Bool.false_ne_true
  rw [protect, List.filter_append, hpar, List.append_nil, List.filter_eq_self.mpr hdata]

theorem forall₂_sameContent_refl (pkts : List Packet) : List.Forall₂ SameContent pkts pkts :=
  List.forall₂_same.mpr fun p _ => SameContent.refl p

theorem sameContent_getElem? {xs ys : List Packet} (h : List.Forall₂ SameContent xs ys) {i : ℕ}
    {p q : Packet} (hp : xs[i]? = some p) (hq : ys[i]? = some q) : SameContent p q := by
  obtain ⟨hi, rfl⟩ := List.getElem?_eq_some_iff.mp hp
  obtain ⟨hi', rfl⟩ := List.getElem?_eq_some_iff.mp hq
  exact h.get hi hi'

/-- Dropping the parity commutes with keeping the content. -/
theorem forall₂_sameContent_filter {xs ys : List Packet} (h : List.Forall₂ SameContent xs ys) :
    List.Forall₂ SameContent (xs.filter Packet.isData) (ys.filter Packet.isData) :=
  List.rel_filter (fun _ _ hpq => iff_of_eq (congrArg (· = true) hpq.isData)) h

/-- The data packets of a block are those it was made of. -/
theorem sameContent_generateFecPackets (hpct : 0 < pay.fecPercentage)
    (hdata : ∀ p ∈ pkts, p.isData = true) (h : generateFecPackets pay pkts b l = some out) :
    List.Forall₂ SameContent (out.filter Packet.isData) pkts := by
  obtain ⟨-, rfl⟩ := (generateFecPackets_eq_some hpct).mp h
  split_ifs with hs
  · rw [List.filter_eq_self.mpr hdata]
    exact forall₂_sameContent_refl pkts
  · have hf : List.Forall₂ SameContent
        ((stamp pay b l pkts.length (protect pay pkts)).filter Packet.isData)
        ((protect pay pkts).filter Packet.isData) :=
      forall₂_sameContent_filter forall₂_sameContent_stamp
    rwa [filter_isData_protect hdata] at hf

/-- The data packets of the three blocks, one block after another. -/
theorem sameContent_fecBlocks (hpct : 0 < pay.fecPercentage)
    (hdata : ∀ p ∈ pkts, p.isData = true) {perBlock : ℕ} {ks : List ℕ}
    {blocks : List (List Packet)} (h : fecBlocks pay pkts perBlock ks = some (pay', blocks)) :
    List.Forall₂ SameContent (blocks.flatten.filter Packet.isData)
      (ks.map (blockSub pkts perBlock)).flatten := by
  have hblocks := forall₂_fecBlocks h
  clear h
  induction hblocks with
  | nil => exact .nil
  | @cons k blk ks blocks hblk _ ih =>
    obtain ⟨n, hn⟩ := hblk
    rw [List.flatten_cons, List.filter_append, List.map_cons, List.flatten_cons]
    exact List.rel_append (sameContent_generateFecPackets
      (show 0 < (pay.advance n).fecPercentage from hpct)
      (fun p hp => hdata p (mem_of_mem_blockSub hp)) hn) ih

/-- **The data packets sent are the packets cut.** -/
theorem sameContent_divided {blocks : List (List Packet)} (hdata : ∀ p ∈ pkts, p.isData = true)
    (h : Divided pay pkts blocks) :
    List.Forall₂ SameContent (blocks.flatten.filter Packet.isData) pkts := by
  cases h with
  | unprotected h =>
    rw [List.flatten_singleton, List.filter_eq_self.mpr hdata]
    exact forall₂_sameContent_refl pkts
  | single hpct h hblk =>
    rw [List.flatten_singleton]
    exact sameContent_generateFecPackets hpct hdata hblk
  | three hpct h hblocks =>
    have hall : ((List.range nrBlocks).map (blockSub pkts ((pkts.length + 2) / 3))).flatten =
        pkts := by
      rw [List.range_eq_range', flatten_blockSub, nrBlocks, gstBufferListSub, Nat.zero_mul,
        List.drop_zero, List.take_of_length_le (by omega)]
    have hsame := sameContent_fecBlocks hpct hdata hblocks
    rwa [hall] at hsame

/-- Every packet of a block is as long as a shard when those it is made of are. -/
theorem length_of_mem_generateFecPackets (hpct : 0 < pay.fecPercentage)
    (hlen : ∀ p ∈ pkts, p.bytes.length = blockSize pay)
    (h : generateFecPackets pay pkts b l = some out) {p : Packet} (hp : p ∈ out) :
    p.bytes.length = blockSize pay := by
  obtain ⟨-, rfl⟩ := (generateFecPackets_eq_some hpct).mp h
  split_ifs at hp with hs
  · exact hlen p hp
  · obtain ⟨i, hi⟩ := List.mem_iff_getElem?.mp hp
    rw [getElem?_stamp, Option.map_eq_some_iff] at hi
    obtain ⟨q, hq, rfl⟩ := hi
    rw [length_updateFecInfo]
    have hmem := List.mem_of_getElem? hq
    rw [protect, List.mem_append] at hmem
    rcases hmem with hmem | hmem
    · exact hlen q hmem
    · obtain ⟨r, hr, rfl⟩ := List.mem_map.mp hmem
      exact length_of_mem_parityRows hr

theorem length_of_mem_divided {blocks : List (List Packet)}
    (hlen : ∀ p ∈ pkts, p.bytes.length = blockSize pay) (h : Divided pay pkts blocks)
    {p : Packet} (hp : p ∈ blocks.flatten) : p.bytes.length = blockSize pay := by
  obtain ⟨blk, hblk, hpb⟩ := List.mem_flatten.mp hp
  cases h with
  | unprotected h =>
    rw [List.mem_singleton] at hblk
    exact hlen p (hblk ▸ hpb)
  | single hpct h hout =>
    rw [List.mem_singleton] at hblk
    exact length_of_mem_generateFecPackets hpct hlen (hblk ▸ hout) hpb
  | three hpct h hblocks =>
    obtain ⟨k, -, n, hn⟩ := exists_of_mem_fecBlocks hblocks hblk
    exact length_of_mem_generateFecPackets
      (show 0 < (pay.advance n).fecPercentage from hpct)
      (fun q hq => hlen q (mem_of_mem_blockSub hq)) hn hpb

end DataPackets

/-! ### Putting the payloads together -/

/-- What a receiver makes of the packets of a frame: the payloads of the data packets in order,
the last one cut to the length the short header at the front of them announces. -/
def reassemble (pkts : List Packet) : Bytes :=
  let payloads := (pkts.filter Packet.isData).map Packet.payload
  payloads.dropLast.flatten ++
    (payloads.getLastD []).take (ShortHeader.lastPayloadLen.getLE payloads.flatten)

section Payloads

variable {pay : GstRtpMoonlightPayVideo} {full : Bytes}

/-- The payloads of the first packets make up a prefix. -/
theorem flatten_payloadAt (n : ℕ) :
    ((List.range n).map (payloadAt pay full)).flatten = full.take (n * pay.room) := by
  induction n with
  | zero => simp
  | succ n ih =>
    rw [List.range_succ, List.map_append, List.flatten_append, ih, List.map_singleton,
      List.flatten_singleton, payloadAt, Nat.succ_mul, List.take_add]

/-- The remainder in the short header is the length of the last payload. -/
theorem length_lastPayload (hpay : 16 < pay.payloadSize) {n : ℕ}
    (hn : packetCount pay full.length = n + 1) :
    (payloadAt pay full n).length = lastLength pay full.length ∧
      payloadAt pay full n = full.drop (n * pay.room) := by
  have hr := room_pos hpay
  have hlo : n * pay.room < full.length := mul_room_lt_of_lt_packetCount hpay (by omega)
  have hhi : full.length ≤ (n + 1) * pay.room := by
    have hdm := Nat.div_add_mod (full.length + (pay.room - 1)) pay.room
    have hlt := Nat.mod_lt (full.length + (pay.room - 1)) hr
    rw [packetCount] at hn
    rw [hn, Nat.mul_comm] at hdm
    omega
  rw [Nat.succ_mul] at hhi
  have hlen : (payloadAt pay full n).length = full.length - n * pay.room := by
    rw [length_payloadAt]
    omega
  refine ⟨?_, ?_⟩
  · obtain ⟨r, hfull⟩ : ∃ r, full.length = n * pay.room + r := ⟨full.length - n * pay.room, by omega⟩
    have hmod : full.length % pay.room = r % pay.room := by
      rw [hfull, Nat.mul_comm, Nat.mul_add_mod]
    rw [hlen, lastLength, hmod]
    rcases (show r ≤ pay.room by omega).lt_or_eq with hlt | heq
    · rw [Nat.mod_eq_of_lt hlt, if_neg (by omega)]
      omega
    · rw [heq, Nat.mod_self, if_pos rfl]
      omega
  · rw [payloadAt, List.take_of_length_le]
    rw [List.length_drop]
    omega

/-- The payloads of the packets cut from a buffer, the last one with its padding. -/
theorem payloads_cutPackets (hpay : 16 < pay.payloadSize) {n : ℕ}
    (hn : packetCount pay full.length = n + 1) :
    (cutPackets pay full).map Packet.payload =
      (List.range n).map (payloadAt pay full) ++ [payloadAt pay full n ++ paddingAt pay full n] := by
  rw [cutPackets, List.map_map, hn, List.range_succ, List.map_append, List.map_singleton,
    Function.comp_apply, payload_packetAt]
  refine congrArg (· ++ [_]) (List.map_congr_left fun i hi => ?_)
  rw [List.mem_range] at hi
  have hle : (i + 1) * pay.room ≤ full.length :=
    (mul_room_lt_of_lt_packetCount hpay (by omega : i + 1 < packetCount pay full.length)).le
  have hlen : (payloadAt pay full i).length = pay.room := by
    rw [length_payloadAt]
    rw [Nat.succ_mul] at hle
    omega
  have hpad : paddingAt pay full i = [] := by
    rw [paddingAt, hlen, Nat.sub_self]
    split_ifs <;> rfl
  rw [Function.comp_apply, payload_packetAt, hpad, List.append_nil]

/-- Reassembling depends on the content of the data packets only. -/
theorem reassemble_eq_of_sameContent {pkts cut : List Packet}
    (h : List.Forall₂ SameContent (pkts.filter Packet.isData) cut) :
    reassemble pkts = (cut.map Packet.payload).dropLast.flatten ++
      ((cut.map Packet.payload).getLastD []).take
        (ShortHeader.lastPayloadLen.getLE (cut.map Packet.payload).flatten) := by
  have hmap : (pkts.filter Packet.isData).map Packet.payload = cut.map Packet.payload := by
    rw [← List.forall₂_eq_eq_eq, List.forall₂_map_left_iff, List.forall₂_map_right_iff]
    exact h.imp fun p q hpq => hpq.payload
  rw [reassemble, hmap]

/-- The packets cut from a buffer that begins with its short header reassemble to it. -/
theorem reassemble_cutPackets (hpay : 16 < pay.payloadSize) {pkts : List Packet}
    {sh data : Bytes} (hsh : sh.length = ShortHeader.size)
    (hlast : ShortHeader.lastPayloadLen.getLE sh = lastLength pay (sh ++ data).length)
    (h : List.Forall₂ SameContent (pkts.filter Packet.isData) (cutPackets pay (sh ++ data))) :
    reassemble pkts = sh ++ data := by
  set full := sh ++ data with hfull
  have hr := room_pos hpay
  obtain ⟨n, hn⟩ : ∃ n, packetCount pay full.length = n + 1 := by
    refine Nat.exists_eq_succ_of_ne_zero (Nat.div_pos ?_ hr).ne'
    have : 0 < full.length := by rw [hfull, List.length_append, hsh]; simp [ShortHeader.size]
    omega
  obtain ⟨hlen, hdrop⟩ := length_lastPayload hpay hn
  have hstream : full.take (n * pay.room) ++ payloadAt pay full n = full := by
    rw [hdrop, List.take_append_drop]
  have hflat : ((cutPackets pay full).map Packet.payload).flatten =
      sh ++ (data ++ paddingAt pay full n) := by
    rw [payloads_cutPackets hpay hn, List.flatten_append, flatten_payloadAt,
      List.flatten_singleton, ← List.append_assoc, hstream, hfull, List.append_assoc]
  have hstop : ShortHeader.lastPayloadLen.stop ≤ sh.length := by rw [hsh]; decide
  rw [reassemble_eq_of_sameContent h, hflat, Field.getLE_append_left hstop, hlast, ← hlen,
    payloads_cutPackets hpay hn, List.dropLast_concat, flatten_payloadAt, List.getLastD_concat,
    List.take_left, hstream]

end Payloads

/-! ### Flags -/

/-- The flag is set in the packet's header. -/
def Packet.HasFlag (p : Packet) (flag : ℕ) : Prop := flags.getLE p.bytes &&& flag ≠ 0

theorem SameContent.hasFlag {p q : Packet} (h : SameContent p q) (flag : ℕ) :
    p.HasFlag flag ↔ q.HasFlag flag := by
  rw [Packet.HasFlag, Packet.HasFlag, h.getLE (by decide)]

section Flags

variable {pay : GstRtpMoonlightPayVideo} {bs : Bytes} {tot i : ℕ}

theorem hasFlag_sof_packetAt : (packetAt pay bs tot i).HasFlag flagSof ↔ i = 0 := by
  rw [Packet.HasFlag, packetAt, flags_createRtpHeader]
  split_ifs with h0 h1 h1 <;> simp [h0, flagSof, flagEof, flagContainsPicData]

theorem hasFlag_eof_packetAt : (packetAt pay bs tot i).HasFlag flagEof ↔ i + 1 = tot := by
  rw [Packet.HasFlag, packetAt, flags_createRtpHeader]
  split_ifs with h0 h1 h1 <;> simp [h1, flagSof, flagEof, flagContainsPicData]

end Flags

/-! ### The frame -/

section Frames

variable {pay : GstRtpMoonlightPayVideo} {inbuf : Frame}

/-- **Packetisation is lossless.** On a frame below `2 ^ 24` bytes with its short header,
`split_into_rtp` returns. A receiver gets the short header and the frame back; among the data
packets exactly the first carries SOF and exactly the last EOF; with padding on, every packet,
parity included, has the size of a shard. -/
theorem splitIntoRtp_lossless (hpay : 16 < pay.payloadSize)
    (hsize : inbuf.data.length + ShortHeader.size < 2 ^ 24) :
    ∃ pay' pkts sh, splitIntoRtp pay inbuf = some (pay', pkts) ∧
      shortHeader pay inbuf = some sh ∧ sh.length = 8 ∧
      reassemble pkts = sh ++ inbuf.data ∧
      (pkts.filter Packet.isData ≠ [] ∧ ∀ i p, (pkts.filter Packet.isData)[i]? = some p →
        (p.HasFlag flagSof ↔ i = 0) ∧
        (p.HasFlag flagEof ↔ i + 1 = (pkts.filter Packet.isData).length)) ∧
      (pay.addPadding = true → ∀ p ∈ pkts, p.bytes.length = blockSize pay) := by
  obtain ⟨sh, hsh, hfull, hlen, hlast⟩ := prependVideoHeader_eq_some hpay inbuf
  have hlenFull : (sh ++ inbuf.data).length = inbuf.data.length + ShortHeader.size := by
    rw [List.length_append, hlen, Nat.add_comm]
  obtain ⟨pay', blocks, hsplit, hdiv⟩ := splitIntoBlocks_eq_some hpay hfull
    (by rw [hlenFull]; exact Nat.succ_pos _) (by rwa [hlenFull])
  set cut := cutPackets pay (sh ++ inbuf.data) with hcut
  have hdata : ∀ p ∈ cut, p.isData = true := by
    intro p hp
    obtain ⟨i, -, rfl⟩ := List.mem_map.mp hp
    exact isData_packetAt
  have hsame := sameContent_divided hdata hdiv
  refine ⟨pay', blocks.flatten, sh, by rw [splitIntoRtp, hsplit]; rfl, hsh, hlen, ?_, ⟨?_, ?_⟩, ?_⟩
  · exact reassemble_cutPackets hpay hlen (by rw [hlast, hlenFull]) hsame
  · rw [← List.length_pos_iff, hsame.length_eq, hcut, length_cutPackets, hlenFull]
    exact Nat.div_pos (by have := room_pos hpay; simp only [ShortHeader.size]; omega)
      (room_pos hpay)
  · intro i p hp
    have hi : i < cut.length := by
      rw [← hsame.length_eq]
      exact (List.getElem?_eq_some_iff.mp hp).1
    have hq : cut[i]? = some (packetAt pay (sh ++ inbuf.data)
        (packetCount pay (sh ++ inbuf.data).length) i) :=
      getElem?_cutPackets (by rwa [hcut, length_cutPackets] at hi)
    have hpq := sameContent_getElem? hsame hp hq
    rw [hpq.hasFlag, hpq.hasFlag, hsame.length_eq, hcut, length_cutPackets]
    exact ⟨hasFlag_sof_packetAt, hasFlag_eof_packetAt⟩
  · intro hadd p hp
    refine length_of_mem_divided (fun q hq => ?_) hdiv hp
    obtain ⟨i, -, rfl⟩ := List.mem_map.mp hq
    rw [length_packetAt_of_addPadding hadd, blockSize_eq_room_add hpay]

/-- A delta frame of one byte, cut into nine packets of one byte each. -/
theorem splitIntoRtp_lossless_one :
    ∃ pay' pkts sh, splitIntoRtp (.ofPayloadSize 17 (by decide)) ⟨[0xAB], true⟩ = some (pay', pkts) ∧
      shortHeader (.ofPayloadSize 17 (by decide)) ⟨[0xAB], true⟩ = some sh ∧ sh.length = 8 ∧
      reassemble pkts = sh ++ [0xAB] := by
  have hpay : 16 < (GstRtpMoonlightPayVideo.ofPayloadSize 17 (by decide)).payloadSize := by decide
  have hsize : (Frame.mk [0xAB] true).data.length + ShortHeader.size < 2 ^ 24 := by decide
  obtain ⟨pay', pkts, sh, hsplit, hsh, hlen, hre, -⟩ := splitIntoRtp_lossless hpay hsize
  exact ⟨pay', pkts, sh, hsplit, hsh, hlen, hre⟩

end Frames

end SteamStream.Video
