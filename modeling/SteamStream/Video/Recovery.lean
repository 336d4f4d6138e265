import SteamStream.Video.Lossless

/-!
# Recovering lost packets

A block that got parity is `stamp … (protect …)`. Every column of `protect` is a codeword, and
the stamp touches only the columns of the `rewritten` members, so all other columns of the
block *as transmitted* are still codewords of the code `reedSolomonNew` built for the block's
counts, a short last packet being extended with zeros (`isCodeword_column_block`).

Hence a decoder that restores erasures column by column returns, from any block with no more
losses than parity packets, the bytes of the lost packets outside the rewritten members: the
payload, the flags and the stream index among them.
-/

namespace SteamStream.Video

open Wire Layout Nanors Erasure

/-! ### Blocks with parity -/

/-- The data packets of a block. -/
def dataCount (blk : List Packet) : ℕ := blk.countP Packet.isData

/-- The parity packets of a block. -/
def parityCount (blk : List Packet) : ℕ := blk.countP fun p => !p.isData

section Block

variable {pay pay' : GstRtpMoonlightPayVideo} {pkts blk : List Packet} {b l : ℕ}

theorem dataCount_add_parityCount (blk : List Packet) :
    dataCount blk + parityCount blk = blk.length := by
  have h := List.length_eq_countP_add_countP (l := blk) Packet.isData
  rw [dataCount, parityCount, h]
  congr 1
  exact List.countP_congr fun p _ => by simp

theorem column_congr {rows rows' : List Bytes} {c : ℕ}
    (h : List.Forall₂ (fun r r' : Bytes => r[c]? = r'[c]?) rows rows') :
    column 0 rows c = column 0 rows' c := by
  rw [column, column, ← List.forall₂_eq_eq_eq, List.forall₂_map_left_iff,
    List.forall₂_map_right_iff]
  exact h.imp fun r r' hr => by rw [List.getD_eq_getElem?_getD, List.getD_eq_getElem?_getD, hr]

/-- What is known of a block with a parity packet in it. -/
structure IsProtected (pay : GstRtpMoonlightPayVideo) (blk : List Packet) : Prop where
  room : 16 < pay.payloadSize
  data_first : ∀ {i : ℕ} {p}, blk[i]? = some p → (p.isData = true ↔ i < dataCount blk)
  length_le : ∀ {p}, p ∈ blk → p.bytes.length ≤ blockSize pay
  header_le : ∀ {p}, p ∈ blk → videoRtpHeadersSize ≤ p.bytes.length
  code : ∃ rs, reedSolomonNew (dataCount blk) (parityCount blk) = some rs ∧
    rs.ds = dataCount blk ∧ rs.ps = parityCount blk ∧
    ∀ c < blockSize pay, (∀ f ∈ rewritten, ¬ f.Covers c) →
      rs.code.IsCodeword (column 0 (blk.map Packet.bytes) c)

/-- **The columns of a block as transmitted.** A block that `generate_fec_packets` added parity
to keeps its codewords outside the rewritten members. -/
theorem isProtected_generateFecPackets (hpct : 0 < pay.fecPercentage) (hpay : 16 < pay.payloadSize)
    (hdata : ∀ p ∈ pkts, p.isData = true) (hfull : FullShards (blockSize pay) pkts)
    (hhdr : ∀ p ∈ pkts, videoRtpHeadersSize ≤ p.bytes.length)
    (h : generateFecPackets pay pkts b l = some blk) (hpar : ∃ p ∈ blk, p.isData = false) :
    IsProtected pay blk := by
  obtain ⟨hn, hout⟩ := (generateFecPackets_eq_some hpct).mp h
  have hskip : ¬ SkipsFec pay pkts.length := by
    intro hs
    rw [if_pos hs] at hout
    obtain ⟨p, hp, hfalse⟩ := hpar
    rw [hdata p (hout ▸ hp)] at hfalse
    cases hfalse
  rw [if_neg hskip] at hout
  have hppos : 0 < parityShards pay pkts.length := parityShards_pos hpct hn
  have hsame : List.Forall₂ SameContent blk (protect pay pkts) :=
    hout ▸ forall₂_sameContent_stamp
  have hdc : dataCount blk = pkts.length := by
    have hf := forall₂_sameContent_filter hsame
    rw [filter_isData_protect hdata] at hf
    rw [dataCount, List.countP_eq_length_filter, hf.length_eq]
  have hlen : blk.length = pkts.length + parityShards pay pkts.length := by
    rw [hsame.length_eq, length_protect hn hppos hskip]
  have hpc : parityCount blk = parityShards pay pkts.length := by
    have := dataCount_add_parityCount blk
    omega
  have hmem : ∀ {i : ℕ} {p}, blk[i]? = some p → ∃ q, (protect pay pkts)[i]? = some q ∧
      SameContent p q := by
    intro i p hp
    have hi : i < (protect pay pkts).length := by
      rw [← hsame.length_eq]
      exact (List.getElem?_eq_some_iff.mp hp).1
    exact ⟨_, List.getElem?_eq_getElem hi,
      sameContent_getElem? hsame hp (List.getElem?_eq_getElem hi)⟩
  have hrow : ∀ {q}, q ∈ protect pay pkts → q.bytes.length ≤ blockSize pay := by
    intro q hq
    rw [protect, List.mem_append] at hq
    rcases hq with hq | hq
    · obtain ⟨i, hi⟩ := List.mem_iff_getElem?.mp hq
      exact (hfull i q hi).1
    · obtain ⟨r, hr, rfl⟩ := List.mem_map.mp hq
      exact (length_of_mem_parityRows hr).le
  refine ⟨hpay, ?_, ?_, ?_, ?_⟩
  · intro i p hp
    obtain ⟨q, hq, hpq⟩ := hmem hp
    rw [hpq.isData, hdc]
    by_cases hi : i < pkts.length
    · rw [protect, List.getElem?_append_left hi] at hq
      exact iff_of_true (hdata q (List.mem_of_getElem? hq)) hi
    · rw [protect, List.getElem?_append_right (not_lt.mp hi), List.getElem?_map,
        Option.map_eq_some_iff] at hq
      obtain ⟨r, -, rfl⟩ := hq
      exact iff_of_false Bool.false_ne_true hi
  · intro p hp
    obtain ⟨i, hi⟩ := List.mem_iff_getElem?.mp hp
    obtain ⟨q, hq, hpq⟩ := hmem hi
    exact hpq.length ▸ hrow (List.mem_of_getElem? hq)
  · intro p hp
    obtain ⟨i, hi⟩ := List.mem_iff_getElem?.mp hp
    obtain ⟨q, hq, hpq⟩ := hmem hi
    exact hpq.length ▸ header_le_of_mem_protect hpay hhdr (List.mem_of_getElem? hq)
  · obtain ⟨rs, hrs, hds, hps, hcode⟩ := isCodeword_column_protect hn hppos hskip hfull
    rw [hdc, hpc]
    refine ⟨rs, hrs, hds, hps, fun c hc hout => ?_⟩
    have hcol : column 0 (blk.map Packet.bytes) c =
        column 0 ((protect pay pkts).map Packet.bytes) c := by
      refine column_congr ?_
      rw [List.forall₂_map_left_iff, List.forall₂_map_right_iff]
      exact hsame.imp fun p q hpq => hpq.byte hout
    rw [hcol]
    exact hcode c hc

end Block

/-! ### Recovery -/

/-- The shard a decoder makes of what arrived: every column is decoded on its own, and the shard
is row `i` of the result. -/
def recoveredShard (decode : List Bool → List UInt8 → List UInt8) (width : ℕ)
    (marks : List Bool) (received : List Bytes) (i : ℕ) : Bytes :=
  (List.range width).map fun c => (decode marks (column 0 received c)).getD i 0

section Recovery

variable {pay pay' : GstRtpMoonlightPayVideo} {blk : List Packet}
  {decode : List Bool → List UInt8 → List UInt8} {marks : List Bool} {received : List Bytes}

/-- What arrived of a block: some packets are lost, no more than there are parity packets, the
others as they were sent. -/
structure Arrived (blk : List Packet) (marks : List Bool) (received : List Bytes) : Prop where
  marks_length : marks.length = blk.length
  received_length : received.length = blk.length
  losses_le : marks.count true ≤ parityCount blk
  kept : ∀ {i : ℕ} {p}, marks[i]? = some false → blk[i]? = some p → received[i]? = some p.bytes

/-- A byte outside the rewritten members is recovered. -/
theorem getElem?_recoveredShard (h : IsProtected pay blk) {rs : ReedSolomon}
    (hrs : reedSolomonNew (dataCount blk) (parityCount blk) = some rs)
    (hdec : rs.code.Restores decode) (harr : Arrived blk marks received) {i c : ℕ} {p : Packet}
    (hp : blk[i]? = some p) (hdata : p.isData = true) (hc : c < blockSize pay)
    (hout : ∀ f ∈ rewritten, ¬ f.Covers c) :
    (recoveredShard decode (blockSize pay) marks received i)[c]? = some (p.bytes.getD c 0) := by
  obtain ⟨rs', hrs', hds, hps, hcode⟩ := h.code
  obtain rfl : rs' = rs := Option.some.inj (hrs'.symm.trans hrs)
  have hi : i < rs'.code.data := by
    rw [ReedSolomon.code, hds]
    exact (h.data_first hp).mp hdata
  have hcol := hdec.column (hcode c hc hout)
    (harr.marks_length.trans (List.length_map _).symm)
    (harr.received_length.trans (List.length_map _).symm)
    (by rw [ReedSolomon.code, hps]; exact harr.losses_le)
    (fun j hj => by
      have hlt : j < blk.length := by
        rw [← harr.marks_length]
        exact (List.getElem?_eq_some_iff.mp hj).1
      rw [harr.kept hj (List.getElem?_eq_getElem hlt), List.getElem?_map,
        List.getElem?_eq_getElem hlt, Option.map_some]) hi
  rw [List.getElem?_map, hp, Option.map_some, Option.map_some] at hcol
  rw [recoveredShard, List.getElem?_map, List.getElem?_range hc, Option.map_some,
    List.getD_eq_getElem?_getD, hcol, Option.getD_some]

/-- A member the stamp does not write is recovered. -/
theorem slice_recoveredShard (h : IsProtected pay blk) {rs : ReedSolomon}
    (hrs : reedSolomonNew (dataCount blk) (parityCount blk) = some rs)
    (hdec : rs.code.Restores decode) (harr : Arrived blk marks received) {i : ℕ} {p : Packet}
    (hp : blk[i]? = some p) (hdata : p.isData = true) {f : Field}
    (hstop : f.stop ≤ videoRtpHeadersSize) (hf : ∀ g ∈ rewritten, f.Disjoint g) :
    f.slice (recoveredShard decode (blockSize pay) marks received i) = f.slice p.bytes := by
  have hmem := List.mem_of_getElem? hp
  have hlo := h.header_le hmem
  have hhi := h.length_le hmem
  refine List.ext_getElem? fun j => ?_
  simp only [Field.slice, List.getElem?_take, List.getElem?_drop]
  split_ifs with hj
  · have hlt : f.off + j < p.bytes.length := by
      simp only [Field.stop] at hstop
      omega
    rw [getElem?_recoveredShard h hrs hdec harr hp hdata (hlt.trans_le hhi),
      List.getD_eq_getElem?_getD, List.getElem?_eq_getElem hlt, Option.getD_some]
    intro g hg hcov
    have hd := hf g hg
    simp only [Field.Disjoint, Field.Covers, Field.stop] at hd hcov
    omega
  · rfl

/-- The payload is recovered, extended with zeros to the size of a shard. -/
theorem drop_recoveredShard (h : IsProtected pay blk) {rs : ReedSolomon}
    (hrs : reedSolomonNew (dataCount blk) (parityCount blk) = some rs)
    (hdec : rs.code.Restores decode) (harr : Arrived blk marks received) {i : ℕ} {p : Packet}
    (hp : blk[i]? = some p) (hdata : p.isData = true) :
    (recoveredShard decode (blockSize pay) marks received i).drop videoRtpHeadersSize =
      p.payload ++ List.replicate (blockSize pay - p.bytes.length) 0 := by
  have hmem := List.mem_of_getElem? hp
  have hlo := h.header_le hmem
  have hhi := h.length_le hmem
  refine List.ext_getElem? fun j => ?_
  rw [List.getElem?_drop]
  by_cases hj : videoRtpHeadersSize + j < blockSize pay
  · have hout : ∀ f ∈ rewritten, ¬ f.Covers (videoRtpHeadersSize + j) := by
      simp only [rewritten, List.mem_cons, List.not_mem_nil, or_false, forall_eq_or_imp, forall_eq,
        Field.Covers, Field.stop, header, sequenceNumber, frameIndex, multiFecFlags,
        multiFecBlocks, fecInfo, videoRtpHeadersSize]
      omega
    rw [getElem?_recoveredShard h hrs hdec harr hp hdata hj hout, Packet.payload]
    by_cases hlt : videoRtpHeadersSize + j < p.bytes.length
    · rw [List.getElem?_append_left (by rw [List.length_drop]; omega), List.getElem?_drop,
        List.getD_eq_getElem?_getD, List.getElem?_eq_getElem hlt, Option.getD_some]
    · rw [List.getElem?_append_right (by rw [List.length_drop]; omega), List.getElem?_replicate,
        if_pos (by rw [List.length_drop]; omega), List.getD_eq_default _ _ (not_lt.mp hlt)]
  · rw [List.getElem?_eq_none (by rw [recoveredShard, List.length_map, List.length_range]; omega),
      List.getElem?_eq_none]
    rw [List.length_append, List.length_replicate, Packet.payload, List.length_drop]
    omega

end Recovery

/-! ### The blocks of a frame -/

section Frames

variable {pay pay' : GstRtpMoonlightPayVideo} {inbuf : Frame}

/-- Every block with a parity packet that `split_into_rtp` sends, of whatever frame. -/
theorem isProtected_of_mem_splitIntoBlocks {blocks : List (List Packet)}
    (h : splitIntoBlocks pay inbuf = some (pay', blocks)) {blk : List Packet} (hblk : blk ∈ blocks)
    (hpar : ∃ p ∈ blk, p.isData = false) : IsProtected pay blk := by
  rcases Nat.eq_zero_or_pos pay.fecPercentage with h0 | hpct
  · -- without FEC there is no parity
    simp only [splitIntoBlocks, Option.bind_eq_bind, Option.bind_eq_some_iff, Option.pure_def,
      Option.some.injEq, Prod.mk.injEq] at h
    obtain ⟨full, -, pkts, hpkts, ⟨pay₁, blks⟩, hfec, -, rfl⟩ := h
    rw [applyFec, if_neg (by omega), Option.some.injEq, Prod.mk.injEq] at hfec
    obtain ⟨-, rfl⟩ := hfec
    obtain ⟨tot, hcut, -⟩ := cutFrom_generateRtpPackets hpkts
    obtain ⟨p, hp, hfalse⟩ := hpar
    rw [List.mem_singleton.mp hblk] at hp
    rw [hcut.isData hp] at hfalse
    cases hfalse
  · obtain ⟨pkts, tot, full, -, -, hcut, hne, -, hone | hmulti⟩ := splitIntoBlocks_cases hpct h
    · obtain ⟨-, blk', hblk', rfl⟩ := hone
      obtain rfl := List.mem_singleton.mp hblk
      have hfull := hcut.fullShards 0 pkts.length
      rw [List.drop_zero, List.take_length] at hfull
      exact isProtected_generateFecPackets hpct (hcut.room_pos hne) (fun p hp => hcut.isData hp)
        hfull (fun p hp => hcut.header_le hp) hblk' hpar
    · obtain ⟨-, pay₁, hblocks⟩ := hmulti
      obtain ⟨k, -, n, hn⟩ := exists_of_mem_fecBlocks hblocks hblk
      have hprot := isProtected_generateFecPackets
        (show 0 < (pay.advance n).fecPercentage from hpct) (hcut.room_pos hne)
        (fun p hp => hcut.isData (mem_of_mem_blockSub hp)) hcut.fullShards_blockSub
        (fun p hp => hcut.header_le (mem_of_mem_blockSub hp)) hn hpar
      exact ⟨hprot.room, hprot.data_first, hprot.length_le, hprot.header_le, hprot.code⟩

/-- **Loss recovery.** Of every block with parity that `split_into_rtp` sends, every column
outside the rewritten members is a codeword of the code made for the block's counts; and any
decoder that restores the codewords of that code returns, from every arrival with no more
losses than parity packets, the payload, the flags and the stream index of every data packet. -/
theorem splitIntoBlocks_recovery {blocks : List (List Packet)}
    (h : splitIntoBlocks pay inbuf = some (pay', blocks)) {blk : List Packet} (hblk : blk ∈ blocks)
    (hpar : ∃ p ∈ blk, p.isData = false) :
    ∃ rs, reedSolomonNew (dataCount blk) (parityCount blk) = some rs ∧
      (∀ (i : ℕ) p, blk[i]? = some p → (p.isData = true ↔ i < dataCount blk)) ∧
      (∀ c < blockSize pay, (∀ f ∈ rewritten, ¬ f.Covers c) →
        rs.code.IsCodeword (column 0 (blk.map Packet.bytes) c)) ∧
      ∀ decode, rs.code.Restores decode → ∀ marks received, Arrived blk marks received →
        ∀ (i : ℕ) p, blk[i]? = some p → p.isData = true →
          let shard := recoveredShard decode (blockSize pay) marks received i
          shard.drop videoRtpHeadersSize =
              p.payload ++ List.replicate (blockSize pay - p.bytes.length) 0 ∧
            flags.slice shard = flags.slice p.bytes ∧
            streamPacketIndex.slice shard = streamPacketIndex.slice p.bytes := by
  have hprot := isProtected_of_mem_splitIntoBlocks h hblk hpar
  obtain ⟨rs, hrs, -, -, hcode⟩ := hprot.code
  refine ⟨rs, hrs, fun i p hp => hprot.data_first hp, hcode, ?_⟩
  intro decode hdec marks received harr i p hp hdata
  exact ⟨drop_recoveredShard hprot hrs hdec harr hp hdata,
    slice_recoveredShard hprot hrs hdec harr hp hdata (by decide) (by decide),
    slice_recoveredShard hprot hrs hdec harr hp hdata (by decide) (by decide)⟩

/-- The decoder for one data and two parity shards: the first shard that arrived, divided by
its matrix entry. -/
def decodeSingle (marks : List Bool) (col : List UInt8) : List UInt8 :=
  if marks.head? = some false then col.take 1
  else if marks[1]? = some false then [gf28Mul 2 (col.getD 1 0)]
  else [gf28Mul 3 (col.getD 2 0)]

private theorem gf28Mul_inverses : ∀ n < 256,
    gf28Mul 2 (gf28Mul 142 (UInt8.ofNat n)) = UInt8.ofNat n ∧
      gf28Mul 3 (gf28Mul 244 (UInt8.ofNat n)) = UInt8.ofNat n := by
  decide +kernel

/-- One data shard is recovered from any of the three. -/
theorem restores_decodeSingle {rs : ReedSolomon} (hrs : reedSolomonNew 1 2 = some rs) :
    rs.code.Restores decodeSingle := by
  obtain rfl : rs = ⟨1, 2, [[142], [244]]⟩ := Option.some.inj (hrs.symm.trans rfl)
  rintro col received marks ⟨hlen, hpar⟩ hmarks hrec hcount hkept
  obtain ⟨x, y, z, rfl⟩ : ∃ x y z, col = [x, y, z] := List.length_eq_three.mp hlen
  obtain ⟨m₀, m₁, m₂, rfl⟩ : ∃ a b c, marks = [a, b, c] := List.length_eq_three.mp hmarks
  obtain ⟨hx1, hx2⟩ := gf28Mul_inverses x.toNat x.toNat_lt
  simp only [UInt8.ofNat_toNat] at hx1 hx2
  obtain ⟨hy, hz⟩ : y = gf28Mul 142 x ∧ z = gf28Mul 244 x := by
    simpa [ReedSolomon.code, dot] using hpar
  rcases m₀ with _ | _
  · have h0 := hkept 0 rfl
    obtain ⟨r, rs, rfl⟩ : ∃ r rs, received = r :: rs := List.exists_cons_of_length_pos (by
      rw [hrec]; exact Nat.succ_pos _)
    simpa [decodeSingle, ReedSolomon.code] using h0
  · rcases m₁ with _ | _
    · have h1 := hkept 1 rfl
      simp only [decodeSingle, List.getD_eq_getElem?_getD, h1]
      simp [hy, hx1, ReedSolomon.code]
    · rcases m₂ with _ | _
      · have h2 := hkept 2 rfl
        simp only [decodeSingle, List.getD_eq_getElem?_getD, h2]
        simp [hz, hx2, ReedSolomon.code]
      · exact absurd hcount (by decide)

/-- The empty frame in packets of eight bytes: one data packet, two parity packets. The data
packet and the first parity packet are lost, and the frame's payload comes back. -/
theorem splitIntoBlocks_recovery_single :
    ∃ pay' blk, splitIntoBlocks (.ofPayloadSize 24 (by decide)) ⟨[], false⟩ = some (pay', [blk]) ∧
      ∃ p q r, blk = [p, q, r] ∧ p.isData = true ∧
        (recoveredShard decodeSingle 40 [true, true, false] [[], [], r.bytes] 0).drop 32 =
          p.payload ++ List.replicate (40 - p.bytes.length) 0 := by
  set pay := GstRtpMoonlightPayVideo.ofPayloadSize 24 (by decide) with hpay
  obtain ⟨sh, -, hfull, hlen, -⟩ := prependVideoHeader_eq_some (show 16 < pay.payloadSize by decide)
    ⟨[], false⟩
  rw [List.append_nil] at hfull
  have hcut : (cutPackets pay sh).length = 1 := by rw [length_cutPackets, hlen]; decide
  obtain ⟨pay', blocks, hsplit, hdiv⟩ := splitIntoBlocks_eq_some (by decide) hfull
    (by rw [hlen]; decide) (by rw [hlen]; decide)
  obtain ⟨blk, hblk, rfl⟩ : ∃ blk, generateFecPackets pay (cutPackets pay sh) 0 0 = some blk ∧
      blocks = [blk] := by
    cases hdiv with
    | unprotected h => exact absurd h (by decide)
    | single _ _ hblk => exact ⟨_, hblk, rfl⟩
    | three _ h _ => rw [hcut] at h; exact absurd h (by decide)
  have hskip : ¬ SkipsFec pay (cutPackets pay sh).length := by rw [hcut]; decide
  obtain ⟨-, hout⟩ := (generateFecPackets_eq_some (by decide)).mp hblk
  rw [if_neg hskip] at hout
  obtain ⟨p, q, r, rfl⟩ : ∃ p q r, blk = [p, q, r] := by
    refine List.length_eq_three.mp ?_
    rw [← hout, length_stamp, length_protect (by rw [hcut]; decide) (by rw [hcut]; decide) hskip,
      hcut]
    decide
  have hdata : dataCount [p, q, r] = 1 := by
    have hsame := sameContent_generateFecPackets (show 0 < pay.fecPercentage by decide)
      (fun p hp => by obtain ⟨i, -, rfl⟩ := List.mem_map.mp hp; rfl) hblk
    rw [dataCount, List.countP_eq_length_filter, hsame.length_eq, hcut]
  have hpar : parityCount [p, q, r] = 2 := by
    have := dataCount_add_parityCount [p, q, r]
    simp only [List.length_cons, List.length_nil] at this
    omega
  obtain ⟨rs, hrs, hfirst, -, hrec⟩ := splitIntoBlocks_recovery hsplit List.mem_cons_self (by
    obtain ⟨x, hx, hx'⟩ := List.countP_pos_iff.mp (hpar ▸ Nat.two_pos :
      0 < parityCount [p, q, r])
    exact ⟨x, hx, by simpa using hx'⟩)
  rw [hdata, hpar] at hrs
  have hp : p.isData = true := (hfirst 0 p rfl).mpr (by rw [hdata]; exact Nat.one_pos)
  refine ⟨pay', _, hsplit, p, q, r, rfl, hp, ?_⟩
  refine (hrec decodeSingle (restores_decodeSingle hrs) [true, true, false] [[], [], r.bytes]
    ⟨rfl, rfl, by rw [hpar]; decide, ?_⟩ 0 p rfl hp).1
  intro i s hi hs
  obtain rfl : i = 2 := by
    rcases i with _ | _ | _ | i
    · simp at hi
    · simp at hi
    · rfl
    · simp at hi
  obtain rfl : r = s := by simpa using hs
  rfl

end Frames

end SteamStream.Video
