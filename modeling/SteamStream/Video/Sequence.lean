import SteamStream.Video.Blocks

/-!
# RTP sequence numbers over a run of frames

`Numbered start pkts`: the packets carry the sequence numbers `start, start + 1, …` modulo
`2 ^ 16`. A fresh list is numbered from the counter by its packet indices; a stamped block is
numbered from the counter by its shard indices. In the three-block path the two must agree on
the blocks that skip FEC and keep their fresh headers. They do because the counter is still
where the fresh numbering expects it as long as every earlier block was skipped as well, and
because blocks never grow, so that skipping, being monotone in the block length, is over once
one block got parity (`numbered_fecBlocks`).
-/

namespace SteamStream.Video

open Wire Layout

/-! ### Numbered lists -/

/-- The packets carry consecutive sequence numbers from `start` on, modulo `2 ^ 16`. -/
def Numbered (start : ℕ) (pkts : List Packet) : Prop :=
  ∀ i p, pkts[i]? = some p → p.seq = (start + i) % 65536

namespace Numbered

variable {s t : ℕ} {xs ys : List Packet}

theorem nil : Numbered s [] := fun i p hp => by simp at hp

/-- Only the start modulo `2 ^ 16` matters. -/
theorem congr (h : Numbered s xs) (hst : s % 65536 = t % 65536) : Numbered t xs := by
  intro i p hp
  rw [h i p hp]
  omega

theorem append (hx : Numbered s xs) (hy : Numbered (s + xs.length) ys) :
    Numbered s (xs ++ ys) := by
  intro i p hp
  by_cases hi : i < xs.length
  · exact hx i p (by rwa [List.getElem?_append_left hi] at hp)
  · rw [List.getElem?_append_right (not_lt.mp hi)] at hp
    rw [hy _ p hp]
    omega

/-- A part of a numbered list is numbered from where it starts. -/
theorem sub (h : Numbered s xs) (start stop : ℕ) :
    Numbered (s + start) (gstBufferListSub xs start stop) := by
  intro i p hp
  rw [gstBufferListSub, List.getElem?_take] at hp
  split_ifs at hp
  rw [List.getElem?_drop] at hp
  rw [h _ p hp, Nat.add_assoc]

/-- From one packet to the next the number goes up by one. -/
theorem isChain (h : Numbered s xs) :
    xs.IsChain fun p q => q.seq = (p.seq + 1) % 2 ^ 16 := by
  rw [List.isChain_iff_getElem]
  intro i hi
  rw [h i _ (List.getElem?_eq_getElem (by omega)), h (i + 1) _ (List.getElem?_eq_getElem hi)]
  omega

end Numbered

theorem CutFrom.numbered {pay : GstRtpMoonlightPayVideo} {inbuf : Bytes} {tot : ℕ}
    {pkts : List Packet} (h : CutFrom pay inbuf tot pkts) :
    Numbered pay.curSeqNumber.toNat pkts := fun _ _ hp => h.seq hp

/-! ### One block -/

section Block

variable {pay : GstRtpMoonlightPayVideo} {pkts out : List Packet} {b l n : ℕ}

/-- A stamped block is numbered from the counter. -/
theorem numbered_stamp (hhdr : ∀ p ∈ pkts, videoRtpHeadersSize ≤ p.bytes.length) :
    Numbered pay.curSeqNumber.toNat (stamp pay b l n pkts) := by
  intro i p hp
  rw [getElem?_stamp, Option.map_eq_some_iff] at hp
  obtain ⟨q, hq, rfl⟩ := hp
  exact seq_updateFecInfo (hhdr q (List.mem_of_getElem? hq))

/-- A block that comes out of `generate_fec_packets` is numbered from the counter when its
packets already were, should it skip FEC. -/
theorem numbered_generateFecPackets (hpct : 0 < pay.fecPercentage) (hpay : 16 < pay.payloadSize)
    (hhdr : ∀ p ∈ pkts, videoRtpHeadersSize ≤ p.bytes.length)
    (h : generateFecPackets pay pkts b l = some out)
    (hskip : SkipsFec pay pkts.length → Numbered pay.curSeqNumber.toNat pkts) :
    Numbered pay.curSeqNumber.toNat out := by
  obtain ⟨-, rfl⟩ := (generateFecPackets_eq_some hpct).mp h
  split_ifs with hs
  · exact hskip hs
  · exact numbered_stamp fun p hp => header_le_of_mem_protect hpay hhdr hp

end Block

section Blocks

variable {pay pay' : GstRtpMoonlightPayVideo} {pkts : List Packet} {perBlock : ℕ}

/-- **The blocks of a frame are numbered without a gap.** At block `k` either the counter is where
the fresh numbering has block `k`, or no block from `k` on skips FEC. -/
theorem numbered_fecBlocks (hpct : 0 < pay.fecPercentage) (hpay : 16 < pay.payloadSize)
    (hhdr : ∀ p ∈ pkts, videoRtpHeadersSize ≤ p.bytes.length) {start : ℕ}
    (hnum : Numbered start pkts) {k m : ℕ} {out : List (List Packet)}
    (h : fecBlocks pay pkts perBlock (List.range' k m) = some (pay', out))
    (hsync : pay.curSeqNumber.toNat % 65536 = (start + k * perBlock) % 65536 ∨
      ∀ j ≥ k, ¬ SkipsFec pay (blockLength perBlock pkts.length j)) :
    Numbered pay.curSeqNumber.toNat out.flatten := by
  induction m generalizing pay pay' k out with
  | zero =>
    obtain ⟨-, rfl⟩ : pay = pay' ∧ [] = out := by simpa [fecBlocks] using h
    exact Numbered.nil
  | succ m ih =>
    simp only [List.range'_succ, fecBlocks, Option.bind_eq_bind, Option.bind_eq_some_iff,
      Option.pure_def, Option.some.injEq, Prod.mk.injEq] at h
    obtain ⟨blk, hblk, ⟨pay₁, rest⟩, hrest, -, rfl⟩ := h
    set sub := blockSub pkts perBlock k with hsub
    have hlen : sub.length = blockLength perBlock pkts.length k := length_blockSub k
    have hfresh : Numbered (start + k * perBlock) sub := hnum.sub _ _
    have hsubhdr : ∀ p ∈ sub, videoRtpHeadersSize ≤ p.bytes.length := fun p hp =>
      hhdr p (mem_of_mem_blockSub hp)
    have hblkNum : Numbered pay.curSeqNumber.toNat blk := by
      refine numbered_generateFecPackets hpct hpay hsubhdr hblk fun hs => ?_
      rcases hsync with hc | hno
      · exact hfresh.congr hc.symm
      · exact absurd (hlen ▸ hs) (hno k le_rfl)
    have hpct' : 0 < (pay.advance blk.length).fecPercentage := hpct
    refine hblkNum.append ((ih hpct' hpay hrest ?_).congr curSeqNumber_advance)
    -- a block that skipped was emitted as it was; past one that did not, no block skips
    by_cases hs : SkipsFec pay sub.length
    · have hout : blk = sub := by
        have hblk' := ((generateFecPackets_eq_some hpct).mp hblk).2
        exact hblk'.symm.trans (if_pos hs)
      have hcur : pay.curSeqNumber.toNat % 65536 = (start + k * perBlock) % 65536 := by
        rcases hsync with hc | hno
        · exact hc
        · exact absurd (hlen ▸ hs) (hno k le_rfl)
      by_cases hfull : sub.length = perBlock
      · left
        have hadv : (pay.advance blk.length).curSeqNumber.toNat % 65536 = _ := curSeqNumber_advance
        rw [hout, hfull] at hadv ⊢
        rw [hadv, Nat.succ_mul]
        omega
      · right
        intro j hj hsj
        have hzero : blockLength perBlock pkts.length j = 0 := by
          have hmul : (k + 1) * perBlock ≤ j * perBlock := Nat.mul_le_mul_right _ hj
          rw [hlen] at hfull
          simp only [blockLength, Nat.succ_mul] at hfull hmul ⊢
          omega
        rw [hzero] at hsj
        exact not_skipsFec_zero hsj
    · right
      intro j hj hsj
      exact hs (hlen ▸ SkipsFec.mono (blockLength_anti (Nat.le_of_succ_le hj)) hsj)

end Blocks

/-! ### Frames -/

section Frames

variable {pay pay' : GstRtpMoonlightPayVideo} {inbuf : Frame}

/-- The packets of one frame are numbered from the counter. -/
theorem numbered_splitIntoBlocks (hpct : 0 < pay.fecPercentage) (hpay : 16 < pay.payloadSize)
    {blocks : List (List Packet)} (h : splitIntoBlocks pay inbuf = some (pay', blocks)) :
    Numbered pay.curSeqNumber.toNat blocks.flatten := by
  obtain ⟨pkts, tot, full, -, -, hcut, -, -, hone | hmulti⟩ := splitIntoBlocks_cases hpct h
  · obtain ⟨-, blk, hblk, rfl⟩ := hone
    rw [List.flatten_singleton]
    exact numbered_generateFecPackets hpct hpay (fun p hp => hcut.header_le hp) hblk
      fun _ => hcut.numbered
  · obtain ⟨-, pay₁, hblks⟩ := hmulti
    rw [List.range_eq_range'] at hblks
    exact numbered_fecBlocks hpct hpay (fun p hp => hcut.header_le hp) hcut.numbered hblks
      (.inl (by simp))

/-- The packets of a run of frames are numbered from the counter. -/
theorem numbered_packetise (hpct : 0 < pay.fecPercentage) (hpay : 16 < pay.payloadSize)
    (inbufs : List Frame) : Numbered pay.curSeqNumber.toNat (packetise pay inbufs) := by
  induction inbufs generalizing pay with
  | nil => exact Numbered.nil
  | cons inbuf inbufs ih =>
    rw [packetise]
    rcases hsplit : splitIntoRtp pay inbuf with _ | ⟨pay', pkts⟩
    · exact Numbered.nil
    · rw [splitIntoRtp, Option.map_eq_some_iff] at hsplit
      obtain ⟨⟨pay', blocks⟩, hblocks, heq⟩ := hsplit
      obtain ⟨rfl, rfl⟩ := Prod.mk.inj heq
      obtain ⟨-, -, -, -, -, -, -, hpay', -⟩ := splitIntoBlocks_cases hpct hblocks
      refine (numbered_splitIntoBlocks hpct hpay hblocks).append ?_
      have hrest := ih (show 0 < pay'.fecPercentage by rw [hpay']; exact hpct)
        (by rw [hpay']; exact hpay)
      refine hrest.congr ?_
      rw [hpay']
      exact curSeqNumber_advance

/-- **Sequence numbers have no gap.** With FEC on, the packets pushed downstream over a run of
frames, parity included, carry sequence numbers that go up by one from each packet to the
next. -/
theorem packetise_seq_isChain (hpct : 0 < pay.fecPercentage) (hpay : 16 < pay.payloadSize)
    (inbufs : List Frame) :
    (packetise pay inbufs).IsChain fun p q => q.seq = (p.seq + 1) % 2 ^ 16 :=
  (numbered_packetise hpct hpay inbufs).isChain

/-- The element as it is created, on three empty frames. -/
theorem packetise_seq_isChain_init :
    (packetise .init [⟨[], false⟩, ⟨[], true⟩, ⟨[], true⟩]).IsChain
      fun p q => q.seq = (p.seq + 1) % 2 ^ 16 :=
  packetise_seq_isChain (by decide) (by decide) _

end Frames

end SteamStream.Video
