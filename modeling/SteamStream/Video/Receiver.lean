import SteamStream.Fec.Cauchy
import SteamStream.Library.Slots
import SteamStream.Video.Metadata
import SteamStream.Video.Percentage
import SteamStream.Video.Recovery

/-!
# A receiver that has the datagrams alone

What a client can do with the datagrams of a frame, whatever is lost of them and in whatever order
they come. It goes by their headers: `recoverBlock` puts the datagrams of a block into the slots
their shard numbers name, works out the number of parity packets from the percentage, and lets
nanors restore the payloads that are missing; `recoverFrame` puts the blocks together and cuts the
last payload to the length in the short header.

`SentBlock` is what the payloader does for such a receiver, and `recoverBlock_eq_some` says that it
is enough: no more packets lost than there are parity packets, and every payload comes back, the
last one of a frame perhaps with zeros behind it.
-/

namespace SteamStream.Video

open Wire Layout Nanors Erasure Slots

/-! ### The receiver -/

/-- A datagram as a packet; where its bytes come from is not on the wire. -/
def onWire (d : Bytes) : Packet := ⟨d, .parity⟩

/-- The datagram in the slot of a shard. -/
def slot (arrived : List Bytes) (shard : ℕ) : Option Bytes :=
  arrived.find? fun d => (onWire d).shard = shard

/-- The payload of a datagram, nothing if it is lost. -/
def slotPayload (d : Option Bytes) : Bytes := (d.map fun d => (onWire d).payload).getD []

/-- A payload extended with zeros to the size of a shard. -/
def extended (w : ℕ) (payload : Bytes) : Bytes := payload ++ List.replicate (w - payload.length) 0

/-- The payloads of the data packets of a block, from the datagrams that arrived of it. The receiver
has as much working memory as nanors goes over. -/
def recoverBlock (wrk : Mem) (arrived : List Bytes) : Option (List Bytes) := do
  let first ← arrived.head?
  let data := (onWire first).dataShards
  let parity := parityOf data (onWire first).percentage
  let slots := (List.range (data + parity)).map (slot arrived)
  if (slots.take data).all Option.isSome then
    return (slots.take data).map slotPayload
  else
    -- a parity packet is as long as a shard
    let w := (arrived.map fun d => (onWire d).payload.length).foldr max 0
    let rs ← reedSolomonNew data parity
    let out ← decodeShards rs wrk (slots.map fun d => extended w (slotPayload d))
      (slots.map Option.isNone) (data + parity) w
    if out.ret = 0 then return out.data.take data else none

/-- The payloads of a frame as one stream, the last one cut to the length in the short header. -/
def joinPayloads (payloads : List Bytes) : Bytes :=
  payloads.dropLast.flatten ++
    (payloads.getLastD []).take (ShortHeader.lastPayloadLen.getLE payloads.flatten)

/-- The stream of a frame, from the datagrams that arrived of it. -/
def recoverFrame (wrk : Mem) (arrived : List Bytes) : Option Bytes := do
  let first ← arrived.head?
  let blocks ← (List.range ((onWire first).lastBlock + 1)).mapM fun b =>
    recoverBlock wrk (arrived.filter fun d => (onWire d).block = b)
  return joinPayloads blocks.flatten

/-- The same from the datagrams of any frames. -/
def receive (wrk : Mem) (arrived : List Bytes) (frameIndex : ℕ) : Option Bytes :=
  recoverFrame wrk (arrived.filter fun d => (onWire d).frameIndex = frameIndex)

/-! ### What the payloader sends for it -/

/-- A block as it is sent: of the shards numbered from zero the first ones carry `data`, the others
the parity nanors computes for it, and every header says how many of each there are. -/
structure SentBlock (w last b : ℕ) (data : List Bytes) (blk : List Packet) : Prop where
  ne_nil : data ≠ []
  length_le : data.length ≤ blk.length
  shards_le : data.length < blk.length → blk.length ≤ dataShardsMax
  block : ∀ p ∈ blk, p.block = b
  lastBlock : ∀ p ∈ blk, p.lastBlock = last
  shard : ∀ {i : ℕ} {p}, blk[i]? = some p → p.shard = i
  dataShards : ∀ p ∈ blk, p.dataShards = data.length
  parity : ∀ p ∈ blk, parityOf data.length p.percentage = blk.length - data.length
  payload : (blk.take data.length).map Packet.payload = data
  length_data : ∀ d ∈ data, d.length ≤ w
  code : ∀ rs, reedSolomonNew data.length (blk.length - data.length) = some rs →
    (blk.drop data.length).map Packet.payload = gemm rs.p (data.map (extended w)) w

/-- What has arrived was sent, and no more is lost than there is parity for. -/
structure BlockArrived (data : List Bytes) (blk : List Packet) (arrived : List Bytes) : Prop where
  sent : ∀ d ∈ arrived, ∃ p ∈ blk, p.bytes = d
  lost : (blk.filter fun p => p.bytes ∉ arrived).length ≤ blk.length - data.length

section Extended

variable {w : ℕ} {payload : Bytes}

theorem length_extended (h : payload.length ≤ w) : (extended w payload).length = w := by
  rw [extended, List.length_append, List.length_replicate, Nat.add_sub_cancel' h]

theorem extended_of_length_eq (h : payload.length = w) : extended w payload = payload := by
  rw [extended, h, Nat.sub_self]
  exact List.append_nil payload

end Extended

/-! ### One block -/

section Block

variable {w last b : ℕ} {data : List Bytes} {blk : List Packet} {arrived : List Bytes}

/-- A slot holds the packet of its number if it has arrived. -/
theorem slot_eq (h : SentBlock w last b data blk) (harr : BlockArrived data blk arrived) {i : ℕ}
    {p : Packet} (hp : blk[i]? = some p) : slot arrived i = kept arrived p.bytes := by
  refine find?_of_unique (decide_eq_true (show p.shard = i from h.shard hp)) fun d hd hshard => ?_
  obtain ⟨q, hq, rfl⟩ := harr.sent d hd
  obtain ⟨j, hj⟩ := List.mem_iff_getElem?.mp hq
  obtain rfl : j = i := (h.shard hj).symm.trans (of_decide_eq_true hshard)
  rw [Option.some.inj (hj.symm.trans hp)]

/-- The slots are the packets that were sent, without those that are lost. -/
theorem map_slot (h : SentBlock w last b data blk) (harr : BlockArrived data blk arrived) :
    (List.range blk.length).map (slot arrived) = blk.map (kept arrived ·.bytes) := by
  refine List.ext_getElem? fun i => ?_
  rw [List.getElem?_map, List.getElem?_map]
  by_cases hi : i < blk.length
  · rw [List.getElem?_range hi, List.getElem?_eq_getElem hi, Option.map_some, Option.map_some,
      slot_eq h harr (List.getElem?_eq_getElem hi)]
  · rw [List.getElem?_eq_none (by simpa using hi), List.getElem?_eq_none (not_lt.mp hi)]
    rfl

/-- Every packet of a block has its share of the code as payload. -/
theorem map_payload (h : SentBlock w last b data blk) {rs : ReedSolomon}
    (hnew : reedSolomonNew data.length (blk.length - data.length) = some rs) :
    blk.map Packet.payload = data ++ gemm rs.p (data.map (extended w)) w := by
  rw [← h.code rs hnew]
  conv_lhs => rw [← List.take_append_drop data.length blk, List.map_append, h.payload]

theorem length_payload_le (h : SentBlock w last b data blk) {p : Packet} (hp : p ∈ blk) :
    p.payload.length ≤ w := by
  obtain ⟨i, hi, rfl⟩ := List.mem_iff_getElem.mp hp
  by_cases hlt : i < data.length
  · refine h.length_data _ (h.payload ▸ List.mem_map_of_mem ?_)
    exact List.mem_iff_getElem.mpr ⟨i, by rw [List.length_take]; omega, List.getElem_take⟩
  · have hpos : 0 < data.length := List.length_pos_iff.mpr h.ne_nil
    have hle := h.shards_le (by omega)
    obtain ⟨rs, hnew, -, -, -⟩ :=
      @reedSolomonNew_eq_some data.length (blk.length - data.length) (by omega) hpos (by omega)
    have hmem : blk[i].payload ∈ (blk.drop data.length).map Packet.payload :=
      List.mem_map_of_mem (List.mem_drop_iff_getElem.mpr ⟨i - data.length, by omega, by
        congr 1
        omega⟩)
    rw [h.code rs hnew] at hmem
    exact (length_of_mem_gemm hmem).le

/-- Where a parity packet has arrived the longest payload is as long as a shard. -/
theorem foldr_max_payload (h : SentBlock w last b data blk) (harr : BlockArrived data blk arrived)
    {p : Packet} (hfull : p.payload.length = w) (hmem : p.bytes ∈ arrived) :
    (arrived.map fun d => (onWire d).payload.length).foldr max 0 = w := by
  refine foldr_max_eq (fun n hn => ?_) (List.mem_map.mpr ⟨p.bytes, hmem, hfull⟩)
  obtain ⟨d, hd, rfl⟩ := List.mem_map.mp hn
  obtain ⟨q, hq, rfl⟩ := harr.sent d hd
  exact (length_payload_le h hq : q.payload.length ≤ w)

/-- Restored or not, the shards are those nanors made. -/
theorem map_extended_payload (h : SentBlock w last b data blk) {rs : ReedSolomon}
    (hnew : reedSolomonNew data.length (blk.length - data.length) = some rs) :
    blk.map (fun p => extended w p.payload) =
      data.map (extended w) ++ gemm rs.p (data.map (extended w)) w := by
  have hgemm : (gemm rs.p (data.map (extended w)) w).map (extended w) =
      gemm rs.p (data.map (extended w)) w := by
    conv_rhs => rw [← List.map_id (gemm rs.p (data.map (extended w)) w)]
    exact List.map_congr_left fun r hr => extended_of_length_eq (length_of_mem_gemm hr)
  have hcomp : blk.map (fun p => extended w p.payload) =
      (blk.map Packet.payload).map (extended w) := by
    rw [List.map_map]
    rfl
  rw [hcomp, map_payload h hnew, List.map_append, hgemm]

/-- What nanors gets to work with. -/
theorem arrived_kept (h : SentBlock w last b data blk) (harr : BlockArrived data blk arrived)
    {rs : ReedSolomon} (hnew : reedSolomonNew data.length (blk.length - data.length) = some rs) :
    Nanors.Arrived rs w (data.map (extended w))
      ((blk.map (kept arrived ·.bytes)).map fun d => extended w (slotPayload d))
      ((blk.map (kept arrived ·.bytes)).map Option.isNone) := by
  obtain ⟨hds, hps, -, -, -, -⟩ := reedSolomonNew_shape hnew
  have hdata : Shards rs.ds w (data.map (extended w)) := by
    refine ⟨by rw [List.length_map, hds], fun r hr => ?_⟩
    obtain ⟨d, hd, rfl⟩ := List.mem_map.mp hr
    exact length_extended (h.length_data d hd)
  -- an empty slot is filled with zeros
  have hfill : ∀ d : Option Bytes, extended w (slotPayload d) =
      (d.map fun d => extended w (onWire d).payload).getD (List.replicate w 0) := by
    rintro (_ | d)
    · exact List.nil_append _
    · rfl
  set slots := (blk.map (kept arrived ·.bytes)).map
    (Option.map fun d => extended w (onWire d).payload) with hslots
  have hrows : (blk.map (kept arrived ·.bytes)).map (fun d => extended w (slotPayload d)) =
      slots.map (·.getD (List.replicate w 0)) := by
    simp only [hslots, List.map_map, Function.comp_def, hfill]
  have hmarks : (blk.map (kept arrived ·.bytes)).map Option.isNone = slots.map Option.isNone := by
    simp only [hslots, List.map_map, Function.comp_def, Option.isNone_map]
  rw [hrows, hmarks]
  refine arrived_of_slots hdata ?_ ?_ fun i r hi => ?_
  · rw [List.length_map, List.length_map, ReedSolomon.ts, hds, hps, Nat.add_sub_cancel' h.length_le]
  · rw [hslots, List.map_map, hps]
    exact (countP_isNone_map_kept Packet.bytes _ blk).trans_le harr.lost
  · rw [hslots, List.map_map, List.getElem?_map, Option.map_eq_some_iff] at hi
    obtain ⟨p, hp, hsome⟩ := hi
    obtain ⟨d, hd, rfl⟩ := Option.map_eq_some_iff.mp hsome
    obtain ⟨-, rfl⟩ := kept_eq_some.mp hd
    rw [← map_extended_payload h hnew, List.getElem?_map, hp]
    rfl

/-- Where a data packet is lost, a parity packet has arrived. -/
theorem exists_parity_kept (harr : BlockArrived data blk arrived)
    {p : Packet} (hp : p ∈ blk.take data.length) (hlost : p.bytes ∉ arrived) :
    ∃ q ∈ blk.drop data.length, q.bytes ∈ arrived := by
  by_contra hnone
  have hall : ((blk.drop data.length).filter fun p => p.bytes ∉ arrived) = blk.drop data.length :=
    List.filter_eq_self.mpr fun q hq => decide_eq_true fun hmem => hnone ⟨q, hq, hmem⟩
  have hone : 0 < ((blk.take data.length).filter fun p => p.bytes ∉ arrived).length :=
    List.length_pos_of_mem (List.mem_filter.mpr ⟨hp, decide_eq_true hlost⟩)
  have hsplit : blk.filter (fun p => p.bytes ∉ arrived) =
      (blk.take data.length).filter (fun p => p.bytes ∉ arrived) ++
        (blk.drop data.length).filter fun p => p.bytes ∉ arrived := by
    rw [← List.filter_append, List.take_append_drop]
  have hle := harr.lost
  rw [hsplit, hall, List.length_append, List.length_drop] at hle
  omega

/-- **A block comes back** when no more of its packets are lost than there are parity packets: every
payload as it was sent, or extended with zeros to the size of a shard. -/
theorem recoverBlock_eq_some (h : SentBlock w last b data blk)
    (harr : BlockArrived data blk arrived) (wrk : Mem) :
    ∃ out, recoverBlock wrk arrived = some out ∧
      List.Forall₂ (fun o d => o = d ∨ o = extended w d) out data := by
  have hpos : 0 < data.length := List.length_pos_iff.mpr h.ne_nil
  have hle := h.length_le
  -- something arrives, as there are data packets
  obtain ⟨first, hfirst, q, hq, hqfirst⟩ : ∃ first, arrived.head? = some first ∧
      ∃ q ∈ blk, q.bytes = first := by
    rcases arrived with _ | ⟨first, rest⟩
    · have hlost := harr.lost
      simp only [List.not_mem_nil, not_false_eq_true, decide_true, List.filter_true] at hlost
      omega
    · exact ⟨first, rfl, harr.sent first List.mem_cons_self⟩
  have hdata : (onWire first).dataShards = data.length := by
    rw [← hqfirst]
    exact h.dataShards q hq
  have hparity : parityOf data.length (onWire first).percentage = blk.length - data.length := by
    rw [← hqfirst]
    exact h.parity q hq
  have hslots : (List.range (data.length + (blk.length - data.length))).map (slot arrived) =
      blk.map (kept arrived ·.bytes) := by
    rw [Nat.add_sub_cancel' hle, map_slot h harr]
  rw [recoverBlock, hfirst, Option.bind_eq_bind, Option.bind_some]
  simp only [hdata, hparity, hslots, ← List.map_take]
  by_cases hall : ((blk.take data.length).map (kept arrived ·.bytes)).all Option.isSome = true
  · refine ⟨_, if_pos hall, ?_⟩
    have hpayloads :
        ((blk.take data.length).map (kept arrived ·.bytes)).map slotPayload = data := by
      rw [List.all_map, List.all_eq_true] at hall
      rw [List.map_map]
      refine Eq.trans (List.map_congr_left fun p hp => ?_) h.payload
      have hmem := hall p hp
      rw [Function.comp_apply, isSome_kept, decide_eq_true_eq] at hmem
      rw [Function.comp_apply, kept_of_mem hmem]
      rfl
    rw [hpayloads]
    exact List.forall₂_same.mpr fun d _ => .inl rfl
  · rw [if_neg hall]
    obtain ⟨p, hp, hplost⟩ : ∃ p ∈ blk.take data.length, p.bytes ∉ arrived := by
      by_contra hnone
      refine hall ?_
      rw [List.all_map, List.all_eq_true]
      intro p hp
      rw [Function.comp_apply, isSome_kept, decide_eq_true_eq]
      by_contra hlost
      exact hnone ⟨p, hp, hlost⟩
    obtain ⟨r, hr, hrmem⟩ := exists_parity_kept harr hp hplost
    have hmore : data.length < blk.length := by
      have := List.length_pos_of_mem hr
      rw [List.length_drop] at this
      omega
    have hshards := h.shards_le hmore
    obtain ⟨rs, hnew, -, -, -⟩ :=
      @reedSolomonNew_eq_some data.length (blk.length - data.length) (by omega) hpos (by omega)
    obtain ⟨hds, hps, -, -, -, -⟩ := reedSolomonNew_shape hnew
    have hw : (arrived.map fun d => (onWire d).payload.length).foldr max 0 = w := by
      refine foldr_max_payload h harr ?_ hrmem
      have hmem : r.payload ∈ (blk.drop data.length).map Packet.payload := List.mem_map_of_mem hr
      rw [h.code rs hnew] at hmem
      exact length_of_mem_gemm hmem
    have hkept := arrived_kept h harr hnew
    obtain ⟨out, hout, hret, hrows, -⟩ := decodeShards_restores (shaped_reedSolomonNew hnew)
      hkept (regular_lostCoefficients_reedSolomonNew hnew
        (by rw [hkept.length_marks, ReedSolomon.ts, hds, hps]) (hps ▸ hkept.lost)) wrk
    rw [ReedSolomon.ts, hds, hps] at hout
    rw [hds] at hrows
    refine ⟨data.map (extended w), ?_, ?_⟩
    · simp only [hw, hnew, hout, Option.bind_eq_bind, Option.bind_some, hret, if_true, hrows]
      rfl
    · rw [List.forall₂_map_left_iff]
      exact List.forall₂_same.mpr fun d _ => .inr rfl

end Block

end SteamStream.Video
