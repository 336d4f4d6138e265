import SteamStream.Audio.Recovery
import SteamStream.Audio.Rekey
import SteamStream.Fec.Cauchy
import SteamStream.Library.Slots

/-!
# From the encoder to the speaker

What a client can do with the audio datagrams: `recoverBlock` collects the six packets of a block by
the numbers in their headers, and lets nanors restore the payloads that are missing; `openPayload`
decrypts one of them. `pushed_delivered` says that this gives the Opus packets back, in every run of
the payloader, for every block of four packets of one size of whose six packets no more than two are
lost; in whatever order they arrive, and whatever keys have been set in between, if each packet is
opened with those it was sent under.

The numbers have sixteen bits, so a client has to look at fewer than `2 ^ 16` packets at a time.
-/

namespace SteamStream.Audio

open Wire Crypto Nanors Layout

/-! ### The receiver -/

/-- The payload in a slot of the block that begins with the number `base`: four data packets, and
two parity packets. -/
def slot (arrived : List Bytes) (base i : ℕ) : Option Bytes :=
  if i < audioDataShards then
    (arrived.find? fun d => packetType.getLE d = 97 ∧ seq d = (base + i) % 2 ^ 16).map payload
  else
    (arrived.find? fun d => packetType.getLE d = 127 ∧ baseSequenceNumber.getBE d = base ∧
      fecShardIndex.getLE d = i - audioDataShards).map fecPayload

/-- The payloads of the data packets of a block. -/
def recoverBlock (wrk : Mem) (arrived : List Bytes) (base : ℕ) : Option (List Bytes) := do
  let slots := (List.range audioTotalShards).map (slot arrived base)
  let data := slots.take audioDataShards
  if data.all Option.isSome then
    return data.map (·.getD [])
  else
    let w := (slots.map fun s => (s.getD []).length).foldr max 0
    let out ← reedSolomonDecode rs wrk (slots.map (·.getD (List.replicate w 0)))
      (slots.map Option.isNone) audioTotalShards w
    if out.ret = 0 then return out.data.take audioDataShards else none

/-- The Opus packet in the payload of the packet with that number. -/
def openPayload (cipher : Cipher) (encrypt : Bool) (aesKey aesIv : Bytes) (seq : ℕ)
    (payload : Bytes) : Option Bytes :=
  if encrypt then
    (deriveIv aesIv seq).bind fun derivedIv => cipher.aesDecryptCbc payload aesKey derivedIv
  else some payload

/-! ### What the payloader sends for it -/

/-- What a list is made from: an Opus packet, and the keys the element has at the time. -/
structure Source where
  inbuf : Bytes
  aesKey : Bytes
  aesIv : Bytes
  deriving DecidableEq

/-- What an event pushes downstream, and what it is made from. -/
def pushSource (cipher : Cipher) (pay : GstRtpMoonlightPayAudio) :
    PayEvent → List (List Bytes × Source)
  | .generateOutput inbuf =>
    ((splitIntoRtp cipher pay inbuf).map fun r => (r.2, ⟨inbuf, pay.aesKey, pay.aesIv⟩)).toList
  | .setAesKey _ | .setAesIv _ => []

/-- The lists a run of a new element pushes, each with what it is made from. -/
def pushedFrom (cipher : Cipher) (memory : PacketsBuffer) (props : Properties)
    (events : List PayEvent) : List (List Bytes × Source) :=
  let start := GstRtpMoonlightPayAudio.start memory props
  (payloader cipher start).outputs (pushSource cipher) start events

theorem map_fst_pushedFrom (cipher : Cipher) (memory : PacketsBuffer) (props : Properties)
    (events : List PayEvent) :
    (pushedFrom cipher memory props events).map Prod.fst = pushed cipher memory props events := by
  rw [pushedFrom, pushed, Runs.System.map_outputs]
  refine congrArg (fun out => Runs.System.outputs _ out _ _) (funext₂ fun pay event => ?_)
  cases event with
  | setAesKey value => rfl
  | setAesIv value => rfl
  | generateOutput inbuf =>
    rcases h : splitIntoRtp cipher pay inbuf with _ | r <;> simp [pushSource, pushList, h]

/-- The parity packet `idx` of the `i`-th list, for a receiver. -/
structure ParityAt (lists : List (List Bytes)) (i idx : ℕ) (f : Bytes) : Prop where
  packetType : packetType.getLE f = 127
  shardIndex : fecShardIndex.getLE f = idx
  base : baseSequenceNumber.getBE f = (i - 3) % 2 ^ 16
  payload : ∀ size, (∀ k < audioDataShards, (dataPacket lists (i + k - 3)).length = size) →
    fecPayload f = combine (audioFecParity.getD idx []) ((lastFour lists i).map payload)
      (size - rtpHeaderSize)

/-- What the lists are made from can be read from them, and every fourth list carries parity. -/
structure Readable (cipher : Cipher) (encrypt : Bool) (lists : List (List Bytes × Source)) :
    Prop where
  opens : ∀ {i : ℕ} {list source}, lists[i]? = some (list, source) →
    openPayload cipher encrypt source.aesKey source.aesIv (i % 2 ^ 16)
      (payload (dataPacket (lists.map Prod.fst) i)) = some source.inbuf
  count : ∀ i < lists.length,
    (parityPackets (lists.map Prod.fst) i).length = if (i + 1) % 4 = 0 then 2 else 0
  parity : ∀ {i idx : ℕ} {f}, i < lists.length →
    (parityPackets (lists.map Prod.fst) i)[idx]? = some f →
    ParityAt (lists.map Prod.fst) i idx f

/-! ### One push -/

section Push

variable {cipher : Cipher} {duration : ℕ} {pay pay' : GstRtpMoonlightPayAudio}
  {inbuf rest : Bytes} {lists : List (List Bytes)} {list : List Bytes} {idx : ℕ}

theorem fecShardIndex_createRtpFecHeader (h : idx < audioFecShards) :
    fecShardIndex.getLE (createRtpFecHeader pay idx ++ rest) = idx := by
  rw [Field.getLE_append_left (by rw [length_createRtpFecHeader]; decide)]
  simp only [createRtpFecHeader]
  rw [Field.getLE_setLE_self (by simp; decide)]
  exact Nat.mod_eq_of_lt (h.trans (by decide))

/-- What follows the header can be opened with the keys of the element. -/
theorem exists_opens (h : splitIntoRtp cipher pay inbuf = some (pay', list))
    (hcipher : pay.encrypt = true → cipher.Lawful) :
    pay'.encrypt = pay.encrypt ∧ ∃ rest, PushedBuf pay pay' (createRtpHeader pay ++ rest) list ∧
      openPayload cipher pay.encrypt pay.aesKey pay.aesIv pay.curSeqNumber.toNat rest =
        some inbuf := by
  obtain ⟨buf, hbuf, hpush⟩ := Option.bind_eq_some_iff.mp h
  have hencrypt : pay'.encrypt = pay.encrypt := by
    unfold pushRtp at hpush
    split_ifs at hpush
    rw [Option.some.injEq, Prod.mk.injEq] at hpush
    rw [← hpush.1]
  refine ⟨hencrypt, ?_⟩
  unfold createRtpAudioBuffer at hbuf
  by_cases henc : pay.encrypt = true
  · rw [if_pos henc, Option.map_eq_some_iff] at hbuf
    obtain ⟨derivedIv, hderived, rfl⟩ := hbuf
    refine ⟨_, pushedBuf_of_pushRtp hpush, ?_⟩
    rw [openPayload, if_pos henc, hderived, Option.bind_some, encryptPayload]
    exact hcipher henc inbuf pay.aesKey derivedIv
  · rw [if_neg henc, Option.some.injEq] at hbuf
    refine ⟨inbuf, pushedBuf_of_pushRtp (hbuf ▸ hpush), ?_⟩
    rw [openPayload, if_neg henc]

/-- The parity packets of a list are over what the data slots hold. -/
theorem parityAt_push (h : Tracks duration pay lists)
    (hpush : PushedBuf pay pay' (createRtpHeader pay ++ rest) list)
    (hfour : (lists.length + 1) % 4 = 0) {f : Bytes} (hf : list.tail[idx]? = some f) :
    ParityAt (lists ++ [list]) lists.length idx f := by
  have hcount := h.count
  have hnext := h.push hpush
  have htime : (pay.curSeqNumber.toNat + 1) % audioDataShards = 0 := by
    rw [audioDataShards]
    omega
  have hthree : 3 ≤ pay.curSeqNumber.toNat := by omega
  rw [hpush.packets, if_pos htime, List.tail_cons, List.getElem?_map, Option.map_eq_some_iff] at hf
  obtain ⟨idx', hidx, rfl⟩ := hf
  obtain ⟨hlt, rfl⟩ : idx < audioFecShards ∧ idx = idx' := by
    have hlt := (List.getElem?_eq_some_iff.mp hidx).1
    rw [List.length_range] at hlt
    rw [List.getElem?_range hlt] at hidx
    exact ⟨hlt, Option.some.inj hidx⟩
  refine ⟨packetType_createRtpFecHeader, fecShardIndex_createRtpFecHeader hlt, ?_,
    fun size hsize => ?_⟩
  · rw [baseSequenceNumber_createRtpFecHeader hthree]
    omega
  · have hself : (createRtpHeader pay ++ rest).length = size := by
      have hlast := hsize 3 (by decide)
      rwa [Nat.add_sub_cancel, dataPacket_append_self, hpush.packets] at hlast
    have hslots : (List.range audioDataShards).map
        (fun j => (pay'.packetsBuffer.row j).take size) =
          lastFour (lists ++ [list]) lists.length := by
      refine List.map_congr_left fun k hk => ?_
      have hk4 : k < 4 := List.mem_range.mp hk
      have hlt : lists.length + k - 3 < (lists ++ [list]).length := by
        rw [List.length_append, List.length_singleton]
        omega
      have hkept := hnext.kept (lists.length + k - 3) hlt (by
        rw [List.length_append, List.length_singleton]
        omega)
      rwa [hsize k hk4, show (lists.length + k - 3) % 4 = k by omega] at hkept
    rw [fecPayload, List.drop_left' length_createRtpFecHeader, hself, hslots, drop_combine]
    rfl

end Push

section Readable

variable {cipher : Cipher} {duration : ℕ} {encrypt : Bool} {pay pay' : GstRtpMoonlightPayAudio}
  {rest : Bytes} {lists : List (List Bytes × Source)} {list : List Bytes} {source : Source}

theorem parityAt_append_of_lt {lists : List (List Bytes)} {i idx : ℕ} {f : Bytes}
    (hi : i < lists.length) (h : ParityAt lists i idx f) : ParityAt (lists ++ [list]) i idx f := by
  refine ⟨h.packetType, h.shardIndex, h.base, fun size hsize => ?_⟩
  rw [lastFour_append_of_lt hi]
  refine h.payload size fun k hk => ?_
  have hk4 : k < 4 := hk
  rw [← hsize k hk, dataPacket_append_of_lt (by omega)]

/-- What can be read can be read with one more list. -/
theorem Readable.push (h : Readable cipher encrypt lists)
    (htracks : Tracks duration pay (lists.map Prod.fst))
    (hpush : PushedBuf pay pay' (createRtpHeader pay ++ rest) list)
    (hopen : openPayload cipher encrypt source.aesKey source.aesIv pay.curSeqNumber.toNat rest =
      some source.inbuf) :
    Readable cipher encrypt (lists ++ [(list, source)]) := by
  have hmap : (lists ++ [(list, source)]).map Prod.fst = lists.map Prod.fst ++ [list] :=
    List.map_append
  have hcount := htracks.count
  rw [List.length_map] at hcount
  have hlast : ∀ {i : ℕ}, i < (lists ++ [(list, source)]).length → i < lists.length ∨
      i = lists.length := by
    intro i hi
    rw [List.length_append, List.length_singleton] at hi
    omega
  constructor
  case opens =>
    intro i list' source' hi
    rcases hlast (List.getElem?_eq_some_iff.mp hi).1 with hlt | rfl
    · rw [List.getElem?_append_left hlt] at hi
      rw [hmap, dataPacket_append_of_lt (by rwa [List.length_map])]
      exact h.opens hi
    · rw [List.getElem?_concat_length, Option.some.injEq, Prod.mk.injEq] at hi
      obtain ⟨rfl, rfl⟩ := hi
      have hself : dataPacket (lists.map Prod.fst ++ [list]) lists.length =
          createRtpHeader pay ++ rest := by
        rw [← List.length_map (f := Prod.fst), dataPacket_append_self, hpush.packets,
          List.headD_cons]
      rw [hmap, hself, payload, List.drop_left' length_createRtpHeader, ← hcount]
      exact hopen
  case count =>
    intro i hi
    rcases hlast hi with hlt | rfl
    · rw [hmap, parityPackets_append_of_lt (by rwa [List.length_map])]
      exact h.count i hlt
    · rw [hmap, ← List.length_map (f := Prod.fst), parityPackets_append_self, List.length_map,
        hpush.packets, List.tail_cons]
      by_cases hfour : (lists.length + 1) % 4 = 0
      · rw [if_pos hfour, if_pos (by rw [audioDataShards]; omega), List.length_map,
          List.length_range]
        rfl
      · rw [if_neg hfour, if_neg (by rw [audioDataShards]; omega)]
        rfl
  case parity =>
    intro i idx f hi hf
    rw [hmap] at hf ⊢
    rcases hlast hi with hlt | rfl
    · rw [parityPackets_append_of_lt (by rwa [List.length_map])] at hf
      exact parityAt_append_of_lt (by rwa [List.length_map]) (h.parity hlt hf)
    · rw [← List.length_map (f := Prod.fst)] at hf ⊢
      rw [parityPackets_append_self] at hf
      refine parityAt_push htracks hpush ?_ hf
      by_contra hnot
      rw [List.length_map] at hnot
      rw [hpush.packets, if_neg (by rw [audioDataShards]; omega)] at hf
      cases hf

theorem readable_nil : Readable cipher encrypt [] := ⟨nofun, nofun, nofun⟩

theorem encrypt_start {memory : PacketsBuffer} {props : Properties} :
    (GstRtpMoonlightPayAudio.start memory props).encrypt = props.encrypt := rfl

/-- **Every run is readable.** -/
theorem readable_pushedFrom {memory : PacketsBuffer} {props : Properties} {events : List PayEvent}
    (hcipher : props.encrypt = true → cipher.Lawful) :
    ∃ pay, Tracks props.packetDuration pay
        ((pushedFrom cipher memory props events).map Prod.fst) ∧
      Readable cipher props.encrypt (pushedFrom cipher memory props events) := by
  suffices h : ∃ pay, Tracks props.packetDuration pay
      ((pushedFrom cipher memory props events).map Prod.fst) ∧ pay.encrypt = props.encrypt ∧
        Readable cipher props.encrypt (pushedFrom cipher memory props events) by
    obtain ⟨pay, htracks, -, hread⟩ := h
    exact ⟨pay, htracks, hread⟩
  refine Runs.System.outputs_induction
    (I := fun pay lists => Tracks props.packetDuration pay (lists.map Prod.fst) ∧
      pay.encrypt = props.encrypt ∧ Readable cipher props.encrypt lists)
    (fun {pay event pay' lists} h hstep => ?_) (fun {pay event} hstuck => ?_)
    ⟨tracks_start memory props, encrypt_start, readable_nil⟩
  · obtain ⟨htracks, hencrypt, hread⟩ := h
    cases event with
    | setAesKey value =>
      obtain rfl := Option.some.inj hstep
      rw [pushSource, List.append_nil]
      exact ⟨⟨htracks.1, htracks.2, htracks.3, htracks.4, htracks.5, htracks.6, htracks.7⟩,
        hencrypt, hread⟩
    | setAesIv value =>
      obtain rfl := Option.some.inj hstep
      rw [pushSource, List.append_nil]
      exact ⟨⟨htracks.1, htracks.2, htracks.3, htracks.4, htracks.5, htracks.6, htracks.7⟩,
        hencrypt, hread⟩
    | generateOutput inbuf =>
      obtain ⟨⟨pay'', list⟩, hsplit, rfl⟩ := Option.map_eq_some_iff.mp hstep
      obtain ⟨hencrypt', rest, hpush, hopen⟩ := exists_opens hsplit (hencrypt ▸ hcipher)
      have hout : pushSource cipher pay (.generateOutput inbuf) =
          [(list, ⟨inbuf, pay.aesKey, pay.aesIv⟩)] := by
        rw [pushSource, hsplit]
        rfl
      rw [hout, List.map_append]
      exact ⟨htracks.push hpush, hencrypt'.trans hencrypt, hread.push htracks hpush
        (hencrypt ▸ hopen)⟩
  · cases event with
    | setAesKey value => cases hstuck
    | setAesIv value => cases hstuck
    | generateOutput inbuf =>
      rw [pushSource, Option.map_eq_none_iff.mp hstuck]
      rfl

end Readable

/-! ### One block -/

/-- The packets of the `n`-th block: four data packets, two parity packets. -/
def blockPackets (lists : List (List Bytes)) (n : ℕ) : List Bytes :=
  lastFour lists (4 * n + 3) ++ parityPackets lists (4 * n + 3)

/-- What has arrived is from fewer lists than there are numbers. -/
structure InWindow (lists : List (List Bytes)) (lo : ℕ) (arrived : List Bytes) : Prop where
  sent : ∀ d ∈ arrived, ∃ j, lo ≤ j ∧ j < lo + 2 ^ 16 ∧ d ∈ lists.getD j []

/-- What a list is made of. -/
theorem mem_list_cases {lists : List (List Bytes)} {j : ℕ} {d : Bytes}
    (h : d ∈ lists.getD j []) : j < lists.length ∧
      (d = dataPacket lists j ∨ ∃ idx : ℕ, (parityPackets lists j)[idx]? = some d) := by
  have hj : j < lists.length := by
    by_contra hj
    rw [List.getD_eq_default _ _ (not_lt.mp hj)] at h
    cases h
  refine ⟨hj, ?_⟩
  rw [dataPacket, parityPackets]
  cases hlist : lists.getD j [] with
  | nil => rw [hlist] at h; cases h
  | cons head tail =>
    rw [hlist] at h
    rcases List.mem_cons.mp h with rfl | hmem
    · exact .inl rfl
    · exact .inr (List.mem_iff_getElem?.mp hmem)

section Block

variable {cipher : Cipher} {duration : ℕ} {encrypt : Bool} {pay : GstRtpMoonlightPayAudio}
  {sent : List (List Bytes × Source)} {lists : List (List Bytes)} {lo n size : ℕ}
  {arrived : List Bytes}

/-- A data slot holds the packet of its number if it has arrived. -/
theorem slot_data (htracks : Tracks duration pay (sent.map Prod.fst))
    (hread : Readable cipher encrypt sent) (harr : InWindow (sent.map Prod.fst) lo arrived)
    (hlo : lo ≤ 4 * n) (hhi : 4 * n + 4 ≤ lo + 2 ^ 16) (hn : 4 * n + 3 < sent.length) {k : ℕ}
    (hk : k < audioDataShards) :
    slot arrived (4 * n % 2 ^ 16) k =
      (Slots.kept arrived (dataPacket (sent.map Prod.fst) (4 * n + k))).map payload := by
  have hk4 : k < 4 := hk
  have hlen : (sent.map Prod.fst).length = sent.length := List.length_map _
  rw [slot, if_pos hk]
  refine congrArg (Option.map payload) (Slots.find?_of_unique ?_ fun d hd hcond => ?_)
  · rw [decide_eq_true_eq, htracks.seq _ (by omega)]
    exact ⟨htracks.packetType _ (by omega), by omega⟩
  · obtain ⟨htype, hseq⟩ := of_decide_eq_true hcond
    obtain ⟨j, hloj, hjhi, hj⟩ := harr.sent d hd
    obtain ⟨hjlt, rfl | ⟨idx, hidx⟩⟩ := mem_list_cases hj
    · rw [htracks.seq j hjlt] at hseq
      rw [show j = 4 * n + k by omega]
    · have hparity := (hread.parity (hlen ▸ hjlt) hidx).packetType
      omega

/-- A parity slot holds the packet of its index if it has arrived. -/
theorem slot_parity (htracks : Tracks duration pay (sent.map Prod.fst))
    (hread : Readable cipher encrypt sent) (harr : InWindow (sent.map Prod.fst) lo arrived)
    (hlo : lo ≤ 4 * n) (hhi : 4 * n + 4 ≤ lo + 2 ^ 16) (hn : 4 * n + 3 < sent.length) {k : ℕ}
    {f : Bytes} (hf : (parityPackets (sent.map Prod.fst) (4 * n + 3))[k]? = some f) :
    slot arrived (4 * n % 2 ^ 16) (audioDataShards + k) =
      (Slots.kept arrived f).map fecPayload := by
  have hlen : (sent.map Prod.fst).length = sent.length := List.length_map _
  have hat := hread.parity hn hf
  rw [slot, if_neg (by omega)]
  refine congrArg (Option.map fecPayload) (Slots.find?_of_unique ?_ fun d hd hcond => ?_)
  · rw [decide_eq_true_eq, hat.base, hat.shardIndex]
    exact ⟨hat.packetType, by omega, by omega⟩
  · obtain ⟨htype, hbase, hindex⟩ := of_decide_eq_true hcond
    obtain ⟨j, hloj, hjhi, hj⟩ := harr.sent d hd
    obtain ⟨hjlt, rfl | ⟨idx, hidx⟩⟩ := mem_list_cases hj
    · have hdata := htracks.packetType j hjlt
      omega
    · have hjlt' : j < sent.length := hlen ▸ hjlt
      have hother := hread.parity hjlt' hidx
      -- only every fourth list has parity packets
      have hfour : (j + 1) % 4 = 0 := by
        by_contra hnot
        have hcount := hread.count j hjlt'
        rw [if_neg hnot, List.length_eq_zero_iff] at hcount
        rw [hcount] at hidx
        cases hidx
      rw [hother.base] at hbase
      rw [hother.shardIndex] at hindex
      obtain rfl : j = 4 * n + 3 := by omega
      obtain rfl : idx = k := by omega
      exact Option.some.inj (hidx.symm.trans hf)

/-- The payloads of the data packets of a block. -/
def blockData (lists : List (List Bytes)) (n : ℕ) : List Bytes :=
  (lastFour lists (4 * n + 3)).map payload

theorem length_parityPackets (hread : Readable cipher encrypt sent) (hn : 4 * n + 3 < sent.length) :
    (parityPackets (sent.map Prod.fst) (4 * n + 3)).length = audioFecShards := by
  rw [hread.count _ hn, if_pos (by omega)]
  rfl

/-- The payloads of the parity packets of a block are what nanors makes of its data. -/
theorem map_fecPayload (hread : Readable cipher encrypt sent) (hn : 4 * n + 3 < sent.length)
    (hsize : ∀ k < audioDataShards,
      (dataPacket (sent.map Prod.fst) (4 * n + k)).length = size) :
    (parityPackets (sent.map Prod.fst) (4 * n + 3)).map fecPayload =
      gemm rs.p (blockData (sent.map Prod.fst) n) (size - rtpHeaderSize) := by
  have hlen := length_parityPackets hread hn
  rw [gemm_eq_combine]
  refine List.ext_getElem (by rw [List.length_map, List.length_map, hlen]; rfl) fun k hk hk' => ?_
  rw [List.length_map] at hk
  rw [List.getElem_map, List.getElem_map,
    (hread.parity hn (List.getElem?_eq_getElem hk)).payload size fun i hi => ?_, ← blockData,
    List.getD_eq_getElem]
  · rfl
  · rw [← hsize i hi]
    exact congrArg (fun j => (dataPacket _ j).length) (by omega)

/-- The slots of a block are its payloads, without those that are lost. -/
theorem map_slot (htracks : Tracks duration pay (sent.map Prod.fst))
    (hread : Readable cipher encrypt sent) (harr : InWindow (sent.map Prod.fst) lo arrived)
    (hlo : lo ≤ 4 * n) (hhi : 4 * n + 4 ≤ lo + 2 ^ 16) (hn : 4 * n + 3 < sent.length) :
    (List.range audioTotalShards).map (slot arrived (4 * n % 2 ^ 16)) =
      (lastFour (sent.map Prod.fst) (4 * n + 3)).map
          (fun p => (Slots.kept arrived p).map payload) ++
        (parityPackets (sent.map Prod.fst) (4 * n + 3)).map
          fun p => (Slots.kept arrived p).map fecPayload := by
  have hlen := length_parityPackets hread hn
  rw [show audioTotalShards = audioDataShards + audioFecShards from rfl, List.range_add,
    List.map_append, lastFour, List.map_map, List.map_map]
  refine congrArg₂ (· ++ ·) (List.map_congr_left fun k hk => ?_) ?_
  · rw [slot_data htracks hread harr hlo hhi hn (List.mem_range.mp hk), Function.comp_apply]
    exact congrArg (fun j => (Slots.kept arrived (dataPacket _ j)).map payload) (by omega)
  · refine List.ext_getElem (by rw [List.length_map, List.length_map, List.length_range, hlen])
      fun k hk hk' => ?_
    rw [List.length_map] at hk'
    rw [List.getElem_map, List.getElem_map, Function.comp_apply, List.getElem_range,
      slot_parity htracks hread harr hlo hhi hn (List.getElem?_eq_getElem hk')]

/-- **A block comes back** when no more than two of its six packets are lost. -/
theorem recoverBlock_eq_some (htracks : Tracks duration pay (sent.map Prod.fst))
    (hread : Readable cipher encrypt sent) (harr : InWindow (sent.map Prod.fst) lo arrived)
    (hlo : lo ≤ 4 * n) (hhi : 4 * n + 4 ≤ lo + 2 ^ 16) (hn : 4 * n + 3 < sent.length)
    (hsize : ∀ k < audioDataShards,
      (dataPacket (sent.map Prod.fst) (4 * n + k)).length = size)
    (hlost : ((blockPackets (sent.map Prod.fst) n).filter (· ∉ arrived)).length ≤ 2)
    (wrk : Mem) :
    recoverBlock wrk arrived (4 * n % 2 ^ 16) = some (blockData (sent.map Prod.fst) n) := by
  set data := lastFour (sent.map Prod.fst) (4 * n + 3) with hdata
  set parity := parityPackets (sent.map Prod.fst) (4 * n + 3) with hparity
  set w := size - rtpHeaderSize with hw
  have hlenData : data.length = audioDataShards := by
    rw [hdata, lastFour, List.length_map, List.length_range]
  have hlenParity : parity.length = audioFecShards := length_parityPackets hread hn
  set dataSlots := data.map fun p => (Slots.kept arrived p).map payload with hdataSlots
  set paritySlots := parity.map fun p => (Slots.kept arrived p).map fecPayload with hparitySlots
  have htake : (dataSlots ++ paritySlots).take audioDataShards = dataSlots :=
    List.take_left' (by rw [hdataSlots, List.length_map, hlenData])
  rw [recoverBlock, map_slot htracks hread harr hlo hhi hn]
  simp only [← hdata, ← hparity, ← hdataSlots, ← hparitySlots, htake]
  by_cases hall : dataSlots.all Option.isSome = true
  · rw [if_pos hall, Option.pure_def, Option.some.injEq, hdataSlots, List.map_map, blockData]
    refine List.map_congr_left fun p hp => ?_
    have hsome := List.all_eq_true.mp hall _ (List.mem_map_of_mem hp)
    rw [Option.isSome_map, Slots.isSome_kept, decide_eq_true_eq] at hsome
    rw [Function.comp_apply, Slots.kept_of_mem hsome, Option.map_some, Option.getD_some]
  · have hcode := map_fecPayload hread hn hsize
    have hshards : Shards rs.ds w (blockData (sent.map Prod.fst) n) := by
      refine ⟨by rw [blockData, List.length_map, ← hdata, hlenData]; rfl, fun r hr => ?_⟩
      obtain ⟨p, hp, rfl⟩ := List.mem_map.mp hr
      obtain ⟨k, hk, rfl⟩ := List.mem_map.mp hp
      have hlength := hsize k (List.mem_range.mp hk)
      rw [payload, List.length_drop, show 4 * n + 3 + k - 3 = 4 * n + k by omega, hlength]
    have hpayloads : data.map payload ++ parity.map fecPayload =
        blockData (sent.map Prod.fst) n ++ gemm rs.p (blockData (sent.map Prod.fst) n) w := by
      rw [hcode, blockData]
    have hkept : ∀ (i : ℕ) r, (dataSlots ++ paritySlots)[i]? = some (some r) →
        (blockData (sent.map Prod.fst) n ++
          gemm rs.p (blockData (sent.map Prod.fst) n) w)[i]? = some r := by
      intro i r hi
      rw [← hpayloads, List.getElem?_append, List.length_map]
      rw [List.getElem?_append, hdataSlots, hparitySlots, List.length_map] at hi
      split_ifs at hi ⊢
      all_goals
        rw [List.getElem?_map, Option.map_eq_some_iff] at hi
        obtain ⟨p, hp, hsome⟩ := hi
        obtain ⟨q, hq, rfl⟩ := Option.map_eq_some_iff.mp hsome
        obtain ⟨-, rfl⟩ := Slots.kept_eq_some.mp hq
        rw [List.getElem?_map, hp, Option.map_some]
    have hnone : (dataSlots ++ paritySlots).countP Option.isNone ≤ rs.ps := by
      rw [List.countP_append, Slots.countP_isNone_map_kept, Slots.countP_isNone_map_kept,
        ← List.length_append, ← List.filter_append]
      exact hlost
    have hlenSlots : (dataSlots ++ paritySlots).length = rs.ts := by
      rw [List.length_append, hdataSlots, hparitySlots, List.length_map, List.length_map, hlenData,
        hlenParity]
      rfl
    -- a slot that is filled is as long as a shard
    have hlength : ∀ r, some r ∈ dataSlots ++ paritySlots → r.length = w := by
      intro r hr
      obtain ⟨i, hi⟩ := List.mem_iff_getElem?.mp hr
      rcases List.mem_append.mp (List.mem_of_getElem? (hkept i r hi)) with hmem | hmem
      · exact hshards.rows r hmem
      · exact length_of_mem_gemm hmem
    have hwidth : ((dataSlots ++ paritySlots).map fun s => (s.getD []).length).foldr max 0 = w := by
      refine Slots.foldr_max_eq (fun m hm => ?_) ?_
      · obtain ⟨s, hs, rfl⟩ := List.mem_map.mp hm
        cases s with
        | none => exact Nat.zero_le w
        | some r => exact (hlength r hs).le
      · obtain ⟨s, hs, hsome⟩ : ∃ s ∈ dataSlots ++ paritySlots, ¬ s.isNone = true := by
          by_contra hnot
          have hall : (dataSlots ++ paritySlots).countP Option.isNone = rs.ts :=
            (List.countP_eq_length.mpr fun s hs => by_contra fun h => hnot ⟨s, hs, h⟩).trans
              hlenSlots
          rw [hall] at hnone
          exact absurd hnone (by decide)
        cases s with
        | none => exact absurd rfl hsome
        | some r => exact List.mem_map.mpr ⟨some r, hs, hlength r hs⟩
    have hkept' := arrived_of_slots hshards hlenSlots hnone hkept
    obtain ⟨out, hout, hret, hrows, -⟩ := reedSolomonDecode_restores shaped_rs hkept'
      (regular_lostCoefficients hkept'.length_marks hkept'.lost)
      (marked_le_wrkSize_rs hkept'.length_marks hkept'.lost) wrk
    have hts : rs.ts = audioTotalShards := rfl
    have hds : rs.ds = audioDataShards := rfl
    rw [hts] at hout
    rw [hds] at hrows
    simp only [hall, hwidth, hout, Option.bind_eq_bind, Option.bind_some, hret, if_true, hrows]
    rfl

end Block

/-! ### Every block of every run -/

section Run

variable {cipher : Cipher} {memory : PacketsBuffer} {props : Properties} {events : List PayEvent}
  {lo n size : ℕ} {arrived : List Bytes}

/-- **From the encoder to the speaker.** In every run of a new element, of every block of four
packets of one size: if no more than two of the six packets are lost, a client that goes by the
headers has their payloads, and opens each with the keys the element had when it was sent. -/
theorem pushed_delivered (hcipher : props.encrypt = true → cipher.Lawful)
    (hn : 4 * n + 3 < (pushed cipher memory props events).length)
    (hsize : ∀ k < audioDataShards,
      (dataPacket (pushed cipher memory props events) (4 * n + k)).length = size)
    (hlo : lo ≤ 4 * n) (hhi : 4 * n + 4 ≤ lo + 2 ^ 16)
    (harr : InWindow (pushed cipher memory props events) lo arrived)
    (hlost : ((blockPackets (pushed cipher memory props events) n).filter
      (· ∉ arrived)).length ≤ 2) (wrk : Mem) :
    ∃ payloads, recoverBlock wrk arrived (4 * n % 2 ^ 16) = some payloads ∧
      payloads.length = audioDataShards ∧
      ∀ k < audioDataShards, ∃ list source,
        (pushedFrom cipher memory props events)[4 * n + k]? = some (list, source) ∧
        openPayload cipher props.encrypt source.aesKey source.aesIv ((4 * n + k) % 2 ^ 16)
          (payloads.getD k []) = some source.inbuf := by
  obtain ⟨pay, htracks, hread⟩ := @readable_pushedFrom cipher memory props events hcipher
  rw [← map_fst_pushedFrom] at hn hsize harr hlost
  have hn' : 4 * n + 3 < (pushedFrom cipher memory props events).length := by
    rwa [List.length_map] at hn
  refine ⟨_, recoverBlock_eq_some htracks hread harr hlo hhi hn' hsize hlost wrk,
    by rw [blockData, lastFour, List.length_map, List.length_map, List.length_range],
    fun k hk => ?_⟩
  have hk4 : k < 4 := hk
  have hlt : 4 * n + k < (pushedFrom cipher memory props events).length := by omega
  refine ⟨_, _, List.getElem?_eq_getElem hlt, ?_⟩
  have hpayload : (blockData ((pushedFrom cipher memory props events).map Prod.fst) n).getD k [] =
      payload (dataPacket ((pushedFrom cipher memory props events).map Prod.fst) (4 * n + k)) := by
    rw [blockData, lastFour, List.map_map, List.getD_eq_getElem?_getD, List.getElem?_map,
      List.getElem?_range hk, Option.map_some, Option.getD_some, Function.comp_apply,
      show 4 * n + 3 + k - 3 = 4 * n + k by omega]
  rw [hpayload]
  exact hread.opens (List.getElem?_eq_getElem hlt)

end Run

/-! ### A block across a resume -/

/-- The session is encrypted under the pair of the launch. -/
def launchedProperties : Properties where
  packetDuration := 5
  encrypt := true
  aesKey := launchPair.rikey
  aesIv := launchPair.rikeyid.text
  packetDuration_le := plainProperties.packetDuration_le

/-- Two packets, a resume, and two more. -/
def resumedEvents : List PayEvent :=
  [.generateOutput [1], .generateOutput [2], .setAesKey resumePair.rikey,
    .setAesIv resumePair.rikeyid.text, .generateOutput [3], .generateOutput [4]]

/-- AES-CBC on the four packets. -/
def blockCipher : Cipher :=
  .captured
    [⟨hexToStr launchPair.rikey true, receiverIv launchPair.rikeyid 0, [1],
        beBytes 16 0xf8e37368d05f601e18ec295fb3c4392c⟩,
      ⟨hexToStr launchPair.rikey true, receiverIv launchPair.rikeyid 1, [2],
        beBytes 16 0x0fe4c724eb2c6513d3a8a9f36356f50f⟩,
      ⟨hexToStr resumePair.rikey true, receiverIv resumePair.rikeyid 2, [3],
        beBytes 16 0x3fe5783ba63dd111c7d387d8df6cfe2f⟩,
      ⟨hexToStr resumePair.rikey true, receiverIv resumePair.rikeyid 3, [4],
        beBytes 16 0x9cca18f68442078449758a72da1a0b19⟩]

theorem blockCipher_lawful : blockCipher.Lawful :=
  lawful_captured (by decide +kernel) (by decide +kernel)

/-- What is pushed. -/
def resumedBlock : List (List Bytes) := pushed blockCipher .zero launchedProperties resumedEvents

/-- The second and the third packet, one under the keys of the launch and one under those of the
resume, are lost. -/
theorem pushed_delivered_twoLost :
    ∃ payloads, recoverBlock (fun _ => 0)
        (resumedBlock.flatten.reverse.filter fun d => seq d ≠ 1 ∧ seq d ≠ 2) 0 = some payloads ∧
      openPayload blockCipher true (hexToStr launchPair.rikey true) launchPair.rikeyid.text 1
        (payloads.getD 1 []) = some [2] ∧
      openPayload blockCipher true (hexToStr resumePair.rikey true) resumePair.rikeyid.text 2
        (payloads.getD 2 []) = some [3] := by
  have hsources : (pushedFrom blockCipher .zero launchedProperties resumedEvents).map
      (fun r => (r.2.aesKey, r.2.aesIv, r.2.inbuf)) =
        [(hexToStr launchPair.rikey true, launchPair.rikeyid.text, [1]),
          (hexToStr launchPair.rikey true, launchPair.rikeyid.text, [2]),
          (hexToStr resumePair.rikey true, resumePair.rikeyid.text, [3]),
          (hexToStr resumePair.rikey true, resumePair.rikeyid.text, [4])] := by
    decide +kernel
  obtain ⟨payloads, hrec, -, hopen⟩ := @pushed_delivered blockCipher .zero launchedProperties
    resumedEvents 0 0 28
    (resumedBlock.flatten.reverse.filter fun d => seq d ≠ 1 ∧ seq d ≠ 2)
    (fun _ => blockCipher_lawful) (by decide +kernel) (by decide +kernel) le_rfl (by decide)
    ⟨fun d hd => by
      obtain ⟨list, hlist, hmem⟩ := List.mem_flatten.mp
        (List.mem_reverse.mp (List.mem_of_mem_filter hd))
      obtain ⟨j, hj⟩ := List.mem_iff_getElem?.mp hlist
      have hlt : j < 4 := (List.getElem?_eq_some_iff.mp hj).1.trans_eq (by decide +kernel)
      exact ⟨j, Nat.zero_le j, hlt.trans (by decide), by
        rwa [← resumedBlock, List.getD_eq_getElem?_getD, hj, Option.getD_some]⟩⟩
    (by decide +kernel) (fun _ => 0)
  have hopens : ∀ k < audioDataShards, ∀ key iv inbuf,
      ((pushedFrom blockCipher .zero launchedProperties resumedEvents).map
        fun r => (r.2.aesKey, r.2.aesIv, r.2.inbuf))[k]? = some (key, iv, inbuf) →
      openPayload blockCipher true key iv k (payloads.getD k []) = some inbuf := by
    intro k hk key iv inbuf hkey
    obtain ⟨list, source, hsource, hpayload⟩ := hopen k hk
    rw [Nat.mul_zero, Nat.zero_add] at hsource hpayload
    rw [List.getElem?_map, hsource, Option.map_some, Option.some.injEq, Prod.mk.injEq,
      Prod.mk.injEq] at hkey
    obtain ⟨rfl, rfl, rfl⟩ := hkey
    rwa [Nat.mod_eq_of_lt (hk.trans (by decide))] at hpayload
  rw [hsources] at hopens
  exact ⟨payloads, hrec, hopens 1 (by decide) _ _ _ rfl, hopens 2 (by decide) _ _ _ rfl⟩

end SteamStream.Audio
