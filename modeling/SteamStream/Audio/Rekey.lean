import SteamStream.Audio.FecBlock
import SteamStream.Rest.Launch

/-!
# The audio key across a resume

A resume gives the session a new key and `rikeyid` together, and the next `PLAY` has `retarget`
push them into the element: it copies both under the session's lock, then sets `aes_key` and
`aes_iv` one after the other, while the streaming thread makes packets. A packet reads `aes_iv`
(`derive_iv`) before it reads `aes_key` (`encrypt_payload`), so there are four points on two
threads, and `rekeySystem` has an event for each.

A packet can be decrypted when what it has read was supplied together (`KeyMatches`). A schedule
that starts no packet between the two sets, and sets no key during a packet, meets that throughout
(`Exclusive.along`); nothing in the source enforces one.
-/

namespace SteamStream.Audio

open Wire CText Crypto Runs Rest Session

/-! ### Keys -/

/-- A `rikeyid` as a client sends it: a signed or unsigned 32-bit number in decimal. -/
@[ext]
structure Rikeyid where
  negative : Bool
  digits : Bytes
  digits_ne_nil : digits ≠ []
  isDigit : ∀ c ∈ digits, isDigit c = true
  bound : if negative then digitsValue digits ≤ 2 ^ 31 else digitsValue digits < 2 ^ 32

instance : DecidableEq Rikeyid := fun _ _ => decidable_of_iff _ Rikeyid.ext_iff.symm

namespace Rikeyid

/-- The text in the query. -/
def text (id : Rikeyid) : Bytes := sign id.negative ++ id.digits

/-- The number. -/
def value (id : Rikeyid) : ℤ :=
  if id.negative then -(digitsValue id.digits : ℤ) else digitsValue id.digits

theorem text_ne_nil (id : Rikeyid) : id.text ≠ [] :=
  List.append_ne_nil_of_right_ne_nil _ id.digits_ne_nil

theorem stoul_text (id : Rikeyid) : stoul id.text = some (id.value % 2 ^ 64).toNat := by
  refine stoul_digits id.negative id.digits_ne_nil id.isDigit ?_
  have hbound := id.bound
  split_ifs at hbound
  · exact hbound.trans_lt (by decide)
  · exact hbound.trans (by decide)

end Rikeyid

/-- What one `/launch` or `/resume` supplies. -/
structure KeyPair where
  rikey : Bytes
  rikeyid : Rikeyid
  deriving DecidableEq

/-- The IV a receiver uses for the packet with that sequence number. -/
def receiverIv (id : Rikeyid) (seq : ℕ) : Bytes :=
  beBytes 4 ((id.value + seq) % 2 ^ 32).toNat ++ List.replicate 12 0

/-- The sum is the same, whether it is truncated before or after. -/
theorem deriveIv_text (id : Rikeyid) (seq : ℕ) :
    deriveIv id.text seq = some (receiverIv id seq) := by
  have hsum : (UInt32.ofNat (id.value % 2 ^ 64).toNat + UInt32.ofNat seq).toNat % 256 ^ 4 =
      ((id.value + seq) % 2 ^ 32).toNat % 256 ^ 4 := by
    rw [UInt32.toNat_add, UInt32.toNat_ofNat', UInt32.toNat_ofNat']
    change _ % 2 ^ 32 = _ % 2 ^ 32
    omega
  rw [deriveIv, inputIv, id.stoul_text, Option.map_some, Option.map_some, beBytes_congr hsum,
    receiverIv]

/-! ### Threads -/

/-- Where `retarget` is. -/
inductive RetargetPc
  | idle
  /-- It has copied the keys of the session. -/
  | copied (key iv : Bytes)
  /-- It has set `aes_key`. -/
  | keySet (iv : Bytes)
  deriving DecidableEq

/-- One of the two properties is set. -/
def RetargetPc.betweenSets : RetargetPc → Bool
  | .keySet _ => true
  | .idle | .copied _ _ => false

/-- Where the streaming thread is. -/
inductive PacketPc
  | idle
  /-- `derive_iv` has returned; `aesIv` is what it read. -/
  | derived (inbuf aesIv derivedIv : Bytes)
  deriving DecidableEq

/-- The session's keys, the element, and the two threads. `supplied` is what the session has been
supplied with so far. -/
structure RekeyState where
  aesKey : Bytes
  aesIv : Bytes
  pay : GstRtpMoonlightPayAudio
  retarget : RetargetPc
  packet : PacketPc
  supplied : List KeyPair

/-- What happens. -/
inductive RekeyEvent
  /-- The HTTPS thread handles a `/resume`. -/
  | resume (pair : KeyPair)
  /-- `retarget` copies the keys, under the lock they are written under. -/
  | copyKeys
  /-- `g_object_set`, first property. -/
  | setKey
  /-- `g_object_set`, second property. -/
  | setIv
  /-- `create_rtp_audio_buffer` begins: `derive_iv`. -/
  | deriveIv (inbuf : Bytes)
  /-- `encrypt_payload`, and the rest of `split_into_rtp`. -/
  | encryptPayload
  deriving DecidableEq

/-- What `/resume` leaves in a session: the keys of the query, unless one of them is empty. -/
def capture (held : Bytes × Bytes) (newKey newIv : Bytes) : Bytes × Bytes :=
  if newKey ≠ [] ∧ newIv ≠ [] then (newKey, newIv) else held

/-- That is what the handler does to the session object. -/
theorem captureKey_capture {reg : SessionRegistry} {sess : SessionRef} {headers : Query}
    (h : sess < reg.objects.length) :
    (((captureKey reg sess headers).object sess).aesKey,
      ((captureKey reg sess headers).object sess).aesIv) =
    capture ((reg.object sess).aesKey, (reg.object sess).aesIv)
      ((getHeader headers "rikey").getD []) ((getHeader headers "rikeyid").getD []) := by
  unfold captureKey capture
  dsimp only
  split_ifs
  · rw [SessionRegistry.object_modify_self h]
  · rfl

section System

variable (cipher : Cipher)

/-- One event; `none` when it cannot happen, or when the call does not return. -/
def rekeyStep (s : RekeyState) : RekeyEvent → Option RekeyState
  | .resume pair =>
    let held := capture (s.aesKey, s.aesIv) pair.rikey pair.rikeyid.text
    some { s with aesKey := held.1, aesIv := held.2, supplied := s.supplied ++ [pair] }
  | .copyKeys =>
    match s.retarget with
    | .idle =>
      if s.aesKey = [] then none else some { s with retarget := .copied s.aesKey s.aesIv }
    | _ => none
  | .setKey =>
    match s.retarget with
    | .copied key iv => some { s with pay := s.pay.setAesKey key, retarget := .keySet iv }
    | _ => none
  | .setIv =>
    match s.retarget with
    | .keySet iv => some { s with pay := s.pay.setAesIv iv, retarget := .idle }
    | _ => none
  | .deriveIv inbuf =>
    match s.packet with
    | .idle =>
      if s.pay.encrypt then
        (Audio.deriveIv s.pay.aesIv s.pay.curSeqNumber.toNat).map fun derivedIv =>
          { s with packet := .derived inbuf s.pay.aesIv derivedIv }
      else none
    | _ => none
  | .encryptPayload =>
    match s.packet with
    | .derived inbuf _ derivedIv =>
      (pushRtp s.pay (createRtpHeader s.pay ++
        encryptPayload cipher s.pay.aesKey derivedIv inbuf)).map fun r =>
          { s with pay := r.1, packet := .idle }
    | .idle => none

/-- A session is launched with a pair, and its pipeline is built. -/
def rekeySystem (memory : PacketsBuffer) (duration : ℕ) (hduration : duration ≤ 60)
    (launch : KeyPair) : System RekeyState RekeyEvent where
  init :=
    { aesKey := launch.rikey
      aesIv := launch.rikeyid.text
      pay := .start memory
        { packetDuration := duration, encrypt := true, aesKey := launch.rikey,
          aesIv := launch.rikeyid.text, packetDuration_le := hduration }
      retarget := .idle
      packet := .idle
      supplied := [launch] }
  step := rekeyStep cipher

/-- The data packet an event emits, and the Opus packet it was made from. -/
def emitted (s : RekeyState) : RekeyEvent → Option (Bytes × Bytes)
  | .encryptPayload =>
    match s.packet with
    | .derived inbuf _ derivedIv =>
      (pushRtp s.pay (createRtpHeader s.pay ++
        encryptPayload cipher s.pay.aesKey derivedIv inbuf)).map fun r => (r.2.headD [], inbuf)
    | .idle => none
  | _ => none

/-- The packet decrypts to its input under a pair that was supplied together. -/
def Decrypts (supplied : List KeyPair) (packet inbuf : Bytes) : Prop :=
  ∃ pair ∈ supplied, cipher.aesDecryptCbc (payload packet) (hexToStr pair.rikey true)
    (receiverIv pair.rikeyid (seq packet)) = some inbuf

instance (supplied : List KeyPair) (packet inbuf : Bytes) :
    Decidable (Decrypts cipher supplied packet inbuf) :=
  inferInstanceAs (Decidable (∃ pair ∈ supplied, _))

/-- Whatever the event emits can be decrypted. -/
def EmitsDecryptable (s : RekeyState) (event : RekeyEvent) : Prop :=
  ∀ out ∈ emitted cipher s event, Decrypts cipher s.supplied out.1 out.2

instance (s : RekeyState) (event : RekeyEvent) : Decidable (EmitsDecryptable cipher s event) :=
  inferInstanceAs (Decidable (∀ out ∈ emitted cipher s event, _))

/-- Decryption inverts encryption under the same key and IV. -/
def Cipher.Lawful : Prop :=
  ∀ msg key iv, cipher.aesDecryptCbc (cipher.aesEncryptCbc msg key iv) key iv = some msg

end System

/-- When a packet reads the key, the key it finds and the `rikeyid` it has read were supplied
together. -/
def KeyMatches (s : RekeyState) (event : RekeyEvent) : Prop :=
  event = .encryptPayload → ∀ inbuf aesIv derivedIv, s.packet = .derived inbuf aesIv derivedIv →
    ∃ pair ∈ s.supplied, hexToStr pair.rikey true = s.pay.aesKey ∧
      inputIv pair.rikeyid.text = inputIv aesIv

/-- No packet is begun between the two sets of `retarget`, and no key is set during a packet. -/
def Exclusive (s : RekeyState) : RekeyEvent → Prop
  | .deriveIv _ => s.retarget.betweenSets = false
  | .setKey => s.packet = .idle
  | .resume _ | .copyKeys | .setIv | .encryptPayload => True

instance (s : RekeyState) : DecidablePred (Exclusive s)
  | .deriveIv _ => inferInstanceAs (Decidable (_ = false))
  | .setKey => inferInstanceAs (Decidable (s.packet = .idle))
  | .resume _ | .copyKeys | .setIv | .encryptPayload => inferInstanceAs (Decidable True)

/-! ### Steps -/

section Steps

variable {cipher : Cipher} {memory : PacketsBuffer} {duration : ℕ} {hduration : duration ≤ 60}
  {launch : KeyPair} {s s' : RekeyState} {event : RekeyEvent}

/-- What an event does to the threads and the element. -/
inductive StepKind (s s' : RekeyState) : RekeyEvent → Prop
  | resume (pair : KeyPair) : s'.pay = s.pay → s'.retarget = s.retarget → s'.packet = s.packet →
      s'.supplied = s.supplied ++ [pair] →
      (s'.aesKey, s'.aesIv) = capture (s.aesKey, s.aesIv) pair.rikey pair.rikeyid.text →
      StepKind s s' (.resume pair)
  | copyKeys : s.retarget = .idle → s' = { s with retarget := .copied s.aesKey s.aesIv } →
      StepKind s s' .copyKeys
  | setKey (key iv : Bytes) : s.retarget = .copied key iv →
      s' = { s with pay := s.pay.setAesKey key, retarget := .keySet iv } → StepKind s s' .setKey
  | setIv (iv : Bytes) : s.retarget = .keySet iv →
      s' = { s with pay := s.pay.setAesIv iv, retarget := .idle } → StepKind s s' .setIv
  | deriveIv (inbuf derivedIv : Bytes) :
      Audio.deriveIv s.pay.aesIv s.pay.curSeqNumber.toNat = some derivedIv →
      s' = { s with packet := .derived inbuf s.pay.aesIv derivedIv } →
      StepKind s s' (.deriveIv inbuf)
  | encryptPayload (pay : GstRtpMoonlightPayAudio) : pay.aesKey = s.pay.aesKey →
      pay.aesIv = s.pay.aesIv → s' = { s with pay := pay, packet := .idle } →
      StepKind s s' .encryptPayload

theorem aesKey_of_pushRtp {pay pay' : GstRtpMoonlightPayAudio} {buf : Bytes} {list : List Bytes}
    (h : pushRtp pay buf = some (pay', list)) :
    pay'.aesKey = pay.aesKey ∧ pay'.aesIv = pay.aesIv := by
  unfold pushRtp at h
  split_ifs at h
  rw [Option.some.injEq, Prod.mk.injEq] at h
  obtain ⟨rfl, -⟩ := h
  exact ⟨rfl, rfl⟩

theorem stepKind_of_step (h : rekeyStep cipher s event = some s') : StepKind s s' event := by
  cases event with
  | resume pair =>
    obtain rfl := Option.some.inj h
    exact .resume pair rfl rfl rfl rfl rfl
  | copyKeys =>
    simp only [rekeyStep] at h
    split at h
    · rename_i hpc
      split_ifs at h
      exact .copyKeys hpc (Option.some.inj h).symm
    · cases h
  | setKey =>
    simp only [rekeyStep] at h
    split at h
    · rename_i key iv hpc
      exact .setKey key iv hpc (Option.some.inj h).symm
    · cases h
  | setIv =>
    simp only [rekeyStep] at h
    split at h
    · rename_i iv hpc
      exact .setIv iv hpc (Option.some.inj h).symm
    · cases h
  | deriveIv inbuf =>
    simp only [rekeyStep] at h
    split at h
    · split_ifs at h
      obtain ⟨derivedIv, hderived, rfl⟩ := Option.map_eq_some_iff.mp h
      exact .deriveIv inbuf derivedIv hderived rfl
    · cases h
  | encryptPayload =>
    simp only [rekeyStep] at h
    split at h
    · obtain ⟨⟨pay, list⟩, hpush, rfl⟩ := Option.map_eq_some_iff.mp h
      obtain ⟨hkey, hiv⟩ := aesKey_of_pushRtp hpush
      exact .encryptPayload pay hkey hiv rfl
    · cases h

/-- A packet under way carries the IV of its number. -/
def IvCurrent (s : RekeyState) : Prop :=
  ∀ inbuf aesIv derivedIv, s.packet = .derived inbuf aesIv derivedIv →
    deriveIv aesIv s.pay.curSeqNumber.toNat = some derivedIv

theorem ivCurrent_isInvariant :
    System.IsInvariant (rekeySystem cipher memory duration hduration launch) IvCurrent where
  init := nofun
  step {s s' event} hs h := by
    cases stepKind_of_step h with
    | resume pair hpay _ hpacket _ _ =>
      intro inbuf aesIv derivedIv hpc
      rw [hpay]
      exact hs inbuf aesIv derivedIv (hpacket ▸ hpc)
    | copyKeys _ hs' => exact hs' ▸ hs
    | setKey key iv _ hs' => exact hs' ▸ hs
    | setIv iv _ hs' => exact hs' ▸ hs
    | deriveIv inbuf derivedIv hderived hs' =>
      subst hs'
      intro _ _ _ hpc
      obtain ⟨rfl, rfl, rfl⟩ := PacketPc.derived.inj hpc
      exact hderived
    | encryptPayload pay _ _ hs' =>
      subst hs'
      exact nofun

/-- A packet whose key and IV belong together can be decrypted. -/
theorem emitsDecryptable_of_keyMatches (hcipher : cipher.Lawful) (hs : IvCurrent s)
    (hmatch : KeyMatches s event) : EmitsDecryptable cipher s event := by
  intro out hout
  cases event with
  | encryptPayload =>
    simp only [emitted] at hout
    split at hout
    · rename_i inbuf aesIv derivedIv hpc
      obtain ⟨⟨pay, list⟩, hpush, rfl⟩ := Option.map_eq_some_iff.mp hout
      obtain ⟨pair, hpair, hkey, htext⟩ := hmatch rfl inbuf aesIv derivedIv hpc
      have hiv := hs inbuf aesIv derivedIv hpc
      rw [deriveIv, ← htext, ← deriveIv, deriveIv_text, Option.some.injEq] at hiv
      have hpacket := (pushedBuf_of_pushRtp hpush).packets
      refine ⟨pair, hpair, ?_⟩
      rw [hpacket, List.headD_cons, seq_createRtpHeader, hiv, hkey, payload,
        List.drop_left' length_createRtpHeader, encryptPayload]
      exact hcipher inbuf s.pay.aesKey derivedIv
    · cases hout
  | _ => cases hout

/-- **Audio packets stay decryptable across a resume** in every run in which no packet reads a key
and a `rikeyid` that were not supplied together. -/
theorem along_emitsDecryptable {events : List RekeyEvent} (hcipher : cipher.Lawful)
    (h : (rekeySystem cipher memory duration hduration launch).Along KeyMatches
      (rekeySystem cipher memory duration hduration launch).init events) :
    (rekeySystem cipher memory duration hduration launch).Along (EmitsDecryptable cipher)
      (rekeySystem cipher memory duration hduration launch).init events := by
  have hinv : System.IsInvariantUnder (rekeySystem cipher memory duration hduration launch)
      KeyMatches IvCurrent :=
    ⟨ivCurrent_isInvariant.init, fun hs _ hstep => ivCurrent_isInvariant.step hs hstep⟩
  exact hinv.along (fun _ _ hs hmatch => emitsDecryptable_of_keyMatches hcipher hs hmatch)
    hinv.init h

/-! ### Schedules -/

/-- What is held where, under an exclusive schedule. -/
structure Together (s : RekeyState) : Prop where
  session : ∃ pair ∈ s.supplied, pair.rikey = s.aesKey ∧ pair.rikeyid.text = s.aesIv
  copied : ∀ key iv, s.retarget = .copied key iv →
    ∃ pair ∈ s.supplied, pair.rikey = key ∧ pair.rikeyid.text = iv
  keySet : ∀ iv, s.retarget = .keySet iv →
    ∃ pair ∈ s.supplied, hexToStr pair.rikey true = s.pay.aesKey ∧ pair.rikeyid.text = iv
  element : s.retarget.betweenSets = false →
    ∃ pair ∈ s.supplied, hexToStr pair.rikey true = s.pay.aesKey ∧
      pair.rikeyid.text = s.pay.aesIv
  packet : ∀ inbuf aesIv derivedIv, s.packet = .derived inbuf aesIv derivedIv →
    ∃ pair ∈ s.supplied, hexToStr pair.rikey true = s.pay.aesKey ∧
      inputIv pair.rikeyid.text = inputIv aesIv

theorem together_isInvariantUnder :
    System.IsInvariantUnder (rekeySystem cipher memory duration hduration launch) Exclusive
      Together where
  init := by
    have hlaunch : launch ∈ [launch] := List.mem_singleton_self launch
    exact ⟨⟨launch, hlaunch, rfl, rfl⟩, nofun, nofun, fun _ => ⟨launch, hlaunch, rfl, rfl⟩, nofun⟩
  step {s s' event} hs hexclusive h := by
    cases stepKind_of_step h with
    | resume pair hpay hretarget hpacket hsupplied hkeys =>
      have hmono : ∀ {P : KeyPair → Prop}, (∃ pair ∈ s.supplied, P pair) →
          ∃ pair ∈ s'.supplied, P pair := fun ⟨old, hold, hP⟩ =>
        ⟨old, hsupplied ▸ List.mem_append_left _ hold, hP⟩
      refine ⟨?_, ?_, ?_, ?_, ?_⟩
      · unfold capture at hkeys
        split_ifs at hkeys
        · obtain ⟨hkey, hiv⟩ := Prod.mk.inj hkeys
          exact ⟨pair, hsupplied ▸ List.mem_append_right _ (List.mem_singleton_self pair),
            hkey.symm, hiv.symm⟩
        · obtain ⟨hkey, hiv⟩ := Prod.mk.inj hkeys
          rw [hkey, hiv]
          exact hmono hs.session
      · exact fun key iv hpc => hmono (hs.copied key iv (hretarget ▸ hpc))
      · rw [hpay]
        exact fun iv hpc => hmono (hs.keySet iv (hretarget ▸ hpc))
      · rw [hpay, hretarget]
        exact fun hpc => hmono (hs.element hpc)
      · rw [hpay, hpacket]
        exact fun inbuf aesIv derivedIv hpc => hmono (hs.packet inbuf aesIv derivedIv hpc)
    | copyKeys hpc hs' =>
      subst hs'
      have hpay := hs.element (by rw [hpc]; rfl)
      refine ⟨hs.session, fun key iv hiv => ?_, nofun, fun _ => hpay, hs.packet⟩
      obtain ⟨rfl, rfl⟩ := RetargetPc.copied.inj hiv
      exact hs.session
    | setKey key iv hpc hs' =>
      subst hs'
      have hidle : s.packet = .idle := hexclusive
      obtain ⟨pair, hpair, rfl, rfl⟩ := hs.copied key iv hpc
      exact ⟨hs.session, nofun, fun iv hiv => ⟨pair, hpair, rfl, RetargetPc.keySet.inj hiv⟩,
        nofun, by simp [hidle]⟩
    | setIv iv hpc hs' =>
      subst hs'
      have hset := hs.keySet iv hpc
      exact ⟨hs.session, nofun, nofun, fun _ => hset, hs.packet⟩
    | deriveIv inbuf derivedIv hderived hs' =>
      subst hs'
      have hpay := hs.element hexclusive
      refine ⟨hs.session, hs.copied, hs.keySet, hs.element, ?_⟩
      intro _ _ _ hpc
      obtain ⟨rfl, rfl, rfl⟩ := PacketPc.derived.inj hpc
      obtain ⟨pair, hpair, hkey, htext⟩ := hpay
      exact ⟨pair, hpair, hkey, congrArg inputIv htext⟩
    | encryptPayload pay hkey hiv hs' =>
      subst hs'
      refine ⟨hs.session, hs.copied, ?_, ?_, nofun⟩
      · rw [hkey]
        exact hs.keySet
      · rw [hkey, hiv]
        exact hs.element

/-- Under an exclusive schedule no packet reads keys of different pairs. -/
theorem Exclusive.along {events : List RekeyEvent}
    (h : (rekeySystem cipher memory duration hduration launch).Along Exclusive
      (rekeySystem cipher memory duration hduration launch).init events) :
    (rekeySystem cipher memory duration hduration launch).Along KeyMatches
      (rekeySystem cipher memory duration hduration launch).init events :=
  together_isInvariantUnder.along (Q := KeyMatches) (fun _ _ hs _ _ => hs.packet)
    together_isInvariantUnder.init h

end Steps

/-! ### Captured values of AES-CBC -/

/-- A message, and what it is encrypted to under a key and an IV. -/
structure CapturedBlock where
  key : Bytes
  iv : Bytes
  msg : Bytes
  encrypted : Bytes
  deriving DecidableEq, Repr

/-- AES-CBC on captured values, and some code on everything else. -/
def Cipher.captured (blocks : List CapturedBlock) : Cipher where
  aesEncryptCbc msg key iv :=
    match blocks.find? fun b => b.key = key ∧ b.iv = iv ∧ b.msg = msg with
    | some b => b.encrypted
    | none => 0 :: msg
  aesDecryptCbc encrypted key iv :=
    match blocks.find? fun b => b.key = key ∧ b.iv = iv ∧ b.encrypted = encrypted with
    | some b => some b.msg
    | none => if encrypted.head? = some 0 then some encrypted.tail else none

/-- Decryption inverts encryption if it does so on the captured values. -/
theorem lawful_captured {blocks : List CapturedBlock}
    (hinj : ∀ b ∈ blocks, ∀ b' ∈ blocks,
      b.key = b'.key → b.iv = b'.iv → b.encrypted = b'.encrypted → b.msg = b'.msg)
    (hhead : ∀ b ∈ blocks, b.encrypted.head? ≠ some 0) : (Cipher.captured blocks).Lawful := by
  intro msg key iv
  simp only [Cipher.captured]
  cases henc : blocks.find? fun b => b.key = key ∧ b.iv = iv ∧ b.msg = msg with
  | some b =>
    have hb := List.find?_some henc
    simp only [decide_eq_true_eq] at hb
    obtain ⟨rfl, rfl, rfl⟩ := hb
    have hmem := List.mem_of_find?_eq_some henc
    cases hdec : blocks.find? fun b' =>
      b'.key = b.key ∧ b'.iv = b.iv ∧ b'.encrypted = b.encrypted with
    | none => exact absurd (List.find?_eq_none.mp hdec b hmem) (by simp)
    | some b' =>
      have hb' := List.find?_some hdec
      simp only [decide_eq_true_eq] at hb'
      exact congrArg some
        (hinj b' (List.mem_of_find?_eq_some hdec) b hmem hb'.1 hb'.2.1 hb'.2.2)
  | none =>
    -- no captured value begins with the zero
    have hdec : (blocks.find? fun b => b.key = key ∧ b.iv = iv ∧ b.encrypted = 0 :: msg) = none := by
      rw [List.find?_eq_none]
      intro b hmem hb
      simp only [decide_eq_true_eq] at hb
      exact hhead b hmem (by rw [hb.2.2]; rfl)
    simp only [hdec]
    rfl

/-! ### A resume during a stream -/

/-- The pair of the launch. -/
def launchPair : KeyPair where
  rikey := ascii "000102030405060708090a0b0c0d0e0f"
  rikeyid := ⟨false, ascii "0", by decide, by decide +kernel, by decide⟩

/-- The pair of the resume. -/
def resumePair : KeyPair where
  rikey := ascii "9d804e47a6aa6624b7d4b502b32cc522"
  rikeyid := ⟨false, ascii "16909060", by decide, by decide +kernel, by decide⟩

/-- An Opus packet. -/
def opusPacket : Bytes := [0xfc, 0x7f, 0x10, 0x20, 0x30, 0x40, 0x50, 0x60, 0x70, 0x80]

/-- What AES-CBC makes of it under the new key and the old `rikeyid`. -/
def tornPayload : Bytes :=
  [0xf4, 0xa9, 0x79, 0x75, 0x3a, 0x4b, 0xa2, 0xe5, 0xa9, 0x30, 0x02, 0x05, 0x06, 0xbe, 0xea, 0x54]

/-- And under the key and `rikeyid` of the resume. -/
def resumedPayload : Bytes :=
  [0x6c, 0x0a, 0x05, 0x9f, 0x94, 0x6b, 0x35, 0xac, 0x0b, 0x8f, 0x46, 0xdd, 0x6a, 0x87, 0x45, 0x44]

/-- What AES-CBC reads from either with the `rikeyid` of the other. -/
def garbledPacket : Bytes := [0xfd, 0x7d, 0x13, 0x24, 0x30, 0x40, 0x50, 0x60, 0x70, 0x80]

/-- AES-CBC on the two payloads, which is none of the launched key. -/
def capturedCipher : Cipher :=
  .captured
    [⟨hexToStr resumePair.rikey true, receiverIv launchPair.rikeyid 0, opusPacket, tornPayload⟩,
      ⟨hexToStr resumePair.rikey true, receiverIv launchPair.rikeyid 0, garbledPacket,
        resumedPayload⟩,
      ⟨hexToStr resumePair.rikey true, receiverIv resumePair.rikeyid 0, opusPacket,
        resumedPayload⟩,
      ⟨hexToStr resumePair.rikey true, receiverIv resumePair.rikeyid 0, garbledPacket,
        tornPayload⟩]

theorem capturedCipher_lawful : capturedCipher.Lawful :=
  lawful_captured (by decide +kernel) (by decide +kernel)

/-- A resume, then a packet after its `retarget`. -/
theorem emitsDecryptable_afterRetarget :
    (rekeySystem capturedCipher .zero 5 (by decide) launchPair).Along
      (EmitsDecryptable capturedCipher)
      (rekeySystem capturedCipher .zero 5 (by decide) launchPair).init
      [.resume resumePair, .copyKeys, .setKey, .setIv, .deriveIv opusPacket, .encryptPayload] :=
  along_emitsDecryptable capturedCipher_lawful (Exclusive.along (by decide +kernel))

/-- A packet between the two sets of `retarget`. -/
theorem not_emitsDecryptable_betweenSets :
    ¬ (rekeySystem capturedCipher .zero 5 (by decide) launchPair).Along
      (EmitsDecryptable capturedCipher)
      (rekeySystem capturedCipher .zero 5 (by decide) launchPair).init
      [.resume resumePair, .copyKeys, .setKey, .deriveIv opusPacket, .encryptPayload, .setIv] := by
  decide +kernel

end SteamStream.Audio
