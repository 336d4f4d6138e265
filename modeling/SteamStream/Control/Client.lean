import SteamStream.Control.Server

/-!
# The client's side of the control stream

A client fills one of the packed input structs, encrypts it under the key of its session and
sends it in a `ControlEncryptedPacket`. `encryptPacket` is that packing; what AES-GCM does is the
function `seal`, which OpenSSL inverts (`Opens`).

`does_receive` is the round trip: whatever message a client packs, the server that holds the same
key reacts to it with exactly the call the message stands for, and to nothing else. The reactions
of an action are the effects it has outside of reading and printing.
-/

namespace SteamStream.Control

open Wire Session

/-! ### Reactions -/

/-- What handling a packet does to the rest of the server. -/
inductive Reaction
  | input (mm : MediaRef) (call : InputCall)
  | idr (sessionId : ℕ)
  | stop (sessionId : ℕ)
  deriving DecidableEq, Repr

/-- The reaction an effect is, if it is one. -/
def Effect.reaction? : Effect → Option Reaction
  | .input mm call => some (.input mm call)
  | .idr sessionId => some (.idr sessionId)
  | .stop sessionId => some (.stop sessionId)
  | _ => none

/-- The reactions among the effects of an action. -/
def reactions {α : Type} (x : Action α) : List Reaction := x.log.filterMap Effect.reaction?

/-- An action ends with a value and has had the given reactions. -/
structure Does {α : Type} (x : Action α) (a : α) (rs : List Reaction) : Prop where
  result : x.result = .ok a
  reactions : reactions x = rs

section Does

variable {α β : Type} {x : Action α} {f : α → Action β} {a : α} {b : β} {rs : List Reaction}

theorem does_pure : Does (pure a : Action α) a [] := ⟨rfl, rfl⟩

theorem does_emit {e : Effect} : Does (.emit e) () e.reaction?.toList := by
  refine ⟨rfl, ?_⟩
  change [e].filterMap Effect.reaction? = _
  cases h : e.reaction? with
  | none => rw [List.filterMap_cons_none h]; rfl
  | some r => rw [List.filterMap_cons_some h]; rfl

theorem does_loadLE {buf : Buffer} {fld : Field} {bs : Bytes} {n : ℕ} (h : ofLE bs = n)
    (hload : buf.load fld = bs := by rfl) : Does (buf.loadLE fld) n [] := ⟨h ▸ hload ▸ rfl, rfl⟩

theorem does_loadBE {buf : Buffer} {fld : Field} {bs : Bytes} {n : ℕ} (h : ofBE bs = n)
    (hload : buf.load fld = bs := by rfl) : Does (buf.loadBE fld) n [] := ⟨h ▸ hload ▸ rfl, rfl⟩

/-- A first part without reactions leaves them to the rest. -/
theorem Does.bind (hx : Does x a []) (hf : Does (f a) b rs) : Does (x >>= f) b rs where
  result := (Traced.result_bind_ok hx.result).trans hf.result
  reactions := by
    have hlog := congrArg (List.filterMap Effect.reaction?) (Traced.log_bind_ok (f := f) hx.result)
    rw [List.filterMap_append] at hlog
    exact hlog.trans (by
      rw [← Control.reactions, ← Control.reactions, hx.reactions, hf.reactions, List.nil_append])

/-- What is not dispatched is no reaction. -/
theorem does_of_notDispatched (hx : x.result = .ok a) (h : x.All Effect.NotDispatched) :
    Does x a [] := by
  refine ⟨hx, List.filterMap_eq_nil_iff.mpr fun e he => ?_⟩
  have hnot := h e he
  cases e with
  | access | print | handleInput => rfl
  | input | idr | stop => exact hnot.elim

/-- A fault that did not happen is not handled. -/
theorem Does.handle (h : Does x a rs) {handler : Fault → Option (Action α)} :
    Does (x.handle handler) a rs := by rwa [Traced.handle_of_ok h.result]

/-- A call that is asked for is made on the media session, if there is one. -/
def asked : Option MediaRef → Option InputCall → List Reaction
  | some mm, some call => [.input mm call]
  | _, _ => []

theorem asked_none {mm : Option MediaRef} : asked mm none = [] := by
  cases mm <;> rfl

theorem does_onMedia {mm : Option MediaRef} {action : Action InputCall} {call : InputCall}
    (h : Does action call []) : Does (onMedia mm action) () (asked mm (some call)) := by
  cases mm with
  | none => exact does_pure
  | some mm => exact h.bind does_emit

end Does

/-! ### Inputs -/

/-- An input packet, by the members its struct adds to `INPUT_PKT`. -/
inductive ClientInput
  | mouseMoveRel (deltaX deltaY : Int16)
  | mouseMoveAbs (x y unused width height : Int16)
  | mouseButton (pressed : Bool) (button : UInt8)
  | mouseScroll (scrollAmt1 scrollAmt2 zero1 : Int16)
  | mouseHscroll (scrollAmount : Int16)
  | keyboard (pressed : Bool) (flags : UInt8) (keyCode : UInt16) (modifiers : UInt8)
      (zero1 : Int16)
  | controllerArrival (controllerNumber controllerType capabilities : UInt8)
      (supportButtonFlags : UInt32)
  | controllerMulti (headerB controllerNumber activeGamepadMask midB buttonFlags : UInt16)
      (leftTrigger rightTrigger : UInt8) (leftStickX leftStickY rightStickX rightStickY : Int16)
      (tailA buttonFlags2 tailB : UInt16)
  /-- A packet of a type the server does not know, such as a touch or a pen event. -/
  | unhandled (type : UInt32) (ofCode : InputType.ofCode type.toNat = none) (rest : Bytes)

namespace ClientInput

/-- The type an input goes under. -/
def type? : ClientInput → Option InputType
  | mouseMoveRel .. => some .mouseMoveRel
  | mouseMoveAbs .. => some .mouseMoveAbs
  | mouseButton pressed _ => some (if pressed then .mouseButtonPress else .mouseButtonRelease)
  | mouseScroll .. => some .mouseScroll
  | mouseHscroll .. => some .mouseHscroll
  | keyboard pressed .. => some (if pressed then .keyPress else .keyRelease)
  | controllerArrival .. => some .controllerArrival
  | controllerMulti .. => some .controllerMulti
  | unhandled .. => none

/-- The number of that type. -/
def typeCode : ClientInput → ℕ
  | unhandled type _ _ => type.toNat
  | i => (i.type?.map InputType.code).getD 0

/-- A `short`, big-endian. -/
def shortBE (v : Int16) : Bytes := beBytes 2 v.toUInt16.toNat

/-- A `short`, little-endian. -/
def shortLE (v : Int16) : Bytes := leBytes 2 v.toUInt16.toNat

/-- The members of an input, as they lie in its struct. -/
def members : ClientInput → List Bytes
  | mouseMoveRel deltaX deltaY => [shortBE deltaX, shortBE deltaY]
  | mouseMoveAbs x y unused width height =>
    [shortBE x, shortBE y, shortBE unused, shortBE width, shortBE height]
  | mouseButton _ button => [[button]]
  | mouseScroll scrollAmt1 scrollAmt2 zero1 =>
    [shortBE scrollAmt1, shortBE scrollAmt2, shortBE zero1]
  | mouseHscroll scrollAmount => [shortBE scrollAmount]
  | keyboard _ flags keyCode modifiers zero1 =>
    [[flags], leBytes 2 keyCode.toNat, [modifiers], shortLE zero1]
  | controllerArrival controllerNumber controllerType capabilities supportButtonFlags =>
    [[controllerNumber], [controllerType], [capabilities], leBytes 4 supportButtonFlags.toNat]
  | controllerMulti headerB controllerNumber activeGamepadMask midB buttonFlags leftTrigger
      rightTrigger leftStickX leftStickY rightStickX rightStickY tailA buttonFlags2 tailB =>
    [leBytes 2 headerB.toNat, leBytes 2 controllerNumber.toNat, leBytes 2 activeGamepadMask.toNat,
      leBytes 2 midB.toNat, leBytes 2 buttonFlags.toNat, [leftTrigger], [rightTrigger],
      shortLE leftStickX, shortLE leftStickY, shortLE rightStickX, shortLE rightStickY,
      leBytes 2 tailA.toNat, leBytes 2 buttonFlags2.toNat, leBytes 2 tailB.toNat]
  | unhandled _ _ rest => [rest]

/-- The struct of an input. The server reads neither `packet_len` nor `data_size`. -/
def packet (packetLen : UInt16) (dataSize : UInt32) (i : ClientInput) : Bytes :=
  List.flatten (leBytes 2 PacketType.inputData.code :: leBytes 2 packetLen.toNat ::
    leBytes 4 dataSize.toNat :: leBytes 4 i.typeCode :: i.members)

/-- The size of the screen an absolute position is scaled to: that of the negotiated video, or
else the client's own. -/
def outSize (negotiated : ℤ) (client : Int16) : ℤ :=
  if negotiated > 0 then negotiated else client.toInt

/-- The call an input asks for. A position without a reference frame, a key without a code on
Linux and an unknown type ask for none. -/
def call (video : VideoParams) : ClientInput → Option InputCall
  | mouseMoveRel deltaX deltaY => some (.mouseMoveRel deltaX.toInt deltaY.toInt)
  | mouseMoveAbs x y _ width height =>
    if 0 < width.toInt ∧ 0 < height.toInt then
      some (.mouseMoveAbs (scaleAbs x.toInt width.toInt (outSize video.width width))
        (scaleAbs y.toInt height.toInt (outSize video.height height)))
    else none
  | mouseButton pressed button =>
    some (.mouseButton (moonlightButtonToLinux button.toNat) pressed)
  | mouseScroll scrollAmt1 _ _ => some (.mouseAxis 0 (-scrollAmt1.toInt))
  | mouseHscroll scrollAmount => some (.mouseAxis scrollAmount.toInt 0)
  | keyboard pressed _ keyCode _ _ =>
    (keyMappings.lookup (keyCode.toNat % 2 ^ 15)).map fun linuxKey => .keyboardKey linuxKey pressed
  | controllerArrival controllerNumber _ _ _ => some (.gamepadArrival controllerNumber.toNat)
  | controllerMulti _ controllerNumber activeGamepadMask _ buttonFlags leftTrigger rightTrigger
      leftStickX leftStickY rightStickX rightStickY _ _ _ =>
    some (.gamepadUpdate controllerNumber.toNat activeGamepadMask.toNat buttonFlags.toNat
      leftTrigger.toNat rightTrigger.toNat leftStickX.toInt leftStickY.toInt rightStickX.toInt
      rightStickY.toInt)
  | unhandled .. => none

end ClientInput

/-! ### Reading an input -/

theorem signed16_toNat (v : Int16) : signed16 v.toUInt16.toNat = v.toInt := by
  have hint : v.toInt = v.toBitVec.toInt := rfl
  have hnat : v.toBitVec.toNat = v.toUInt16.toNat := rfl
  rw [hint, BitVec.toInt_eq_toNat_cond, signed16, hnat]
  split_ifs <;> first | rfl | omega

theorem ofBE_shortBE (v : Int16) : ofBE (ClientInput.shortBE v) = v.toUInt16.toNat := by
  rw [ClientInput.shortBE, ofBE_beBytes]
  exact Nat.mod_eq_of_lt v.toUInt16.toNat_lt

theorem ofLE_shortLE (v : Int16) : ofLE (ClientInput.shortLE v) = v.toUInt16.toNat := by
  rw [ClientInput.shortLE, ofLE_leBytes]
  exact Nat.mod_eq_of_lt v.toUInt16.toNat_lt

theorem ofLE_leBytes_uint16 (v : UInt16) : ofLE (leBytes 2 v.toNat) = v.toNat := by
  rw [ofLE_leBytes]
  exact Nat.mod_eq_of_lt v.toNat_lt

theorem ofLE_singleton (b : UInt8) : ofLE [b] = b.toNat := Nat.add_zero _

/-- Unmapped keys have a negative code. -/
theorem moonlightKeyToLinux_eq (key : ℕ) :
    (if 0 ≤ moonlightKeyToLinux key then some (moonlightKeyToLinux key).toNat else none) =
      keyMappings.lookup key := by
  unfold moonlightKeyToLinux
  cases keyMappings.lookup key with
  | none => rfl
  | some code => exact (if_pos (Int.natCast_nonneg code)).trans (by rw [Int.toNat_natCast])

namespace ClientInput

variable {packetLen : UInt16} {dataSize : UInt32} {beyond : ℕ → UInt8} {i : ClientInput}

theorem typeCode_of_type? {t : InputType} (h : i.type? = some t) : i.typeCode = t.code := by
  have hcode : i.typeCode = (i.type?.map InputType.code).getD 0 := by
    cases i with
    | unhandled => nomatch h
    | _ => rfl
  rw [hcode, h, Option.map_some, Option.getD_some]

theorem typeCode_lt (i : ClientInput) : i.typeCode < 256 ^ 4 := by
  cases h : i.type? with
  | some t =>
    rw [typeCode_of_type? h]
    cases t <;> decide
  | none =>
    cases i with
    | unhandled type _ _ => exact type.toNat_lt
    | _ => nomatch h

theorem ofCode_typeCode (i : ClientInput) : InputType.ofCode i.typeCode = i.type? := by
  cases h : i.type? with
  | some t => rw [typeCode_of_type? h, InputType.ofCode_code]
  | none =>
    cases i with
    | unhandled _ hofCode _ => exact hofCode
    | _ => nomatch h

/-- The server reads the type the client has written. -/
theorem ofCode_load_type :
    InputType.ofCode (ofLE ((stringBuffer (i.packet packetLen dataSize) beyond).load
      InputPkt.type)) = i.type? := by
  have hload : (stringBuffer (i.packet packetLen dataSize) beyond).load InputPkt.type =
      leBytes 4 i.typeCode := rfl
  rw [hload, ofLE_leBytes, Nat.mod_eq_of_lt i.typeCode_lt, ofCode_typeCode]

end ClientInput

section HandleInput

variable {dev : StreamSession} {mm : Option MediaRef} {packetLen : UInt16} {dataSize : UInt32}
  {beyond : ℕ → UInt8}

open ClientInput

private theorem does_keyboard {pkt : Buffer} {pressed : Bool} {keyCode : UInt16}
    (h : pkt.load KeyboardPacket.keyCode = leBytes 2 keyCode.toNat) :
    Does (handleInput.keyboard pkt mm pressed) ()
      (asked mm ((keyMappings.lookup (keyCode.toNat % 2 ^ 15)).map fun linuxKey =>
        .keyboardKey linuxKey pressed)) := by
  refine (does_loadLE (ofLE_leBytes_uint16 keyCode) h).bind ?_
  rw [← moonlightKeyToLinux_eq]
  dsimp only
  split_ifs
  · exact does_onMedia does_pure
  · exact asked_none ▸ does_pure

/-- **What a client asks for is done**: of an input packet the server makes the one call the
input stands for. -/
theorem does_handleInput (i : ClientInput) :
    Does (handleInput dev (stringBuffer (i.packet packetLen dataSize) beyond) mm) ()
      (asked mm (i.call dev.video)) := by
  refine does_emit.bind ((does_loadLE rfl).bind ?_)
  rw [ofCode_load_type]
  cases i with
  | mouseMoveRel deltaX deltaY =>
    refine does_onMedia ((does_loadBE (ofBE_shortBE deltaX)).bind
      ((does_loadBE (ofBE_shortBE deltaY)).bind ?_))
    rw [signed16_toNat, signed16_toNat]
    exact does_pure
  | mouseMoveAbs x y unused width height =>
    refine (does_loadBE (ofBE_shortBE x)).bind ((does_loadBE (ofBE_shortBE y)).bind
      ((does_loadBE (ofBE_shortBE width)).bind ((does_loadBE (ofBE_shortBE height)).bind ?_)))
    simp only [signed16_toNat, call, outSize]
    split_ifs
    all_goals first
      | exact does_onMedia does_pure
      | exact asked_none ▸ does_pure
  | mouseButton pressed button =>
    cases pressed <;> exact does_onMedia ((does_loadLE (ofLE_singleton button)).bind does_pure)
  | mouseScroll scrollAmt1 scrollAmt2 zero1 =>
    refine does_onMedia ((does_loadBE (ofBE_shortBE scrollAmt1)).bind ?_)
    rw [signed16_toNat]
    exact does_pure
  | mouseHscroll scrollAmount =>
    refine does_onMedia ((does_loadBE (ofBE_shortBE scrollAmount)).bind ?_)
    rw [signed16_toNat]
    exact does_pure
  | keyboard pressed flags keyCode modifiers zero1 =>
    cases pressed <;> exact does_keyboard rfl
  | controllerArrival controllerNumber controllerType capabilities supportButtonFlags =>
    exact does_onMedia ((does_loadLE (ofLE_singleton controllerNumber)).bind does_pure)
  | controllerMulti headerB controllerNumber activeGamepadMask midB buttonFlags leftTrigger
      rightTrigger leftStickX leftStickY rightStickX rightStickY tailA buttonFlags2 tailB =>
    refine does_onMedia ((does_loadLE (ofLE_leBytes_uint16 controllerNumber)).bind
      ((does_loadLE (ofLE_leBytes_uint16 activeGamepadMask)).bind
      ((does_loadLE (ofLE_leBytes_uint16 buttonFlags)).bind
      ((does_loadLE (ofLE_singleton leftTrigger)).bind
      ((does_loadLE (ofLE_singleton rightTrigger)).bind
      ((does_loadLE (ofLE_shortLE leftStickX)).bind ((does_loadLE (ofLE_shortLE leftStickY)).bind
      ((does_loadLE (ofLE_shortLE rightStickX)).bind
      ((does_loadLE (ofLE_shortLE rightStickY)).bind ?_)))))))))
    simp only [signed16_toNat]
    exact does_pure
  | unhandled => exact asked_none ▸ does_pure

end HandleInput

/-! ### Messages -/

/-- What a client sends encrypted. -/
inductive Message
  | input (packetLen : UInt16) (dataSize : UInt32) (i : ClientInput)
  | idrFrame (rest : Bytes)
  | termination (rest : Bytes)
  /-- A packet of a type the server does nothing about, such as a ping or loss statistics. -/
  | other (type : UInt16) (rest : Bytes)
      (unhandled : ∀ t, PacketType.ofCode type.toNat = some t →
        t ≠ .inputData ∧ t ≠ .idrFrame ∧ t ≠ .termination)

namespace Message

/-- The plaintext of a message. -/
def bytes : Message → Bytes
  | input packetLen dataSize i => i.packet packetLen dataSize
  | idrFrame rest => leBytes 2 PacketType.idrFrame.code ++ rest
  | termination rest => leBytes 2 PacketType.termination.code ++ rest
  | other type rest _ => leBytes 2 type.toNat ++ rest

/-- What the server is to do about a message. -/
def reactions (srv : ControlServer) (dev : StreamSession) (media : Option MediaRef) :
    Message → List Reaction
  | input _ _ i => asked (if srv.hasMediaAccessor then media else none) (i.call dev.video)
  | idrFrame _ => if srv.hasIdrCallback then [.idr dev.sessionId] else []
  | termination _ => if srv.hasStopCallback then [.stop dev.sessionId] else []
  | other .. => []

end Message

/-- A message is dispatched to what it asks for. -/
theorem does_dispatch {srv : ControlServer} {dev : StreamSession} {media : Option MediaRef}
    {beyond : ℕ → UInt8} (m : Message) :
    Does (dispatch srv dev (stringBuffer m.bytes beyond) media) ()
      (m.reactions srv dev media) := by
  have hcode : ∀ t : PacketType, ofLE (leBytes 2 t.code) = t.code := by
    intro t
    rw [ofLE_leBytes]
    cases t <;> rfl
  cases m with
  | input packetLen dataSize i =>
    refine (does_loadLE (hcode .inputData)).bind ?_
    rw [PacketType.ofCode_code]
    exact does_handleInput i
  | idrFrame rest =>
    refine (does_loadLE (hcode .idrFrame)).bind ?_
    rw [PacketType.ofCode_code, Message.reactions]
    dsimp only
    split_ifs
    · exact does_emit
    · exact does_pure
  | termination rest =>
    refine (does_loadLE (hcode .termination)).bind ?_
    rw [PacketType.ofCode_code, Message.reactions]
    dsimp only
    split_ifs
    · exact does_emit
    · exact does_pure
  | other type rest hunhandled =>
    refine (does_loadLE (ofLE_leBytes_uint16 type)).bind ?_
    cases ht : PacketType.ofCode type.toNat with
    | none => exact does_pure
    | some t =>
      obtain ⟨hinput, hidr, hstop⟩ := hunhandled t ht
      cases t with
      | inputData => exact absurd rfl hinput
      | idrFrame => exact absurd rfl hidr
      | termination => exact absurd rfl hstop
      | periodicPing | encrypted => exact does_pure

/-! ### Encryption -/

/-- What `crypto::aes_encrypt_gcm` makes of a key, an initialisation vector and a plaintext: the
ciphertext and the tag. -/
abbrev Encryption := Bytes → Bytes → Bytes → Bytes × Bytes

/-- OpenSSL decrypts what it has encrypted, and a tag has sixteen bytes. -/
structure Opens (evp : Evp) (encrypt : Encryption) : Prop where
  update_encrypt : ∀ key iv msg, evp.update key iv (encrypt key iv msg).1 = msg
  length_tag : ∀ key iv msg, (encrypt key iv msg).2.length = gcmTagSize

/-- `MAX_PAYLOAD_SIZE`. -/
def maxPayloadSize : ℕ := 128

/-- `encrypt_packet`. A ciphertext that does not fit `payload` is written past the struct
(`none`). -/
def encryptPacket (encrypt : Encryption) (gcmKeyHex : Bytes) (seq : UInt32) (payload : Bytes) :
    Option Bytes :=
  let iv := UInt8.ofNat seq.toNat :: List.replicate (gcmTagSize - 1) 0
  let (encrypted, tag) := encrypt (packetKey gcmKeyHex) iv payload
  if encrypted.length ≤ maxPayloadSize then
    some ([leBytes 2 PacketType.encrypted.code, leBytes 2 (4 + gcmTagSize + encrypted.length),
      leBytes 4 seq.toNat, tag, encrypted,
      List.replicate (maxPayloadSize - encrypted.length) 0].flatten)
  else none

/-- The size of the part of a packet that is sent, `full_size`. -/
def fullSize (bytes : Bytes) : ℕ := ControlPacket.length.getLE bytes + 4

/-- A received packet holds what was sent of an encrypted one. -/
def Carries (pkt : Buffer) (bytes : Bytes) : Prop :=
  ∃ rest, pkt.bytes = bytes.take (fullSize bytes) ++ rest

/-- A load inside the packet. -/
theorem Buffer.load_eq_slice {buf : Buffer} {f : Field} (h : f.stop ≤ buf.bytes.length) :
    buf.load f = f.slice buf.bytes := by
  refine List.ext_getElem? fun i => ?_
  rw [Field.stop] at h
  rw [load, Field.slice, List.getElem?_map, List.getElem?_take, List.getElem?_drop]
  by_cases hi : i < f.width
  · rw [List.getElem?_range hi, if_pos hi, Option.map_some, byte,
      List.getD_eq_getElem?_getD, List.getElem?_eq_getElem (by omega), Option.getD_some]
  · rw [if_neg hi, List.getElem?_eq_none (by simpa using hi), Option.map_none]

/-- The members inside what is sent arrive. -/
theorem Carries.load {pkt : Buffer} {bytes : Bytes} (h : Carries pkt bytes) {f : Field}
    (hsent : f.stop ≤ fullSize bytes) (hin : f.stop ≤ bytes.length) :
    pkt.load f = f.slice bytes := by
  obtain ⟨rest, hrest⟩ := h
  have hlen : f.stop ≤ (bytes.take (fullSize bytes)).length := by
    rw [List.length_take]
    exact le_min hsent hin
  have hbuf : f.stop ≤ pkt.bytes.length := by
    rw [hrest, List.length_append]
    exact hlen.trans (Nat.le_add_right _ _)
  rw [Buffer.load_eq_slice hbuf, hrest, Field.slice_append_left hlen]
  conv_rhs => rw [← List.take_append_drop (fullSize bytes) bytes]
  exact (Field.slice_append_left hlen).symm

/-! ### The round trip -/

section Receive

variable {machine : Machine} {encrypt : Encryption} {key : Bytes} {seq : UInt32}
  {payload bytes : Bytes} {pkt : Buffer}

/-- The initialisation vector of a sequence number. -/
private def ivOf (seq : UInt32) : Bytes :=
  UInt8.ofNat seq.toNat :: List.replicate (gcmTagSize - 1) 0

/-- How an encrypted packet is laid out. -/
private theorem slice_encryptPacket (hopens : Opens machine.evp encrypt)
    (hpacket : encryptPacket encrypt key seq payload = some bytes) :
    ∃ encrypted, encrypted = (encrypt (packetKey key) (ivOf seq) payload).1 ∧
      encrypted.length ≤ maxPayloadSize ∧ bytes.length = 24 + maxPayloadSize ∧
      ControlPacket.type.slice bytes = leBytes 2 PacketType.encrypted.code ∧
      ControlPacket.length.slice bytes = leBytes 2 (20 + encrypted.length) ∧
      ControlEncryptedPacket.seq.slice bytes = leBytes 4 seq.toNat ∧
      Field.slice ⟨ControlEncryptedPacket.payload, encrypted.length⟩ bytes = encrypted := by
  unfold encryptPacket at hpacket
  dsimp only at hpacket
  split_ifs at hpacket with hfits
  obtain rfl := Option.some.inj hpacket
  have htag := hopens.length_tag (packetKey key) (ivOf seq) payload
  rw [← ivOf] at hfits ⊢
  generalize encrypt (packetKey key) (ivOf seq) payload = sent at *
  obtain ⟨encrypted, tag⟩ := sent
  refine ⟨encrypted, rfl, hfits, ?_, rfl, rfl, rfl, ?_⟩
  · have hsum : encrypted.length + (maxPayloadSize - encrypted.length) = maxPayloadSize :=
      Nat.add_sub_cancel' hfits
    simp only [List.length_flatten, List.map_cons, List.map_nil, List.sum_cons, List.sum_nil,
      length_leBytes, List.length_replicate, htag, gcmTagSize]
    omega
  · -- what lies before the payload has a fixed length
    have hsplit : ∀ a b c d e f : Bytes, [a, b, c, d, e, f].flatten =
        (a ++ b ++ c ++ d) ++ (e ++ f) := fun a b c d e f => by
      simp only [List.flatten_cons, List.flatten_nil, List.append_nil, List.append_assoc]
    rw [hsplit, Field.slice, List.drop_left', List.take_left]
    simp only [List.length_append, length_leBytes, htag]
    rfl

/-- What the server finds in a packet that carries an encrypted payload: its type, and the
payload under the same key. -/
private theorem carries_encryptPacket (hopens : Opens machine.evp encrypt)
    (hpacket : encryptPacket encrypt key seq payload = some bytes) (hcarries : Carries pkt bytes) :
    packetType pkt = some .encrypted ∧ 20 ≤ lengthField pkt ∧
      unauthenticatedPlaintext machine.evp pkt key = payload := by
  obtain ⟨encrypted, hencrypted, hfits, hlength, htype, hlen, hseq, hpayload⟩ :=
    slice_encryptPacket hopens hpacket
  have hsmall : (20 + encrypted.length) % 256 ^ 2 = 20 + encrypted.length :=
    Nat.mod_eq_of_lt (by unfold maxPayloadSize at hfits; omega)
  have hfull : fullSize bytes = 24 + encrypted.length := by
    rw [fullSize, Field.getLE, hlen, ofLE_leBytes, hsmall]
    omega
  have hload : ∀ f : Field, f.stop ≤ 24 + encrypted.length → pkt.load f = f.slice bytes :=
    fun f hf => hcarries.load (hfull ▸ hf) (by omega)
  have hfield : lengthField pkt = 20 + encrypted.length := by
    rw [lengthField, hload _ (Nat.le_add_right_of_le (by decide)), hlen, ofLE_leBytes, hsmall]
  have hcipher : pkt.load (ciphertextField pkt) = encrypted := by
    rw [ciphertextField, hfield, Nat.add_sub_cancel_left, hload _ le_rfl, hpayload]
  have hiv : packetIv pkt = ivOf seq := by
    have hlt : seq.toNat < 256 ^ 4 := seq.toNat_lt
    rw [packetIv, hload _ (Nat.le_add_right_of_le (by decide)), hseq, ofLE_leBytes,
      Nat.mod_eq_of_lt hlt, ivOf]
  refine ⟨?_, by omega, ?_⟩
  · rw [packetType, hload _ (Nat.le_add_right_of_le (by decide)), htype]
    rfl
  · rw [unauthenticatedPlaintext, hiv, hcipher, hencrypted, hopens.update_encrypt]

variable {srv : ControlServer} {reg : SessionRegistry} {media : Option MediaRef}
  {peer : ENetPeer} {sess : SessionRef}

/-- **What a client sends is done**: a message packed under the key of the peer's session has
the reactions it asks for, whatever OpenSSL answers about the tag. -/
theorem does_receive {m : Message} (hopens : Opens machine.evp encrypt)
    (hpeer : srv.session? peer = some sess)
    (hpacket : encryptPacket encrypt (reg.object sess).aesKey seq m.bytes = some bytes)
    (hcarries : Carries pkt bytes) :
    Does (receive machine srv reg media peer pkt) ()
      (m.reactions srv (reg.object sess) media) := by
  obtain ⟨htype, hlength, hplain⟩ := carries_encryptPacket hopens hpacket hcarries
  unfold receive
  rw [hpeer]
  refine (does_loadLE rfl).bind ?_
  rw [← packetType, if_pos htype]
  refine Does.handle (Does.bind (a := m.bytes) ?_ (does_dispatch m))
  refine does_of_notDispatched ?_ decryptPacket_notDispatched
  rw [decryptPacket_result, if_pos hlength, hplain]

/-- A packet that is not encrypted has no reaction. -/
theorem does_receive_of_not_encrypted (h : packetType pkt ≠ some .encrypted) :
    Does (receive machine srv reg media peer pkt) () [] := by
  unfold receive
  cases srv.session? peer with
  | none => exact does_pure
  | some sess =>
    refine (does_loadLE rfl).bind ?_
    rw [← packetType, if_neg h]
    exact does_pure

end Receive

/-! ### Absolute positions -/

/-- One coordinate of the client's screen is mapped onto one of the stream's: corner to corner, in
order, and each point within `out / 2 ^ 23` of where it belongs. -/
structure MapsScreen (p : ℤ → ℚ) (range out : ℤ) : Prop where
  zero : p 0 = 0
  full : p range = out
  mono : ∀ v v', 0 ≤ v → v ≤ v' → v' ≤ range → p v ≤ p v'
  near : ∀ v, 0 ≤ v → v ≤ range → |p v - (v : ℚ) / range * out| ≤ (out : ℚ) / 2 ^ 23

section Screen

open BinaryFloat

variable {v v' range out : ℤ}

/-- A whole number a `float` holds. -/
private theorem toFloat_intCast {n : ℤ} (h0 : 0 ≤ n) (h : n ≤ 2 ^ 24) : toFloat (n : ℚ) = n := by
  obtain ⟨m, rfl⟩ := Int.eq_ofNat_of_zero_le h0
  exact round_natCast (by decide) (by exact_mod_cast h)

private theorem toFloat_mono {x y : ℚ} (hx : 0 ≤ x) (h : x ≤ y) : toFloat x ≤ toFloat y :=
  round_mono (by decide) hx h

private theorem toFloat_nonneg {x : ℚ} (hx : 0 ≤ x) : 0 ≤ toFloat x := round_nonneg (by decide) hx

/-- The position relative to the screen. -/
private theorem quotient_mem (hv : 0 ≤ v) (hle : v ≤ range) (hrange : 0 < range) :
    0 ≤ (v : ℚ) / range ∧ (v : ℚ) / range ≤ 1 := by
  have hpos : (0 : ℚ) < range := by exact_mod_cast hrange
  have hv' : (0 : ℚ) ≤ v := by exact_mod_cast hv
  have hle' : (v : ℚ) ≤ range := by exact_mod_cast hle
  exact ⟨div_nonneg hv' hpos.le, (div_le_one hpos).mpr hle'⟩

private theorem scaleAbs_mono (hout : 0 ≤ out) (hv : 0 ≤ v) (h : v ≤ v') (hrange : 0 < range) :
    scaleAbs v range out ≤ scaleAbs v' range out := by
  have hpos : (0 : ℚ) < range := by exact_mod_cast hrange
  have hv' : (0 : ℚ) ≤ v := by exact_mod_cast hv
  have hle : (v : ℚ) / range ≤ (v' : ℚ) / range :=
    div_le_div_of_nonneg_right (by exact_mod_cast h) hpos.le
  have hq : 0 ≤ (v : ℚ) / range := div_nonneg hv' hpos.le
  have hfloat : 0 ≤ toFloat (out : ℚ) := toFloat_nonneg (by exact_mod_cast hout)
  exact toFloat_mono (mul_nonneg (toFloat_nonneg hq) hfloat)
    (mul_le_mul_of_nonneg_right (toFloat_mono hq hle) hfloat)

/-- Two roundings, each off by at most `2⁻²⁴` of the screen. -/
private theorem scaleAbs_near (hv : 0 ≤ v) (hle : v ≤ range) (hrange : 0 < range)
    (hout : 0 ≤ out) (hsmall : out ≤ 2 ^ 24) :
    |scaleAbs v range out - (v : ℚ) / range * out| ≤ (out : ℚ) / 2 ^ 23 := by
  obtain ⟨hq, hq1⟩ := quotient_mem hv hle hrange
  have hout' : (0 : ℚ) ≤ out := by exact_mod_cast hout
  rw [scaleAbs, toFloat_intCast hout hsmall]
  generalize (v : ℚ) / range = q at hq hq1
  have hone : toFloat 1 = 1 := by exact_mod_cast toFloat_intCast (n := 1) (by decide) (by decide)
  have hr1 : toFloat q ≤ 1 := hone ▸ toFloat_mono hq hq1
  have hinner : |toFloat q - q| ≤ 1 / 2 ^ 24 :=
    (abs_round_sub_le hq).trans (div_le_div_of_nonneg_right hq1 (by positivity))
  have houter : |toFloat (toFloat q * out) - toFloat q * out| ≤ (out : ℚ) / 2 ^ 24 :=
    (abs_round_sub_le (mul_nonneg (toFloat_nonneg hq) hout')).trans
      (div_le_div_of_nonneg_right (mul_le_of_le_one_left hout' hr1) (by positivity))
  calc |toFloat (toFloat q * out) - q * out|
      ≤ |toFloat (toFloat q * out) - toFloat q * out| + |toFloat q * out - q * out| :=
        abs_sub_le _ _ _
    _ = |toFloat (toFloat q * out) - toFloat q * out| + |toFloat q - q| * out := by
        rw [← sub_mul, abs_mul, abs_of_nonneg hout']
    _ ≤ (out : ℚ) / 2 ^ 24 + 1 / 2 ^ 24 * out :=
        add_le_add houter (mul_le_mul_of_nonneg_right hinner hout')
    _ = (out : ℚ) / 2 ^ 23 := by ring

/-- `x / w * out_w` maps the client's screen onto the stream's. -/
theorem mapsScreen_scaleAbs (hrange : 0 < range) (hout : 0 ≤ out) (hsmall : out ≤ 2 ^ 24) :
    MapsScreen (scaleAbs · range out) range out where
  zero := by simp [scaleAbs, toFloat]
  full := by
    have hne : (range : ℚ) ≠ 0 := by exact_mod_cast hrange.ne'
    have hone : toFloat 1 = 1 := by
      exact_mod_cast toFloat_intCast (n := 1) (by decide) (by decide)
    rw [scaleAbs, div_self hne, hone, one_mul, toFloat_intCast hout hsmall,
      toFloat_intCast hout hsmall]
  mono _ _ hv h _ := scaleAbs_mono hout hv h hrange
  near _ hv hle := scaleAbs_near hv hle hrange hout hsmall

/-- **Where the pointer goes.** The absolute positions of a client are mapped onto the screen of
the stream, that of the negotiated video if there is one, each coordinate on its own. -/
theorem mapsScreen_mouseMoveAbs (video : VideoParams) (unused width height : Int16)
    (hwidth : 0 < width.toInt) (hheight : 0 < height.toInt) (hvideo : video.width ≤ 2 ^ 24)
    (hvideo' : video.height ≤ 2 ^ 24) :
    ∃ px py : ℤ → ℚ,
      (∀ x y : Int16, (ClientInput.mouseMoveAbs x y unused width height).call video =
        some (.mouseMoveAbs (px x.toInt) (py y.toInt))) ∧
      MapsScreen px width.toInt (ClientInput.outSize video.width width) ∧
      MapsScreen py height.toInt (ClientInput.outSize video.height height) := by
  have hout : ∀ (negotiated : ℤ) (client : Int16), 0 < client.toInt → negotiated ≤ 2 ^ 24 →
      0 ≤ ClientInput.outSize negotiated client ∧
        ClientInput.outSize negotiated client ≤ 2 ^ 24 := by
    intro negotiated client hclient hnegotiated
    have hlt := client.toInt_lt
    unfold ClientInput.outSize
    split_ifs <;> omega
  refine ⟨(scaleAbs · width.toInt (ClientInput.outSize video.width width)),
    (scaleAbs · height.toInt (ClientInput.outSize video.height height)),
    fun x y => if_pos ⟨hwidth, hheight⟩, ?_, ?_⟩
  · exact mapsScreen_scaleAbs hwidth (hout _ _ hwidth hvideo).1 (hout _ _ hwidth hvideo).2
  · exact mapsScreen_scaleAbs hheight (hout _ _ hheight hvideo').1 (hout _ _ hheight hvideo').2

/-- A 4K screen scaled to a 1080p stream. -/
theorem mapsScreen_fullHd :
    ∃ px py : ℤ → ℚ,
      (∀ x y : Int16, (ClientInput.mouseMoveAbs x y 0 3840 2160).call
          { width := 1920, height := 1080 } =
        some (.mouseMoveAbs (px x.toInt) (py y.toInt))) ∧
      MapsScreen px 3840 1920 ∧ MapsScreen py 2160 1080 :=
  mapsScreen_mouseMoveAbs { width := 1920, height := 1080 } 0 3840 2160 (by decide) (by decide)
    (by decide) (by decide)

end Screen

end SteamStream.Control
