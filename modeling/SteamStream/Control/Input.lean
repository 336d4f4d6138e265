import SteamStream.Control.Packets
import SteamStream.Library.BinaryFloat
import SteamStream.Session.Registry

/-!
# Input packets

`handle_input` casts the plaintext to the packet struct its type selects, reads the members it
needs and calls the media session. Some members are read whether or not there is a media
session to pass them to, others only when there is; `inputSize` is the resulting number of
bytes a packet has to have, and `handleInput_inBounds` says that it is exactly enough.
-/

namespace SteamStream.Control

open Wire Session BinaryFloat

/-! ### Translating codes -/

/-- The Linux button of a Moonlight button. -/
def moonlightButtonToLinux : ℕ → ℕ
  | 1 => 272
  | 2 => 274
  | 3 => 273
  | 4 => 275
  | _ => 276

/-- Virtual-key codes and the `KEY_*` codes they map to. -/
def keyMappings : List (ℕ × ℕ) :=
  [(0x08, 14), (0x09, 15), (0x0c, 355), (0x0d, 28), (0x10, 42), (0x11, 29), (0x12, 56),
   (0x13, 119), (0x14, 58), (0x1b, 1), (0x20, 57), (0x21, 104), (0x22, 109), (0x23, 107),
   (0x24, 102), (0x25, 105), (0x26, 103), (0x27, 106), (0x28, 108), (0x2c, 99), (0x2d, 110),
   (0x2e, 111), (0x30, 11), (0x31, 2), (0x32, 3), (0x33, 4), (0x34, 5), (0x35, 6), (0x36, 7),
   (0x37, 8), (0x38, 9), (0x39, 10), (0x41, 30), (0x42, 48), (0x43, 46), (0x44, 32), (0x45, 18),
   (0x46, 33), (0x47, 34), (0x48, 35), (0x49, 23), (0x4a, 36), (0x4b, 37), (0x4c, 38), (0x4d, 50),
   (0x4e, 49), (0x4f, 24), (0x50, 25), (0x51, 16), (0x52, 19), (0x53, 31), (0x54, 20), (0x55, 22),
   (0x56, 47), (0x57, 17), (0x58, 45), (0x59, 21), (0x5a, 44), (0x5b, 125), (0x5c, 126),
   (0x60, 82), (0x61, 79), (0x62, 80), (0x63, 81), (0x64, 75), (0x65, 76), (0x66, 77), (0x67, 71),
   (0x68, 72), (0x69, 73), (0x6a, 55), (0x6b, 78), (0x6d, 74), (0x6e, 83), (0x6f, 98), (0x70, 59),
   (0x71, 60), (0x72, 61), (0x73, 62), (0x74, 63), (0x75, 64), (0x76, 65), (0x77, 66), (0x78, 67),
   (0x79, 68), (0x7a, 87), (0x7b, 88), (0x90, 69), (0x91, 70), (0xa0, 42), (0xa1, 54), (0xa2, 29),
   (0xa3, 97), (0xa4, 56), (0xa5, 100), (0xba, 39), (0xbb, 13), (0xbc, 51), (0xbd, 12),
   (0xbe, 52), (0xbf, 53), (0xc0, 41), (0xdb, 26), (0xdc, 43), (0xdd, 27), (0xde, 40), (0xe2, 86)]

/-- The Linux key of a Moonlight key, -1 for an unmapped one. -/
def moonlightKeyToLinux (moonlightKey : ℕ) : ℤ :=
  match keyMappings.lookup moonlightKey with
  | none => -1
  | some code => code

/-- A 16-bit number as a `short`. -/
def signed16 (n : ℕ) : ℤ := if n < 2 ^ 15 then n else n - 2 ^ 16

/-- A value of type `float`. -/
def toFloat (x : ℚ) : ℚ := round 24 x

/-- `v / range * out` in single precision. -/
def scaleAbs (v range out : ℤ) : ℚ := toFloat (toFloat (v / range) * toFloat out)

/-! ### The handler -/

/-- A call on the media session, read from the packet when there is one. -/
def onMedia (mm : Option MediaRef) (call : Action InputCall) : Action Unit :=
  match mm with
  | none => pure ()
  | some mm => do
    let call ← call
    .emit (.input mm call)

/-- `handle_input`. -/
def handleInput (dev : StreamSession) (pkt : Buffer) (mm : Option MediaRef) : Action Unit := do
  .emit .handleInput
  let type ← pkt.loadLE InputPkt.type
  match InputType.ofCode type with
  | none => pure ()
  | some .mouseMoveRel =>
    onMedia mm do
      let deltaX ← pkt.loadBE MouseMoveRelPacket.deltaX
      let deltaY ← pkt.loadBE MouseMoveRelPacket.deltaY
      pure (.mouseMoveRel (signed16 deltaX) (signed16 deltaY))
  | some .mouseMoveAbs =>
    let x ← pkt.loadBE MouseMoveAbsPacket.x
    let y ← pkt.loadBE MouseMoveAbsPacket.y
    let w ← pkt.loadBE MouseMoveAbsPacket.width
    let h ← pkt.loadBE MouseMoveAbsPacket.height
    let outW := if dev.video.width > 0 then dev.video.width else signed16 w
    let outH := if dev.video.height > 0 then dev.video.height else signed16 h
    if signed16 w > 0 ∧ signed16 h > 0 then
      onMedia mm (pure (.mouseMoveAbs (scaleAbs (signed16 x) (signed16 w) outW)
        (scaleAbs (signed16 y) (signed16 h) outH)))
    else pure ()
  | some .mouseButtonPress =>
    onMedia mm do
      let button ← pkt.loadLE MouseButtonPacket.button
      pure (.mouseButton (moonlightButtonToLinux button) true)
  | some .mouseButtonRelease =>
    onMedia mm do
      let button ← pkt.loadLE MouseButtonPacket.button
      pure (.mouseButton (moonlightButtonToLinux button) false)
  | some .mouseScroll =>
    onMedia mm do
      let scrollAmt1 ← pkt.loadBE MouseScrollPacket.scrollAmt1
      pure (.mouseAxis 0 (-signed16 scrollAmt1))
  | some .mouseHscroll =>
    onMedia mm do
      let scrollAmount ← pkt.loadBE MouseHscrollPacket.scrollAmount
      pure (.mouseAxis (signed16 scrollAmount) 0)
  | some .keyPress => keyboard pkt mm true
  | some .keyRelease => keyboard pkt mm false
  | some .controllerArrival =>
    onMedia mm do
      let controllerNumber ← pkt.loadLE ControllerArrivalPacket.controllerNumber
      pure (.gamepadArrival controllerNumber)
  | some .controllerMulti =>
    onMedia mm do
      let controllerNumber ← pkt.loadLE ControllerMultiPacket.controllerNumber
      let activeGamepadMask ← pkt.loadLE ControllerMultiPacket.activeGamepadMask
      let buttonFlags ← pkt.loadLE ControllerMultiPacket.buttonFlags
      let leftTrigger ← pkt.loadLE ControllerMultiPacket.leftTrigger
      let rightTrigger ← pkt.loadLE ControllerMultiPacket.rightTrigger
      let leftStickX ← pkt.loadLE ControllerMultiPacket.leftStickX
      let leftStickY ← pkt.loadLE ControllerMultiPacket.leftStickY
      let rightStickX ← pkt.loadLE ControllerMultiPacket.rightStickX
      let rightStickY ← pkt.loadLE ControllerMultiPacket.rightStickY
      pure (.gamepadUpdate controllerNumber activeGamepadMask buttonFlags leftTrigger
        rightTrigger (signed16 leftStickX) (signed16 leftStickY) (signed16 rightStickX)
        (signed16 rightStickY))
where
  /-- Both keyboard cases: the code is read even without a media session. -/
  keyboard (pkt : Buffer) (mm : Option MediaRef) (pressed : Bool) : Action Unit := do
    let keyCode ← pkt.loadLE KeyboardPacket.keyCode
    let linuxKey := moonlightKeyToLinux (keyCode % 2 ^ 15)
    if linuxKey ≥ 0 then onMedia mm (pure (.keyboardKey linuxKey.toNat pressed)) else pure ()

/-! ### What it reads -/

/-- The bytes a packet needs: up to the last member read for its type. -/
def inputSize (type : Option InputType) (mm : Option MediaRef) : ℕ :=
  match type with
  | some .mouseMoveAbs => MouseMoveAbsPacket.height.stop
  | some .keyPress | some .keyRelease => KeyboardPacket.keyCode.stop
  | none => InputPkt.type.stop
  | some t =>
    match mm with
    | none => InputPkt.type.stop
    | some _ =>
      match t with
      | .mouseMoveRel => MouseMoveRelPacket.deltaY.stop
      | .mouseScroll => MouseScrollPacket.scrollAmt1.stop
      | .mouseHscroll => MouseHscrollPacket.scrollAmount.stop
      | .controllerArrival => ControllerArrivalPacket.controllerNumber.stop
      | .controllerMulti => ControllerMultiPacket.rightStickY.stop
      | _ => MouseButtonPacket.button.stop

variable {dev : StreamSession} {pkt : Buffer} {mm : Option MediaRef}

/-- Events that are no call on a media session, and the calls on `mm`. -/
private theorem onMedia_all {P : Effect → Prop} {call : Action InputCall}
    (hinput : ∀ m c, mm = some m → P (.input m c)) (hcall : call.All P) :
    (onMedia mm call).All P := by
  cases mm with
  | none => exact Traced.all_pure
  | some m =>
    rw [onMedia, Traced.all_bind]
    exact ⟨hcall, fun c _ => Traced.all_emit.mpr (hinput m c rfl)⟩

/-- `handle_input` reads, and calls nothing but the media session it was given. -/
theorem handleInput_all {P : Effect → Prop} (haccess : ∀ a, P (.access a))
    (henter : P .handleInput) (hinput : ∀ m c, mm = some m → P (.input m c)) :
    (handleInput dev pkt mm).All P := by
  have hkeyboard : ∀ pressed, (handleInput.keyboard pkt mm pressed).All P := by
    intro pressed
    rw [handleInput.keyboard, Traced.all_bind_ok (Buffer.result_loadLE ..)]
    refine ⟨by simp [haccess], ?_⟩
    dsimp only
    split_ifs
    · exact onMedia_all hinput Traced.all_pure
    · exact Traced.all_pure
  rw [handleInput, Traced.all_bind_ok Traced.result_emit, Traced.all_emit,
    Traced.all_bind_ok (Buffer.result_loadLE ..), Buffer.all_loadLE]
  refine ⟨henter, haccess _, ?_⟩
  split
  case h_3 =>
    simp only [Traced.all_bind, Buffer.all_loadBE, Buffer.result_loadBE, haccess, true_and]
    intro x _ y _ w _ h _
    split
    · exact onMedia_all hinput Traced.all_pure
    · exact Traced.all_pure
  all_goals first
    | exact Traced.all_pure
    | exact hkeyboard _
    | refine onMedia_all hinput ?_
      simp [Traced.all_bind, haccess]

/-- A call on the media session reads what the call is made from. -/
theorem onMedia_inBounds {call : Action InputCall} :
    (onMedia mm call).All Effect.InBounds ↔ (mm.isSome → call.All Effect.InBounds) := by
  cases mm with
  | none => exact iff_of_true Traced.all_pure fun h => nomatch h
  | some mm =>
    rw [onMedia, Traced.all_bind]
    refine ⟨fun h _ => h.1, fun h => ⟨h rfl, fun a _ => Traced.all_emit.mpr trivial⟩⟩

/-- The accesses of a load, with the rest of the packet. -/
private theorem loadLE_bind_inBounds {f : Field} {α : Type} {rest : ℕ → Action α} :
    (pkt.loadLE f >>= rest).All Effect.InBounds ↔
      f.stop ≤ pkt.bytes.length ∧ (rest (ofLE (pkt.load f))).All Effect.InBounds := by
  rw [Traced.all_bind_ok (Buffer.result_loadLE ..), Buffer.all_loadLE]
  exact Iff.rfl

private theorem loadBE_bind_inBounds {f : Field} {α : Type} {rest : ℕ → Action α} :
    (pkt.loadBE f >>= rest).All Effect.InBounds ↔
      f.stop ≤ pkt.bytes.length ∧ (rest (ofBE (pkt.load f))).All Effect.InBounds := by
  rw [Traced.all_bind_ok (Buffer.result_loadBE ..), Buffer.all_loadBE]
  exact Iff.rfl

private theorem keyboard_inBounds {pressed : Bool} :
    (handleInput.keyboard pkt mm pressed).All Effect.InBounds ↔
      KeyboardPacket.keyCode.stop ≤ pkt.bytes.length := by
  rw [handleInput.keyboard, loadLE_bind_inBounds]
  refine and_iff_left ?_
  dsimp only
  split_ifs
  · exact onMedia_inBounds.mpr fun _ => Traced.all_pure
  · exact Traced.all_pure

private theorem mouseMoveAbs_inBounds {rest : ℕ → ℕ → ℕ → ℕ → Action Unit}
    (hrest : ∀ x y w h, (rest x y w h).All Effect.InBounds) :
    (do
      let x ← pkt.loadBE MouseMoveAbsPacket.x
      let y ← pkt.loadBE MouseMoveAbsPacket.y
      let w ← pkt.loadBE MouseMoveAbsPacket.width
      let h ← pkt.loadBE MouseMoveAbsPacket.height
      rest x y w h : Action Unit).All Effect.InBounds ↔
      MouseMoveAbsPacket.height.stop ≤ pkt.bytes.length := by
  simp only [loadBE_bind_inBounds, hrest, and_true]
  simp only [Field.stop, MouseMoveAbsPacket.x, MouseMoveAbsPacket.y, MouseMoveAbsPacket.width,
    MouseMoveAbsPacket.height]
  omega

/-- **What `handle_input` reads** lies in the packet exactly when the packet has `inputSize`
bytes. -/
theorem handleInput_inBounds :
    (handleInput dev pkt mm).All Effect.InBounds ↔
      inputSize (InputType.ofCode (ofLE (pkt.load InputPkt.type))) mm ≤ pkt.bytes.length := by
  rw [handleInput, Traced.all_bind_ok Traced.result_emit, Traced.all_emit, loadLE_bind_inBounds,
    iff_true_intro (show Effect.InBounds .handleInput from trivial), true_and]
  generalize InputType.ofCode (ofLE (pkt.load InputPkt.type)) = type
  -- the members lie past the type, and are read in the order of their positions
  rcases type with _ | t
  · exact and_iff_left Traced.all_pure
  · cases t with
    | mouseMoveAbs =>
      rw [mouseMoveAbs_inBounds]
      · exact and_iff_right_of_imp fun h => le_trans (by decide) h
      · intro x y w h
        dsimp only
        split
        · exact onMedia_inBounds.mpr fun _ => Traced.all_pure
        · exact Traced.all_pure
    | keyPress =>
      rw [keyboard_inBounds]
      exact and_iff_right_of_imp fun h => le_trans (by decide) h
    | keyRelease =>
      rw [keyboard_inBounds]
      exact and_iff_right_of_imp fun h => le_trans (by decide) h
    | _ =>
      rw [onMedia_inBounds]
      cases mm with
      | none => exact and_iff_left fun h => nomatch h
      | some mm =>
        simp only [loadLE_bind_inBounds, loadBE_bind_inBounds, Traced.all_pure, and_true,
          Option.isSome_some, forall_const, inputSize, Field.stop, InputPkt.type,
          MouseMoveRelPacket.deltaX, MouseMoveRelPacket.deltaY, MouseButtonPacket.button,
          MouseScrollPacket.scrollAmt1, MouseHscrollPacket.scrollAmount,
          ControllerArrivalPacket.controllerNumber, ControllerMultiPacket.controllerNumber,
          ControllerMultiPacket.activeGamepadMask, ControllerMultiPacket.buttonFlags,
          ControllerMultiPacket.leftTrigger, ControllerMultiPacket.rightTrigger,
          ControllerMultiPacket.leftStickX, ControllerMultiPacket.leftStickY,
          ControllerMultiPacket.rightStickX, ControllerMultiPacket.rightStickY]
        omega

end SteamStream.Control
