import SteamStream.Library.Traced
import SteamStream.Library.Wire

/-!
# Control packets

The wire layout of the control stream. A packet is read by casting a pointer into a buffer to a
packed struct, so a member is a `Field` and a read is a load from the buffer: nothing stops it
from running past the end, where it finds whatever lies there. A `Buffer` carries those bytes,
and every load logs the access it makes; `Effect.InBounds` says which of them stay inside.
-/

namespace SteamStream.Control

open Wire

/-! ### Packet and input types -/

/-- `PACKET_TYPE`. -/
inductive PacketType | inputData | termination | periodicPing | idrFrame | encrypted
  deriving DecidableEq, Repr

def PacketType.code : PacketType → ℕ
  | .inputData => 0x0206
  | .termination => 0x0109
  | .periodicPing => 0x0200
  | .idrFrame => 0x0302
  | .encrypted => 0x0001

/-- The packet type a 16-bit number on the wire stands for. -/
def PacketType.ofCode (code : ℕ) : Option PacketType :=
  [inputData, termination, periodicPing, idrFrame, encrypted].find? fun t => t.code = code

/-- `INPUT_TYPE`. -/
inductive InputType
  | mouseMoveRel | mouseMoveAbs | mouseButtonPress | mouseButtonRelease | keyPress | keyRelease
  | mouseScroll | mouseHscroll | controllerMulti | controllerArrival
  deriving DecidableEq, Repr

def InputType.code : InputType → ℕ
  | .mouseMoveRel => 0x00000007
  | .mouseMoveAbs => 0x00000005
  | .mouseButtonPress => 0x00000008
  | .mouseButtonRelease => 0x00000009
  | .keyPress => 0x00000003
  | .keyRelease => 0x00000004
  | .mouseScroll => 0x0000000A
  | .mouseHscroll => 0x55000001
  | .controllerMulti => 0x0000000C
  | .controllerArrival => 0x55000004

/-- The input type a 32-bit number on the wire stands for. -/
def InputType.ofCode (code : ℕ) : Option InputType :=
  [mouseMoveRel, mouseMoveAbs, mouseButtonPress, mouseButtonRelease, keyPress, keyRelease,
    mouseScroll, mouseHscroll, controllerMulti, controllerArrival].find? fun t => t.code = code

theorem PacketType.code_of_ofCode {code : ℕ} {t : PacketType}
    (h : PacketType.ofCode code = some t) : t.code = code :=
  of_decide_eq_true (List.find?_some (p := fun t : PacketType => t.code = code) h)

@[simp]
theorem PacketType.ofCode_code (t : PacketType) : PacketType.ofCode t.code = some t := by
  cases t <;> rfl

@[simp]
theorem InputType.ofCode_code (t : InputType) : InputType.ofCode t.code = some t := by
  cases t <;> rfl

/-! ### Layout -/

namespace ControlPacket

def type : Field := ⟨0, 2⟩

def length : Field := ⟨2, 2⟩

end ControlPacket

/-- The length of the tag and of the initialisation vector. -/
def gcmTagSize : ℕ := 16

namespace ControlEncryptedPacket

def seq : Field := ⟨4, 4⟩

def gcmTag : Field := ⟨8, 16⟩

/-- Where `payload` starts. -/
def payload : ℕ := 24

end ControlEncryptedPacket

namespace InputPkt

def type : Field := ⟨8, 4⟩

end InputPkt

namespace MouseMoveRelPacket

def deltaX : Field := ⟨12, 2⟩

def deltaY : Field := ⟨14, 2⟩

end MouseMoveRelPacket

namespace MouseMoveAbsPacket

def x : Field := ⟨12, 2⟩

def y : Field := ⟨14, 2⟩

def width : Field := ⟨18, 2⟩

def height : Field := ⟨20, 2⟩

end MouseMoveAbsPacket

namespace MouseButtonPacket

def button : Field := ⟨12, 1⟩

end MouseButtonPacket

namespace MouseScrollPacket

def scrollAmt1 : Field := ⟨12, 2⟩

end MouseScrollPacket

namespace MouseHscrollPacket

def scrollAmount : Field := ⟨12, 2⟩

end MouseHscrollPacket

namespace KeyboardPacket

def keyCode : Field := ⟨13, 2⟩

end KeyboardPacket

namespace ControllerMultiPacket

def controllerNumber : Field := ⟨14, 2⟩

def activeGamepadMask : Field := ⟨16, 2⟩

def buttonFlags : Field := ⟨20, 2⟩

def leftTrigger : Field := ⟨22, 1⟩

def rightTrigger : Field := ⟨23, 1⟩

def leftStickX : Field := ⟨24, 2⟩

def leftStickY : Field := ⟨26, 2⟩

def rightStickX : Field := ⟨28, 2⟩

def rightStickY : Field := ⟨30, 2⟩

end ControllerMultiPacket

namespace ControllerArrivalPacket

def controllerNumber : Field := ⟨12, 1⟩

end ControllerArrivalPacket

/-! ### Buffers -/

/-- The bytes of a buffer, and what a read past its end finds at each position. -/
structure Buffer where
  bytes : Bytes
  beyond : ℕ → UInt8

/-- The byte at a position, inside the buffer or past it. -/
def Buffer.byte (buf : Buffer) (i : ℕ) : UInt8 := buf.bytes.getD i (buf.beyond i)

/-- The bytes a load of `f` finds. -/
def Buffer.load (buf : Buffer) (f : Field) : Bytes :=
  (List.range f.width).map fun i => buf.byte (f.off + i)

@[simp]
theorem Buffer.length_load (buf : Buffer) (f : Field) : (buf.load f).length = f.width := by
  simp [load]

/-! ### Effects -/

/-- A media session, as the control server sees it. -/
abbrev MediaRef := ℕ

/-- The calls `handle_input` makes on a media session. -/
inductive InputCall
  | mouseMoveRel (dx dy : ℤ)
  | mouseMoveAbs (x y : ℚ)
  | mouseButton (linuxButton : ℕ) (pressed : Bool)
  | mouseAxis (x y : ℤ)
  | keyboardKey (linuxKey : ℕ) (pressed : Bool)
  | gamepadArrival (controllerNumber : ℕ)
  | gamepadUpdate (controllerNumber activeGamepadMask buttonFlags leftTrigger rightTrigger : ℕ)
      (leftStickX leftStickY rightStickX rightStickY : ℤ)
  deriving DecidableEq, Repr

/-- An access to the memory of a packet. -/
inductive Access
  /-- A load of one member. -/
  | load (bytes : Bytes) (f : Field)
  /-- `strlen` from a position on. -/
  | scan (bytes : Bytes) (off : ℕ)
  /-- A view of `size` bytes, `exact` being the size the arithmetic without wrap-around gives. -/
  | view (bytes : Bytes) (off size : ℕ) (exact : ℤ)

/-- What handling a packet does. -/
inductive Effect
  | access (a : Access)
  /-- A line of `handle_openssl_error`. -/
  | print (msg : String)
  /-- `handle_input` is entered. -/
  | handleInput
  | input (mm : MediaRef) (call : InputCall)
  /-- The IDR callback is run. -/
  | idr (sessionId : ℕ)
  /-- The stop callback is run. -/
  | stop (sessionId : ℕ)

/-- How handling a packet can end early. -/
inductive Fault
  /-- A `std::exception` with its text. -/
  | exception (what : String)
  /-- The program has no defined behaviour from here on. -/
  | undefined
  deriving DecidableEq, Repr

/-- A computation of the control server. -/
abbrev Action := Traced Effect Fault

/-- The access stays inside the bytes available. -/
def Access.InBounds : Access → Prop
  | .load bytes f => f.stop ≤ bytes.length
  | .scan bytes off => 0 ∈ bytes.drop off
  | .view bytes off size exact => (size : ℤ) = exact ∧ off + size ≤ bytes.length

/-- Accesses stay inside; other effects are no accesses. -/
def Effect.InBounds : Effect → Prop
  | .access a => a.InBounds
  | _ => True

/-- The effect is none of the three a packet can have on the rest of the server. -/
def Effect.NotDispatched : Effect → Prop
  | .handleInput | .input _ _ | .idr _ | .stop _ => False
  | _ => True

namespace Buffer

variable (buf : Buffer) (f : Field) {P : Effect → Prop}

/-- Load a little-endian member. -/
def loadLE : Action ℕ := do
  .emit (.access (.load buf.bytes f))
  pure (ofLE (buf.load f))

/-- Load a big-endian member. -/
def loadBE : Action ℕ := do
  .emit (.access (.load buf.bytes f))
  pure (ofBE (buf.load f))

@[simp]
theorem result_loadLE : (buf.loadLE f).result = .ok (ofLE (buf.load f)) := rfl

@[simp]
theorem result_loadBE : (buf.loadBE f).result = .ok (ofBE (buf.load f)) := rfl

@[simp]
theorem all_loadLE : (buf.loadLE f).All P ↔ P (.access (.load buf.bytes f)) := by
  simp [Traced.All, loadLE, bind, Traced.emit, pure]

@[simp]
theorem all_loadBE : (buf.loadBE f).All P ↔ P (.access (.load buf.bytes f)) := by
  simp [Traced.All, loadBE, bind, Traced.emit, pure]

end Buffer

end SteamStream.Control
