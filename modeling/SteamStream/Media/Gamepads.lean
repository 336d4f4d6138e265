import SteamStream.Control.Input
import SteamStream.Input.VirtualGamepad
import SteamStream.Library.Runs
import SteamStream.Library.SortedMap
import Mathlib.Data.Nat.Bitwise
import Mathlib.Tactic.Tauto

/-!
# Controllers that come and go

A media session has a virtual gamepad for each controller of the client. CONTROLLER_ARRIVAL
creates the one it names, and CONTROLLER_MULTI carries the state of one controller together with a
mask of those there are: a controller whose bit is clear loses its gamepad, one whose bit is set
gets one if it has none yet.

Which gamepads there are is what the last packet about each controller has said
(`isSome_find?_run`). But the numbers are taken from the wire as they come: one of eight bits, one
of sixteen, for a mask with sixteen bits that is tested by a shift of 32. They stay within the mask
exactly if the client keeps them there (`hotplugLaw_iff`).
-/

namespace SteamStream.Media

open Runs Input Control Wire

/-! ### The calls of the control server -/

/-- `gamepads_`: the pads by the number of their controller. -/
abbrev Gamepads := SortedMap ℕ VirtualGamepad

/-- `1u << n`, undefined from the width of the type on. -/
def shiftOne (n : ℕ) : Option ℕ := if n < 32 then some (1 <<< n) else none

/-- `gamepad_arrival`, where a pad can be created. -/
def gamepadArrival (pads : Gamepads) (controllerNumber : ℕ) : Gamepads :=
  if (pads.find? controllerNumber).isSome then pads else pads.insert controllerNumber {}

/-- `gamepad_update`, where a pad can be created; the events are those of the pad's update. -/
def gamepadUpdate (pads : Gamepads) (controllerNumber activeGamepadMask : ℕ) (u : PadUpdate) :
    Option Gamepads := do
  let bit ← shiftOne controllerNumber
  if activeGamepadMask &&& bit = 0 then
    return pads.erase controllerNumber
  let pad := (pads.find? controllerNumber).getD {}
  return pads.insert controllerNumber (pad.update u).1

/-- A call the control server makes, with the clock as the media session reads it. -/
def onInputCall (pads : Gamepads) (nowMs : ℤ) : InputCall → Option Gamepads
  | .gamepadArrival controllerNumber => some (gamepadArrival pads controllerNumber)
  | .gamepadUpdate controllerNumber activeGamepadMask buttonFlags leftTrigger rightTrigger
      leftStickX leftStickY rightStickX rightStickY =>
    gamepadUpdate pads controllerNumber activeGamepadMask
      { nowMs, buttonFlags, leftTrigger, rightTrigger, leftX := leftStickX, leftY := leftStickY,
        rightX := rightStickX, rightY := rightStickY }
  | _ => some pads

/-! ### Packets -/

/-- A controller packet, with the members that are read from it. -/
inductive ControllerPacket
  | arrival (controllerNumber : UInt8)
  | multi (controllerNumber activeGamepadMask buttonFlags : UInt16)
      (leftTrigger rightTrigger : UInt8) (leftStickX leftStickY rightStickX rightStickY : UInt16)
  deriving DecidableEq, Repr

namespace ControllerPacket

/-- The call `handle_input` makes for a packet. -/
def call : ControllerPacket → InputCall
  | arrival controllerNumber => .gamepadArrival controllerNumber.toNat
  | multi controllerNumber activeGamepadMask buttonFlags leftTrigger rightTrigger leftStickX
      leftStickY rightStickX rightStickY =>
    .gamepadUpdate controllerNumber.toNat activeGamepadMask.toNat buttonFlags.toNat
      leftTrigger.toNat rightTrigger.toNat (signed16 leftStickX.toNat) (signed16 leftStickY.toNat)
      (signed16 rightStickX.toNat) (signed16 rightStickY.toNat)

/-- The packet in a buffer. -/
def ofBuffer (pkt : Buffer) : Option ControllerPacket :=
  let byte (f : Field) : UInt8 := .ofNat (ofLE (pkt.load f))
  let short (f : Field) : UInt16 := .ofNat (ofLE (pkt.load f))
  match InputType.ofCode (ofLE (pkt.load InputPkt.type)) with
  | some .controllerArrival => some (arrival (byte ControllerArrivalPacket.controllerNumber))
  | some .controllerMulti =>
    some (multi (short ControllerMultiPacket.controllerNumber)
      (short ControllerMultiPacket.activeGamepadMask) (short ControllerMultiPacket.buttonFlags)
      (byte ControllerMultiPacket.leftTrigger) (byte ControllerMultiPacket.rightTrigger)
      (short ControllerMultiPacket.leftStickX) (short ControllerMultiPacket.leftStickY)
      (short ControllerMultiPacket.rightStickX) (short ControllerMultiPacket.rightStickY))
  | _ => none

/-- The packet gives controller `n` a pad: its arrival, or an update with its bit set. -/
def announces (n : ℕ) : ControllerPacket → Bool
  | arrival controllerNumber => controllerNumber.toNat = n
  | multi controllerNumber activeGamepadMask .. =>
    controllerNumber.toNat = n && activeGamepadMask.toNat.testBit n

/-- The packet takes the pad of controller `n`: an update with its bit clear. -/
def withdraws (n : ℕ) : ControllerPacket → Bool
  | arrival _ => false
  | multi controllerNumber activeGamepadMask .. =>
    controllerNumber.toNat = n && ! activeGamepadMask.toNat.testBit n

end ControllerPacket

/-- The calls on the media session among the effects of a packet. -/
def inputCalls (effects : List Effect) : List InputCall :=
  effects.filterMap fun
    | .input _ call => some call
    | _ => none

private theorem toNat_byte (pkt : Buffer) (off : ℕ) :
    (UInt8.ofNat (ofLE (pkt.load ⟨off, 1⟩))).toNat = ofLE (pkt.load ⟨off, 1⟩) := by
  have hlt := ofLE_lt (pkt.load ⟨off, 1⟩)
  rw [Buffer.length_load] at hlt
  exact UInt8.toNat_ofNat_of_lt' hlt

private theorem toNat_short (pkt : Buffer) (off : ℕ) :
    (UInt16.ofNat (ofLE (pkt.load ⟨off, 2⟩))).toNat = ofLE (pkt.load ⟨off, 2⟩) := by
  have hlt := ofLE_lt (pkt.load ⟨off, 2⟩)
  rw [Buffer.length_load] at hlt
  exact UInt16.toNat_ofNat_of_lt' hlt

/-- What `handle_input` does with a controller packet. -/
theorem inputCalls_handleInput {dev : Session.StreamSession} {pkt : Buffer} {mm : MediaRef}
    {p : ControllerPacket} (h : ControllerPacket.ofBuffer pkt = some p) :
    inputCalls (handleInput dev pkt (some mm)).log = [p.call] := by
  rw [ControllerPacket.ofBuffer] at h
  rw [handleInput, Traced.log_bind_ok Traced.result_emit,
    Traced.log_bind_ok (Buffer.result_loadLE ..)]
  split at h
  · rename_i htype
    obtain rfl := Option.some.inj h
    rw [htype, ControllerPacket.call, ControllerArrivalPacket.controllerNumber, toNat_byte]
    rfl
  · rename_i htype
    obtain rfl := Option.some.inj h
    simp only [htype, ControllerPacket.call, ControllerMultiPacket.controllerNumber,
      ControllerMultiPacket.activeGamepadMask, ControllerMultiPacket.buttonFlags,
      ControllerMultiPacket.leftTrigger, ControllerMultiPacket.rightTrigger,
      ControllerMultiPacket.leftStickX, ControllerMultiPacket.leftStickY,
      ControllerMultiPacket.rightStickX, ControllerMultiPacket.rightStickY, toNat_byte, toNat_short]
    rfl
  · cases h

/-! ### One call -/

section Call

variable {pads pads' : Gamepads} {nowMs : ℤ}

theorem find?_gamepadArrival (m n : ℕ) :
    ((gamepadArrival pads m).find? n).isSome = (decide (m = n) || (pads.find? n).isSome) := by
  rw [gamepadArrival]
  by_cases hmn : m = n
  · subst hmn
    split_ifs with hfound
    · simp [hfound]
    · simp [SortedMap.find?_insert_self]
  · split_ifs
    · simp [hmn]
    · simp [hmn, SortedMap.find?_insert_of_ne (Ne.symm hmn)]

/-- A bit of the mask, as the code tests it. -/
theorem and_shiftOne_eq_zero {mask n bit : ℕ} (h : shiftOne n = some bit) :
    mask &&& bit = 0 ↔ mask.testBit n = false := by
  rw [shiftOne, Option.ite_none_right_eq_some] at h
  obtain ⟨-, hbit⟩ := h
  rw [← Option.some.inj hbit, Nat.one_shiftLeft, Nat.and_two_pow]
  cases mask.testBit n <;> simp

theorem gamepadUpdate_eq_none_iff {n mask : ℕ} {u : PadUpdate} :
    gamepadUpdate pads n mask u = none ↔ 32 ≤ n := by
  rw [gamepadUpdate, shiftOne]
  split_ifs with h
  · refine iff_of_false ?_ (not_le.mpr h)
    dsimp only [bind, Option.bind]
    split_ifs <;> exact not_false
  · exact iff_of_true rfl (not_lt.mp h)

theorem find?_gamepadUpdate {m mask n : ℕ} {u : PadUpdate}
    (h : gamepadUpdate pads m mask u = some pads') :
    (pads'.find? n).isSome = if m = n then mask.testBit n else (pads.find? n).isSome := by
  obtain ⟨bit, hbit, h⟩ := Option.bind_eq_some_iff.mp h
  have hpresent : mask &&& bit = 0 ↔ mask.testBit m = false := and_shiftOne_eq_zero hbit
  split_ifs at h with hclear
  · obtain rfl := Option.some.inj h
    split_ifs with hmn
    · rw [← hmn, SortedMap.find?_erase_self, hpresent.mp hclear]
      rfl
    · rw [SortedMap.find?_erase_of_ne (Ne.symm hmn)]
  · obtain rfl := Option.some.inj h
    split_ifs with hmn
    · rw [← hmn, SortedMap.find?_insert_self]
      exact (Bool.eq_true_of_not_eq_false fun hbit => hclear (hpresent.mpr hbit)).symm
    · rw [SortedMap.find?_insert_of_ne (Ne.symm hmn)]

/-- After a packet there is a pad for `n` if the packet has given it one, or has not taken the one
it had. -/
theorem find?_onInputCall {p : ControllerPacket} {n : ℕ}
    (h : onInputCall pads nowMs p.call = some pads') :
    (pads'.find? n).isSome = (p.announces n || (! p.withdraws n && (pads.find? n).isSome)) := by
  cases p with
  | arrival m =>
    obtain rfl := Option.some.inj h
    rw [find?_gamepadArrival]
    rfl
  | multi m mask =>
    rw [find?_gamepadUpdate h, ControllerPacket.announces, ControllerPacket.withdraws]
    by_cases hmn : m.toNat = n
    · cases mask.toNat.testBit n <;> simp [hmn]
    · simp [hmn]

end Call

/-! ### Runs of packets -/

/-- The pads of a media session: pad 0 is there from the start, an event is a packet and the time
at which it is handled. -/
def gamepadSystem : System Gamepads (ℤ × ControllerPacket) where
  init := (∅ : Gamepads).insert 0 {}
  step pads e := onInputCall pads e.1 e.2.call

/-- Controller `n` has been announced more recently than it has been withdrawn; controller 0
counts as announced at the start. -/
def Present (n : ℕ) (packets : List ControllerPacket) : Prop :=
  Since (fun p => p.announces n) (fun p => p.withdraws n) packets ∨
    n = 0 ∧ ∀ p ∈ packets, ¬ p.withdraws n

theorem present_nil {n : ℕ} : Present n [] ↔ n = 0 := by
  simp [Present, not_since_nil]

theorem present_concat {n : ℕ} {packets : List ControllerPacket} {p : ControllerPacket} :
    Present n (packets ++ [p]) ↔ p.announces n ∨ ¬ p.withdraws n ∧ Present n packets := by
  rw [Present, Present, since_concat, List.forall_mem_append, List.forall_mem_singleton]
  tauto

/-- A controller that is there has a number the mask can name, unless it has only arrived. -/
theorem lt_of_present {n : ℕ} {packets : List ControllerPacket} (h : Present n packets)
    (harrival : ∀ m, .arrival m ∈ packets → m.toNat < 16) : n < 16 := by
  rcases h with hsince | ⟨rfl, -⟩
  · obtain ⟨p, hmem, hp⟩ := hsince.exists
    cases p with
    | arrival m =>
      obtain rfl := of_decide_eq_true hp
      exact harrival m hmem
    | multi m mask =>
      have hbit := (Bool.and_eq_true_iff.mp hp).2
      by_contra hlarge
      have hlt : mask.toNat < 2 ^ n :=
        mask.toNat_lt.trans_le (Nat.pow_le_pow_right (by decide) (not_lt.mp hlarge))
      rw [Nat.testBit_lt_two_pow hlt] at hbit
      exact Bool.false_ne_true hbit
  · decide

/-- Which controllers have a pad after a run of packets. -/
theorem isSome_find?_run {events : List (ℤ × ControllerPacket)} {pads : Gamepads}
    (hrun : gamepadSystem.run gamepadSystem.init events = some pads) (n : ℕ) :
    (pads.find? n).isSome ↔ Present n (events.map Prod.snd) := by
  induction events using List.reverseRecOn generalizing pads with
  | nil =>
    obtain rfl := Option.some.inj hrun
    rw [List.map_nil, present_nil, gamepadSystem]
    by_cases hn : n = 0
    · rw [hn, SortedMap.find?_insert_self]
      exact iff_of_true rfl rfl
    · rw [SortedMap.find?_insert_of_ne hn, SortedMap.find?_empty]
      exact iff_of_false Bool.false_ne_true hn
  | append_singleton events e ih =>
    obtain ⟨t, ht, hstep⟩ := System.run_concat_eq_some.mp hrun
    rw [List.map_append, List.map_singleton, present_concat, ← ih ht, find?_onInputCall hstep]
    simp

/-- The pads are within the mask after each packet: the shifts are defined, the numbers are below
16, and a controller has a pad if it is present. -/
def HotplugLaw (events : List (ℤ × ControllerPacket)) : Prop :=
  ∀ before after, events = before ++ after →
    ∃ pads, gamepadSystem.run gamepadSystem.init before = some pads ∧
      ∀ n, ((pads.find? n).isSome → n < 16) ∧
        ((pads.find? n).isSome ↔ Present n (before.map Prod.snd))

/-- The number of the packet is one the code can deal with: below 16 in an arrival, within the
shift in an update, which names no pad where the mask has no bit. -/
def ControllerPacket.InRange : ControllerPacket → Prop
  | arrival controllerNumber => controllerNumber.toNat < 16
  | multi controllerNumber .. => controllerNumber.toNat < 32

section Law

variable {events : List (ℤ × ControllerPacket)}

/-- A packet with a number in range is handled. -/
theorem exists_run_of_inRange (h : ∀ e ∈ events, e.2.InRange) (pads : Gamepads) :
    ∃ pads', gamepadSystem.run pads events = some pads' := by
  refine System.exists_run_of_forall (fun e he pads => ?_) pads
  have hrange := h e he
  obtain ⟨nowMs, p⟩ := e
  cases p with
  | arrival m => exact ⟨_, rfl⟩
  | multi m mask =>
    refine Option.ne_none_iff_exists'.mp fun hnone => ?_
    exact absurd (gamepadUpdate_eq_none_iff.mp hnone) (not_le.mpr hrange)

/-- **The gamepads stay within the mask** exactly if the client numbers its controllers within
it. -/
theorem hotplugLaw_iff : HotplugLaw events ↔ ∀ e ∈ events, e.2.InRange := by
  constructor
  · intro hlaw e he
    obtain ⟨before, after, rfl⟩ := List.append_of_mem he
    obtain ⟨pads, hrun, hpads⟩ := hlaw (before ++ [e]) after (by simp)
    obtain ⟨t, -, hstep⟩ := System.run_concat_eq_some.mp hrun
    obtain ⟨nowMs, p⟩ := e
    cases p with
    | arrival m =>
      refine (hpads m.toNat).1 ?_
      have hcall : onInputCall t nowMs (ControllerPacket.arrival m).call = some pads := hstep
      rw [find?_onInputCall hcall]
      simp [ControllerPacket.announces]
    | multi m mask =>
      refine not_le.mp fun hlarge => ?_
      have hcall : gamepadUpdate t m.toNat mask.toNat _ = some pads := hstep
      rw [gamepadUpdate_eq_none_iff.mpr hlarge] at hcall
      cases hcall
  · rintro hrange before after rfl
    have hbefore : ∀ e ∈ before, e.2.InRange :=
      fun e he => hrange e (List.mem_append_left after he)
    obtain ⟨pads, hrun⟩ := exists_run_of_inRange hbefore gamepadSystem.init
    refine ⟨pads, hrun, fun n => ⟨fun hfound => ?_, isSome_find?_run hrun n⟩⟩
    refine lt_of_present ((isSome_find?_run hrun n).mp hfound) fun m hm => ?_
    obtain ⟨e, he, hpacket⟩ := List.mem_map.mp hm
    have hm := hbefore e he
    rwa [hpacket] at hm

end Law

/-- An update of controller 32. -/
def strayUpdate : ℤ × ControllerPacket := (0, .multi 32 1 0 0 0 0 0 0 0)

/-- It has no defined outcome. -/
theorem not_hotplugLaw_strayUpdate : ¬ HotplugLaw [strayUpdate] := by
  intro hlaw
  obtain ⟨pads, hrun, -⟩ := hlaw [strayUpdate] [] rfl
  exact Option.some_ne_none _ (hrun.symm.trans rfl)

end SteamStream.Media
