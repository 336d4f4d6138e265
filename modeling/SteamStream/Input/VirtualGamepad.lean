import SteamStream.Library.Runs
import Mathlib.Tactic.Linarith

/-!
# The virtual gamepad and its chord

`VirtualGamepad::update` turns a controller packet into input events. Back is not passed on: it is
held back until it is released, and comes out as a tap if that was before 750 milliseconds had
passed, while a longer hold presses Home for 120 milliseconds.

There is no timer. A hold is noticed to be long, and Home to have been down long enough, by an
update that comes after the time is up, so what happens depends on where the updates fall:

* a hold that is over before any update has noticed that it is long ends in a tap;
* a second hold that becomes long before any update has released Home presses a button that is
  down, and so does a hold that becomes long while the real Home button is down.

In a run where neither happens (`ClearStep`) the chord does what it is for (`chordLaw_of_clear`).
What it is for is said of the events that come out: of BTN_SELECT, and of BTN_MODE as the kernel
has it after them.
-/

namespace SteamStream.Input

open Runs

/-! ### Events -/

/-- A `struct input_event`, without its time. -/
structure InputEvent where
  type : ℕ
  code : ℕ
  value : ℤ
  deriving DecidableEq, Repr

def evSyn : ℕ := 0x00
def evKey : ℕ := 0x01
def evAbs : ℕ := 0x03

def synReport : ℕ := 0

def btnA : ℕ := 0x130
def btnB : ℕ := 0x131
def btnX : ℕ := 0x133
def btnY : ℕ := 0x134
def btnTl : ℕ := 0x136
def btnTr : ℕ := 0x137
def btnSelect : ℕ := 0x13a
def btnStart : ℕ := 0x13b
def btnMode : ℕ := 0x13c
def btnThumbl : ℕ := 0x13d
def btnThumbr : ℕ := 0x13e

def absX : ℕ := 0x00
def absY : ℕ := 0x01
def absZ : ℕ := 0x02
def absRx : ℕ := 0x03
def absRy : ℕ := 0x04
def absRz : ℕ := 0x05
def absHat0x : ℕ := 0x10
def absHat0y : ℕ := 0x11

/-- `syn`: the events before it belong together. -/
def syn : InputEvent := ⟨evSyn, synReport, 0⟩

/-- `kPadButtons`: the flags of Moonlight and the buttons they stand for. -/
def kPadButtons : List (ℕ × ℕ) :=
  [(0x0010, btnStart), (0x0020, btnSelect), (0x0400, btnMode), (0x0040, btnThumbl),
   (0x0080, btnThumbr), (0x0100, btnTl), (0x0200, btnTr), (0x1000, btnA), (0x2000, btnB),
   (0x4000, btnX), (0x8000, btnY)]

/-! ### The gamepad -/

/-- The chord state of a `VirtualGamepad`; its device is created with it and not modelled. -/
structure VirtualGamepad where
  backHeld : Bool := false
  /-- Home already triggered for the current hold. -/
  homeFired : Bool := false
  /-- The synthesized Home is down. -/
  homeDown : Bool := false
  backPressMs : ℤ := 0
  homePressMs : ℤ := 0
  deriving DecidableEq, Repr

/-- The arguments of a call of `update`, and the clock as it reads it. -/
structure PadUpdate where
  nowMs : ℤ
  buttonFlags : ℕ := 0
  leftTrigger : ℕ := 0
  rightTrigger : ℕ := 0
  leftX : ℤ := 0
  leftY : ℤ := 0
  rightX : ℤ := 0
  rightY : ℤ := 0

def kBackFlag : ℕ := 0x0020

def kHoldMs : ℤ := 750

def kHomeHoldMs : ℤ := 120

namespace PadUpdate

/-- A flag is set. -/
def flag (u : PadUpdate) (mask : ℕ) : Bool := u.buttonFlags &&& mask ≠ 0

/-- `back_now`. -/
def back (u : PadUpdate) : Bool := u.flag kBackFlag

/-- The real Home button is down. -/
def home (u : PadUpdate) : Bool := u.flag 0x0400

end PadUpdate

/-- The Back tap synthesized on release. -/
def backTap : List InputEvent := [⟨evKey, btnSelect, 1⟩, syn, ⟨evKey, btnSelect, 0⟩, syn]

namespace VirtualGamepad

/-- A press starts a hold; a release ends it, in a tap if Home has not been fired. -/
def trackBack (pad : VirtualGamepad) (u : PadUpdate) : VirtualGamepad × List InputEvent :=
  if u.back && !pad.backHeld then
    ({ pad with backHeld := true, backPressMs := u.nowMs, homeFired := false }, [])
  else if !u.back && pad.backHeld then
    ({ pad with backHeld := false }, if !pad.homeFired then backTap else [])
  else (pad, [])

/-- Cross the threshold once. -/
def fireHome (pad : VirtualGamepad) (nowMs : ℤ) : VirtualGamepad :=
  if pad.backHeld && !pad.homeFired && kHoldMs ≤ nowMs - pad.backPressMs then
    { pad with homeFired := true, homeDown := true, homePressMs := nowMs }
  else pad

/-- Release Home after the hold window, even if Back is still down. -/
def releaseHome (pad : VirtualGamepad) (nowMs : ℤ) : VirtualGamepad :=
  if pad.homeDown && kHomeHoldMs ≤ nowMs - pad.homePressMs then { pad with homeDown := false }
  else pad

/-- The buttons but Back; Home is down for the real button and for the chord. -/
def buttonEvents (pad : VirtualGamepad) (u : PadUpdate) : List InputEvent :=
  (kPadButtons.filter fun b => b.2 ≠ btnSelect).map fun b =>
    ⟨evKey, b.2, if u.flag b.1 || (b.2 = btnMode && pad.homeDown) then 1 else 0⟩

/-- The D-pad as hat axes, the sticks and the triggers; the vertical axes are inverted. -/
def axisEvents (u : PadUpdate) : List InputEvent :=
  let hatX : ℤ := (if u.flag 0x0008 then 1 else 0) - (if u.flag 0x0004 then 1 else 0)
  let hatY : ℤ := (if u.flag 0x0002 then 1 else 0) - (if u.flag 0x0001 then 1 else 0)
  [⟨evAbs, absHat0x, hatX⟩, ⟨evAbs, absHat0y, hatY⟩, ⟨evAbs, absX, u.leftX⟩,
   ⟨evAbs, absY, -u.leftY - 1⟩, ⟨evAbs, absRx, u.rightX⟩, ⟨evAbs, absRy, -u.rightY - 1⟩,
   ⟨evAbs, absZ, u.leftTrigger⟩, ⟨evAbs, absRz, u.rightTrigger⟩]

/-- `update`: the gamepad after it and the events it has emitted. -/
def update (pad : VirtualGamepad) (u : PadUpdate) : VirtualGamepad × List InputEvent :=
  let (pad, tap) := pad.trackBack u
  let pad := pad.fireHome u.nowMs
  let pad := pad.releaseHome u.nowMs
  (pad, tap ++ pad.buttonEvents u ++ axisEvents u ++ [syn])

/-! ### What an update does -/

/-- The update fires Home. -/
def Fires (pad : VirtualGamepad) (u : PadUpdate) : Prop :=
  pad.backHeld = true ∧ u.back = true ∧ pad.homeFired = false ∧ kHoldMs ≤ u.nowMs - pad.backPressMs

/-- The update ends a hold in a tap. -/
def Taps (pad : VirtualGamepad) (u : PadUpdate) : Prop :=
  pad.backHeld = true ∧ u.back = false ∧ pad.homeFired = false

instance (pad : VirtualGamepad) (u : PadUpdate) : Decidable (pad.Fires u) :=
  inferInstanceAs (Decidable (_ ∧ _))

instance (pad : VirtualGamepad) (u : PadUpdate) : Decidable (pad.Taps u) :=
  inferInstanceAs (Decidable (_ ∧ _))

/-- An event of the Back button. -/
def isBack (e : InputEvent) : Bool := e.type = evKey && e.code = btnSelect

/-- The update starts a hold. -/
def Starts (pad : VirtualGamepad) (u : PadUpdate) : Prop := pad.backHeld = false ∧ u.back = true

instance (pad : VirtualGamepad) (u : PadUpdate) : Decidable (pad.Starts u) :=
  inferInstanceAs (Decidable (_ ∧ _))

section Update

variable (pad : VirtualGamepad) (u : PadUpdate)

theorem trackBack_fst : (pad.trackBack u).1 =
    { pad with
      backHeld := u.back
      backPressMs := if pad.Starts u then u.nowMs else pad.backPressMs
      homeFired := if pad.Starts u then false else pad.homeFired } := by
  obtain ⟨held, fired, down, pressMs, homeMs⟩ := pad
  cases hback : u.back <;> cases held <;> simp [trackBack, Starts, hback]

theorem trackBack_snd : (pad.trackBack u).2 = if pad.Taps u then backTap else [] := by
  obtain ⟨held, fired, down, pressMs, homeMs⟩ := pad
  cases hback : u.back <;> cases held <;> cases fired <;> simp [trackBack, Taps, hback]

/-- The hold that an update starts is not long yet. -/
theorem fireHome_trackBack : (pad.trackBack u).1.fireHome u.nowMs =
    if pad.Fires u then { pad with homeFired := true, homeDown := true, homePressMs := u.nowMs }
    else (pad.trackBack u).1 := by
  rw [trackBack_fst]
  obtain ⟨held, fired, down, pressMs, homeMs⟩ := pad
  cases hback : u.back <;> cases held <;> cases fired <;>
    simp [fireHome, Fires, Starts, hback, kHoldMs]

theorem releaseHome_eq (nowMs : ℤ) : pad.releaseHome nowMs =
    { pad with homeDown := pad.homeDown && nowMs - pad.homePressMs < kHomeHoldMs } := by
  rw [releaseHome]
  split_ifs with h
  · obtain ⟨hdown, hlate⟩ := Bool.and_eq_true_iff.mp h
    rw [hdown, decide_eq_false (not_lt.mpr (of_decide_eq_true hlate))]
    rfl
  · obtain ⟨held, fired, down, pressMs, homeMs⟩ := pad
    cases down
    · rfl
    · have hearly : nowMs - homeMs < kHomeHoldMs := by simpa using h
      simp only [hearly, decide_true, Bool.and_self]

/-- The chord state after an update; the Home that is fired is not released by the same update. -/
theorem update_fst : (pad.update u).1 =
    { backHeld := u.back
      homeFired := (pad.homeFired && ! pad.Starts u) || pad.Fires u
      homeDown := pad.Fires u || (pad.homeDown && u.nowMs - pad.homePressMs < kHomeHoldMs)
      backPressMs := if pad.Starts u then u.nowMs else pad.backPressMs
      homePressMs := if pad.Fires u then u.nowMs else pad.homePressMs } := by
  have hstages : (pad.update u).1 =
      ((pad.trackBack u).1.fireHome u.nowMs).releaseHome u.nowMs := rfl
  rw [hstages, fireHome_trackBack, releaseHome_eq]
  by_cases hfires : pad.Fires u
  · have hstarts : ¬ pad.Starts u := fun h => absurd (h.1.symm.trans hfires.1) Bool.false_ne_true
    simp [hfires, hstarts, hfires.1, hfires.2.1, kHomeHoldMs]
  · rw [if_neg hfires, trackBack_fst]
    by_cases hstarts : pad.Starts u <;> simp [hfires, hstarts]

/-- The Back events of an update are those of its tap. -/
theorem filter_isBack_update :
    (pad.update u).2.filter isBack = if pad.Taps u then backTap.filter isBack else [] := by
  have hbuttons : ∀ p : VirtualGamepad, (p.buttonEvents u).filter isBack = [] := by
    intro p
    refine List.filter_eq_nil_iff.mpr fun e he => ?_
    obtain ⟨b, hb, rfl⟩ := List.mem_map.mp he
    have hcode : b.2 ≠ btnSelect := of_decide_eq_true (List.mem_filter.mp hb).2
    simp [isBack, hcode]
  have haxes : (axisEvents u).filter isBack = [] := rfl
  have hevents : (pad.update u).2 = (pad.trackBack u).2 ++
      (((pad.trackBack u).1.fireHome u.nowMs).releaseHome u.nowMs).buttonEvents u ++
        axisEvents u ++ [syn] := rfl
  rw [hevents, List.filter_append, List.filter_append, List.filter_append, hbuttons, haxes,
    trackBack_snd]
  split_ifs <;> rfl

theorem backHeld_update : (pad.update u).1.backHeld = u.back := by rw [update_fst]

variable {pad u}

theorem not_starts_of_backHeld (h : pad.backHeld = true) : ¬ pad.Starts u :=
  fun hstarts => absurd (hstarts.1.symm.trans h) Bool.false_ne_true

theorem not_fires_of_starts (h : pad.Starts u) : ¬ pad.Fires u :=
  fun hfires => absurd (h.1.symm.trans hfires.1) Bool.false_ne_true

theorem not_fires_of_not_back (h : u.back = false) : ¬ pad.Fires u :=
  fun hfires => absurd (h.symm.trans hfires.2.1) Bool.false_ne_true

end Update

/-! ### Runs of updates -/

/-- The gamepad as a system whose events are the updates. -/
def padSystem : System VirtualGamepad PadUpdate where
  init := {}
  step pad u := some (pad.update u).1

/-- Every list of updates is a run. -/
theorem exists_run (pad : VirtualGamepad) (us : List PadUpdate) :
    ∃ pad', padSystem.run pad us = some pad' :=
  System.exists_run (S := padSystem) (fun pad u => ⟨(pad.update u).1, rfl⟩) pad us

/-- The state of a key after some events. -/
def keyAfter (code : ℕ) (down : Bool) (es : List InputEvent) : Bool :=
  es.foldl (fun down e => if e.type = evKey ∧ e.code = code then e.value ≠ 0 else down) down

end VirtualGamepad

open VirtualGamepad

/-- The gamepad, and BTN_MODE as the kernel has it after what has been emitted. -/
structure ObservedPad where
  pad : VirtualGamepad := {}
  homeKey : Bool := false
  deriving DecidableEq, Repr

namespace ObservedPad

/-- An update, and what the kernel makes of its events. -/
def update (o : ObservedPad) (u : PadUpdate) : ObservedPad where
  pad := (o.pad.update u).1
  homeKey := keyAfter btnMode o.homeKey (o.pad.update u).2

/-- The update presses Home, and it is not the real button. -/
def PressesHome (o : ObservedPad) (u : PadUpdate) : Prop :=
  u.home = false ∧ o.homeKey = false ∧ (o.update u).homeKey = true

instance (o : ObservedPad) (u : PadUpdate) : Decidable (o.PressesHome u) :=
  inferInstanceAs (Decidable (_ ∧ _))

/-- The observed gamepad as a system whose events are the updates. -/
def system : System ObservedPad PadUpdate where
  init := {}
  step o u := some (o.update u)

/-- Every list of updates is a run. -/
theorem exists_run (o : ObservedPad) (us : List PadUpdate) :
    ∃ o', system.run o us = some o' :=
  System.exists_run (S := system) (fun o u => ⟨o.update u, rfl⟩) o us

/-- The Back events that updates emit. -/
def backEvents : ObservedPad → List PadUpdate → List InputEvent :=
  system.outputs fun o u => (o.pad.update u).2.filter isBack

/-- The updates that press Home, where it is not the real button. -/
def homePresses : ObservedPad → List PadUpdate → List PadUpdate :=
  system.outputs fun o u => if o.PressesHome u then [u] else []

/-- A hold of Back: from the update that first sets the flag to the one that first clears it. -/
structure IsHold (before : List PadUpdate) (press : PadUpdate) (held : List PadUpdate)
    (release : PadUpdate) : Prop where
  before : ∀ u ∈ before.getLast?, u.back = false
  press : press.back = true
  held : ∀ u ∈ held, u.back = true
  release : release.back = false

/-- A hold that is released early is a Back tap, and a long one is a press of Home. -/
def HoldLaw (us : List PadUpdate) : Prop :=
  ∀ before press held release after o, us = before ++ press :: held ++ release :: after →
    IsHold before press held release → system.run system.init before = some o →
    if release.nowMs - press.nowMs < kHoldMs then
      (∀ o', system.run o (press :: held) = some o' →
        backEvents o (press :: held) = [] ∧
          backEvents o' [release] = [⟨evKey, btnSelect, 1⟩, ⟨evKey, btnSelect, 0⟩]) ∧
        homePresses o (press :: held ++ [release]) = []
    else
      backEvents o (press :: held ++ [release]) = [] ∧
        (homePresses o (press :: held ++ [release])).length = 1

/-- A press of Home is over after the first update that comes 120 milliseconds later: from then
on Home is down only for the real button. -/
def HomeLaw (us : List PadUpdate) : Prop :=
  ∀ before press between next after o o',
    us = before ++ press :: between ++ next :: after →
    system.run system.init before = some o → o.PressesHome press →
    (∀ u ∈ between, u.nowMs - press.nowMs < kHomeHoldMs) →
    kHomeHoldMs ≤ next.nowMs - press.nowMs →
    system.run o (press :: between ++ [next]) = some o' → o'.homeKey = next.home

/-- What the chord is for. -/
def ChordLaw (us : List PadUpdate) : Prop := HoldLaw us ∧ HomeLaw us

/-- An update that ends a hold in a tap does so in time, and one that fires Home finds it up, the
real button included. -/
def ClearStep (o : ObservedPad) (u : PadUpdate) : Prop :=
  (o.pad.Taps u → u.nowMs - o.pad.backPressMs < kHoldMs) ∧
    (o.pad.Fires u → o.homeKey = false ∧ u.home = false)

instance (o : ObservedPad) (u : PadUpdate) : Decidable (o.ClearStep u) :=
  inferInstanceAs (Decidable (_ ∧ _))

/-! ### Home as the kernel has it -/

section HomeKey

variable {o o' : ObservedPad} {u : PadUpdate}

theorem keyAfter_append {code : ℕ} {down : Bool} {es es' : List InputEvent} :
    keyAfter code down (es ++ es') = keyAfter code (keyAfter code down es) es' := List.foldl_append

/-- Events of other keys leave it alone. -/
theorem keyAfter_of_forall_ne {code : ℕ} {down : Bool} {es : List InputEvent}
    (h : ∀ e ∈ es, ¬ (e.type = evKey ∧ e.code = code)) : keyAfter code down es = down := by
  induction es with
  | nil => rfl
  | cons e es ih =>
    obtain ⟨he, hes⟩ := List.forall_mem_cons.mp h
    rw [keyAfter, List.foldl_cons, if_neg he]
    exact ih hes

/-- Home is down for the real button and for the chord. -/
theorem homeKey_update : (o.update u).homeKey = (u.home || (o.pad.update u).1.homeDown) := by
  have hevents : (o.pad.update u).2 = (o.pad.trackBack u).2 ++
      ((o.pad.update u).1.buttonEvents u ++ (axisEvents u ++ [syn])) := by
    rw [← List.append_assoc, ← List.append_assoc]
    rfl
  have htap : ∀ e ∈ (o.pad.trackBack u).2, ¬ (e.type = evKey ∧ e.code = btnMode) := by
    rw [trackBack_snd]
    split_ifs <;> simp [backTap, syn, btnSelect, btnMode, evSyn, evKey]
  have hrest : ∀ e ∈ axisEvents u ++ [syn], ¬ (e.type = evKey ∧ e.code = btnMode) := by
    simp [axisEvents, syn, evSyn, evKey, evAbs]
  have hbuttons : ∀ (pad : VirtualGamepad) (down : Bool),
      keyAfter btnMode down (pad.buttonEvents u) = (u.home || pad.homeDown) := by
    intro pad down
    cases hflag : u.flag 0x0400 <;> cases hdown : pad.homeDown <;>
      simp [keyAfter, buttonEvents, kPadButtons, PadUpdate.home, hflag, hdown, btnSelect, btnMode,
        btnStart, btnThumbl, btnThumbr, btnTl, btnTr, btnA, btnB, btnX, btnY]
  rw [ObservedPad.update, hevents, keyAfter_append, keyAfter_append, hbuttons,
    keyAfter_of_forall_ne hrest]

/-- The Home of the chord is seen. -/
def HomeSeen (o : ObservedPad) : Prop := o.pad.homeDown = true → o.homeKey = true

theorem homeSeen_update : (o.update u).HomeSeen := by
  intro hdown
  rw [homeKey_update]
  exact Bool.or_eq_true_iff.mpr (.inr hdown)

theorem homeSeen_isInvariant : system.IsInvariant HomeSeen where
  init := nofun
  step _ hstep := by
    obtain rfl := Option.some.inj hstep
    exact homeSeen_update

/-- Where an update that fires Home finds it up, the updates that press it are those that fire
it. -/
theorem pressesHome_iff (hseen : o.HomeSeen) (hclear : o.ClearStep u) :
    o.PressesHome u ↔ o.pad.Fires u := by
  rw [PressesHome, homeKey_update, update_fst]
  constructor
  · rintro ⟨hreal, hup, hdown⟩
    have hpad : o.pad.homeDown = false :=
      Bool.eq_false_iff.mpr fun hpad => Bool.false_ne_true (hup.symm.trans (hseen hpad))
    simpa [hreal, hpad] using hdown
  · intro hfires
    obtain ⟨hup, hreal⟩ := hclear.2 hfires
    exact ⟨hreal, hup, by simp [hfires]⟩

end HomeKey

/-! ### Within a hold -/

/-- Back has been down since the time. -/
def Holding (pressMs : ℤ) (o : ObservedPad) : Prop :=
  o.pad.backHeld = true ∧ o.pad.backPressMs = pressMs

section Hold

variable {o o' : ObservedPad} {u : PadUpdate} {us : List PadUpdate} {pressMs : ℤ}

theorem holding_of_starts (h : o.pad.Starts u) : Holding u.nowMs (o.update u) := by
  rw [Holding, ObservedPad.update, update_fst]
  exact ⟨h.2, if_pos h⟩

theorem homeFired_of_starts (h : o.pad.Starts u) : (o.update u).pad.homeFired = false := by
  rw [ObservedPad.update, update_fst]
  simp [h, not_fires_of_starts h]

theorem Holding.update (h : Holding pressMs o) (hback : u.back = true) :
    Holding pressMs (o.update u) := by
  rw [Holding, ObservedPad.update, update_fst]
  exact ⟨hback, (if_neg (not_starts_of_backHeld h.1)).trans h.2⟩

theorem Holding.run (h : Holding pressMs o) (hback : ∀ u ∈ us, u.back = true)
    (hrun : system.run o us = some o') : Holding pressMs o' := by
  refine System.run_of_along (P := fun _ u => u.back = true) ?_ h
    (System.along_of_forall fun u hu _ => hback u hu) hrun
  intro o u o' ho hu hstep
  obtain rfl := Option.some.inj hstep
  exact ho.update hu

/-- Home is fired by the update after which it has been fired. -/
theorem homeFired_update (h : o.pad.backHeld = true) :
    (o.update u).pad.homeFired = (o.pad.homeFired || o.pad.Fires u) := by
  rw [ObservedPad.update, update_fst]
  simp [not_starts_of_backHeld h]

/-- A hold that has fired Home is long. -/
theorem long_of_homeFired {nowMs : ℤ} (h : Holding pressMs o) (hfired : o.pad.homeFired = false)
    (hus : ∀ u ∈ us, u.back = true ∧ u.nowMs ≤ nowMs) (hrun : system.run o us = some o')
    (hfired' : o'.pad.homeFired = true) : kHoldMs ≤ nowMs - pressMs := by
  have hlong : Holding pressMs o' ∧ (o'.pad.homeFired = true → kHoldMs ≤ nowMs - pressMs) := by
    refine System.run_of_along (P := fun _ u => u.back = true ∧ u.nowMs ≤ nowMs)
      (I := fun t => Holding pressMs t ∧ (t.pad.homeFired = true → kHoldMs ≤ nowMs - pressMs)) ?_
      ⟨h, fun hf => absurd (hfired.symm.trans hf) Bool.false_ne_true⟩
      (System.along_of_forall fun u hu _ => hus u hu) hrun
    rintro o u o' ⟨ho, hlong⟩ ⟨hback, hnow⟩ hstep
    obtain rfl := Option.some.inj hstep
    refine ⟨ho.update hback, fun hf => ?_⟩
    rw [homeFired_update ho.1, Bool.or_eq_true, decide_eq_true_iff] at hf
    rcases hf with hf | hfires
    · exact hlong hf
    · have hcross := hfires.2.2.2
      rw [ho.2] at hcross
      omega
  exact hlong.2 hfired'

theorem backEvents_held (hback : ∀ u ∈ us, u.back = true) : backEvents o us = [] := by
  refine System.outputs_eq_nil (System.along_of_forall fun u hu t => ?_)
  have htaps : ¬ t.pad.Taps u := fun h => absurd (h.2.1.symm.trans (hback u hu)) Bool.false_ne_true
  rw [filter_isBack_update, if_neg htaps]

theorem length_homePresses_cons (hseen : o.HomeSeen) (hclear : o.ClearStep u) :
    (homePresses o (u :: us)).length =
      (if o.pad.Fires u then 1 else 0) + (homePresses (o.update u) us).length := by
  rw [homePresses, System.outputs_cons_of_step rfl, List.length_append]
  simp only [pressesHome_iff hseen hclear]
  split_ifs <;> rfl

/-- A hold presses Home when it fires it, which is once. -/
theorem length_homePresses_held (h : Holding pressMs o) (hseen : o.HomeSeen)
    (hback : ∀ u ∈ us, u.back = true) (hclear : system.Along ClearStep o us)
    (hrun : system.run o us = some o') :
    o.pad.homeFired.toNat + (homePresses o us).length = o'.pad.homeFired.toNat := by
  induction us generalizing o with
  | nil =>
    obtain rfl := Option.some.inj hrun
    rfl
  | cons u us ih =>
    obtain ⟨hu, hus⟩ := List.forall_mem_cons.mp hback
    have hrest := ih (h.update hu) homeSeen_update hus (hclear.2 _ rfl) hrun
    rw [homeFired_update h.1] at hrest
    rw [length_homePresses_cons hseen hclear.1, ← hrest]
    by_cases hfires : o.pad.Fires u
    · simp [hfires, hfires.2.2.1]
    · simp [hfires]

/-- The Home of the chord is down since the time, and seen. -/
structure HomeSince (pressMs : ℤ) (o : ObservedPad) : Prop where
  homeDown : o.pad.homeDown = true
  homePressMs : o.pad.homePressMs = pressMs
  seen : o.HomeSeen

theorem homeSince_of_fires (h : o.pad.Fires u) : HomeSince u.nowMs (o.update u) where
  homeDown := by
    rw [ObservedPad.update, update_fst]
    simp [h]
  homePressMs := by
    rw [ObservedPad.update, update_fst]
    exact if_pos h
  seen := homeSeen_update

/-- An update in the hold window leaves Home down; a later one releases it. -/
theorem HomeSince.update (h : HomeSince pressMs o) (hclear : o.ClearStep u) :
    (o.update u).pad.homeDown = decide (u.nowMs - pressMs < kHomeHoldMs) ∧
      (o.update u).pad.homePressMs = pressMs := by
  have hfires : ¬ o.pad.Fires u := fun hfires =>
    absurd ((hclear.2 hfires).1.symm.trans (h.seen h.homeDown)) Bool.false_ne_true
  rw [ObservedPad.update, update_fst]
  simp [hfires, h.homeDown, h.homePressMs]

theorem HomeSince.run (h : HomeSince pressMs o)
    (hus : ∀ u ∈ us, u.nowMs - pressMs < kHomeHoldMs) (hclear : system.Along ClearStep o us)
    (hrun : system.run o us = some o') : HomeSince pressMs o' := by
  induction us generalizing o with
  | nil =>
    obtain rfl := Option.some.inj hrun
    exact h
  | cons u us ih =>
    obtain ⟨hu, hus⟩ := List.forall_mem_cons.mp hus
    obtain ⟨hdown, hpress⟩ := h.update hclear.1
    exact ih ⟨hdown.trans (decide_eq_true hu), hpress, homeSeen_update⟩ hus (hclear.2 _ rfl) hrun

end Hold

/-! ### The chord -/

/-- Back is not held after an update without it. -/
theorem not_backHeld_run {us : List PadUpdate} {o : ObservedPad}
    (hlast : ∀ u ∈ us.getLast?, u.back = false)
    (hrun : system.run system.init us = some o) : o.pad.backHeld = false := by
  rcases List.eq_nil_or_concat us with rfl | ⟨before, u, rfl⟩
  · obtain rfl := Option.some.inj hrun
    rfl
  · rw [List.concat_eq_append] at hlast hrun
    obtain ⟨t, -, hstep⟩ := System.run_concat_eq_some.mp hrun
    obtain rfl := Option.some.inj hstep
    exact (backHeld_update ..).trans (hlast u (by rw [List.getLast?_append]; rfl))

section Law

variable {us : List PadUpdate}

theorem holdLaw_of_clear (hmono : us.Pairwise fun u v => u.nowMs ≤ v.nowMs)
    (hclear : system.Along ClearStep system.init us) : HoldLaw us := by
  intro before press held release after o hus hhold ho
  subst hus
  have hstarts : o.pad.Starts press := ⟨not_backHeld_run hhold.before ho, hhold.press⟩
  obtain ⟨o', ho'⟩ := ObservedPad.exists_run (o.update press) held
  have hrun : system.run o (press :: held) = some o' := (System.run_cons_of_step rfl).trans ho'
  -- the steps of the hold are clear
  rw [List.append_assoc] at hclear
  obtain ⟨hpressed, hreleased⟩ :=
    System.along_append_iff.mp ((System.along_append_iff.mp hclear).2 o ho)
  have hrelease : o'.ClearStep release := (hreleased o' hrun).1
  -- what the chord does with Home is seen
  have hseen := homeSeen_isInvariant.run homeSeen_isInvariant.init ho
  have hseen' := homeSeen_isInvariant.run homeSeen_update ho'
  -- from its first update to the last before its release Back is held since the press
  have hholding := holding_of_starts hstarts
  have hfired := homeFired_of_starts hstarts
  have hholding' := hholding.run hhold.held ho'
  have hpresses : (homePresses o (press :: held ++ [release])).length =
      o'.pad.homeFired.toNat := by
    have hheld :=
      length_homePresses_held hholding homeSeen_update hhold.held (hpressed.2 _ rfl) ho'
    rw [homePresses, System.outputs_append hrun, List.length_append]
    change (homePresses o (press :: held)).length + (homePresses o' [release]).length = _
    rw [length_homePresses_cons hseen hpressed.1, length_homePresses_cons hseen' hrelease,
      if_neg (not_fires_of_starts hstarts), if_neg (not_fires_of_not_back hhold.release), ← hheld,
      hfired]
    simp [homePresses, System.outputs]
  have hback : ∀ u ∈ press :: held, u.back = true :=
    List.forall_mem_cons.mpr ⟨hhold.press, hhold.held⟩
  have hevents : backEvents o' [release] =
      if o'.pad.homeFired then [] else backTap.filter isBack := by
    rw [backEvents, System.outputs_cons_of_step rfl, filter_isBack_update, System.outputs,
      List.append_nil]
    cases hfired' : o'.pad.homeFired <;> simp [Taps, hholding'.1, hhold.release, hfired']
  split_ifs with hshort
  · have hnotfired : o'.pad.homeFired = false := by
      refine Bool.eq_false_iff.mpr fun hfired' => ?_
      have hbefore : ∀ u ∈ held, u.back = true ∧ u.nowMs ≤ release.nowMs := by
        intro u hu
        refine ⟨hhold.held u hu, ?_⟩
        exact (List.pairwise_append.mp hmono).2.2 u (by simp [hu]) release List.mem_cons_self
      have hlong := long_of_homeFired hholding hfired hbefore ho' hfired'
      omega
    refine ⟨fun t ht => ?_, List.length_eq_zero_iff.mp (by rw [hpresses, hnotfired]; rfl)⟩
    obtain rfl := Option.some.inj (hrun.symm.trans ht)
    refine ⟨backEvents_held hback, ?_⟩
    rw [hevents, hnotfired]
    rfl
  · have hfired' : o'.pad.homeFired = true := by
      refine Bool.eq_true_of_not_eq_false fun hnotfired => hshort ?_
      have hearly := hrelease.1 ⟨hholding'.1, hhold.release, hnotfired⟩
      rwa [hholding'.2] at hearly
    refine ⟨?_, by rw [hpresses, hfired']; rfl⟩
    rw [backEvents, System.outputs_append hrun]
    change backEvents o (press :: held) ++ backEvents o' [release] = []
    rw [backEvents_held hback, hevents, hfired']
    rfl

theorem homeLaw_of_clear (hclear : system.Along ClearStep system.init us) : HomeLaw us := by
  intro before press between next after o o' hus ho hpress hbetween hnext hrun
  subst hus
  rw [List.append_assoc] at hclear
  obtain ⟨hpressed, hreleased⟩ :=
    System.along_append_iff.mp ((System.along_append_iff.mp hclear).2 o ho)
  obtain ⟨t, ht, hstep⟩ := System.run_concat_eq_some.mp hrun
  obtain rfl := Option.some.inj hstep
  have hseen := homeSeen_isInvariant.run homeSeen_isInvariant.init ho
  have hsince : HomeSince press.nowMs t :=
    (homeSince_of_fires ((pressesHome_iff hseen hpressed.1).mp hpress)).run hbetween
      (hpressed.2 _ rfl) ((System.run_cons_of_step rfl).symm.trans ht)
  have hup : (t.pad.update next).1.homeDown = false :=
    (hsince.update (hreleased t ht).1).1.trans (decide_eq_false (not_lt.mpr hnext))
  rw [homeKey_update, hup, Bool.or_false]

/-- The chord does what it is for in every run in which each tap is in time and no update fires
Home while it is still down, for the chord or for the real button. -/
theorem chordLaw_of_clear (hmono : us.Pairwise fun u v => u.nowMs ≤ v.nowMs)
    (hclear : system.Along ClearStep system.init us) : ChordLaw us :=
  ⟨holdLaw_of_clear hmono hclear, homeLaw_of_clear hclear⟩

end Law

/-- A long hold that an update notices, a press of the real Home button, and a tap. -/
theorem chordLaw_holdThenTap :
    ChordLaw [⟨0, 0x20, 0, 0, 0, 0, 0, 0⟩, ⟨760, 0x20, 0, 0, 0, 0, 0, 0⟩,
      ⟨900, 0, 0, 0, 0, 0, 0, 0⟩, ⟨950, 0x400, 0, 0, 0, 0, 0, 0⟩,
      ⟨1000, 0x20, 0, 0, 0, 0, 0, 0⟩, ⟨1100, 0, 0, 0, 0, 0, 0, 0⟩] :=
  chordLaw_of_clear (by simp) (by decide)

/-- Back is down at 0 and up at 800 milliseconds, and no update comes between. -/
def unnoticedHold : List PadUpdate :=
  [⟨0, 0x20, 0, 0, 0, 0, 0, 0⟩, ⟨800, 0, 0, 0, 0, 0, 0, 0⟩]

/-- The long hold is a tap. -/
theorem not_chordLaw_unnoticedHold :
    (unnoticedHold.Pairwise fun u v => u.nowMs ≤ v.nowMs) ∧ ¬ ChordLaw unnoticedHold := by
  refine ⟨by simp [unnoticedHold], fun hlaw => ?_⟩
  have hhold := hlaw.1 [] ⟨0, 0x20, 0, 0, 0, 0, 0, 0⟩ [] ⟨800, 0, 0, 0, 0, 0, 0, 0⟩ []
    system.init rfl ⟨by simp, rfl, by simp, rfl⟩ rfl
  rw [if_neg (by decide)] at hhold
  exact absurd hhold.1 (by decide)

end ObservedPad

end SteamStream.Input
