import SteamStream.Input.VirtualGamepad
import Mathlib.Logic.Function.Basic

/-!
# What is seen of a virtual device

`create` sets a device up for the keys and the axes it will report, and the kernel passes on only
those. What a program knows of the device is what it has read: the keys that are
down and the positions of the axes, and it looks at them at a SYN_REPORT (`views`).

The gamepad emits nothing else than it has been set up for (`has_update`), and after an update what
is seen of it is the state of the controller in that update, but for Back, which is up, and Home
(`padShows_update`). Back is seen down once for each tap, with nothing else changed
(`views_update`).
-/

namespace SteamStream.Input

open Runs

/-! ### Devices -/

/-- The limits of an axis, as `UI_ABS_SETUP` is given them. -/
structure AbsInfo where
  code : ℕ
  minimum : ℤ
  maximum : ℤ
  deriving DecidableEq, Repr

/-- What a `create` has set its device up for. -/
structure Setup where
  keys : List ℕ
  axes : List AbsInfo
  deriving DecidableEq, Repr

/-- An event the device has been set up for. -/
def Setup.Has (setup : Setup) (e : InputEvent) : Prop :=
  e = syn ∨ (e.type = evKey ∧ e.code ∈ setup.keys ∧ (e.value = 0 ∨ e.value = 1)) ∨
    (e.type = evAbs ∧ ∃ a ∈ setup.axes, a.code = e.code ∧ a.minimum ≤ e.value ∧
      e.value ≤ a.maximum)

instance (setup : Setup) (e : InputEvent) : Decidable (setup.Has e) :=
  inferInstanceAs (Decidable (_ ∨ _))

/-- What has been read of a device. -/
structure Report where
  down : ℕ → Bool := fun _ => false
  /-- An axis is at zero until it is reported elsewhere. -/
  axis : ℕ → ℤ := fun _ => 0

namespace Report

variable {setup : Setup} {r : Report} {e : InputEvent} {es : List InputEvent}

/-- An event the device has not been set up for is not passed on. -/
def apply (setup : Setup) (r : Report) (e : InputEvent) : Report :=
  if e.type = evKey ∧ e.code ∈ setup.keys then
    { r with down := Function.update r.down e.code (e.value ≠ 0) }
  else if e.type = evAbs ∧ ∃ a ∈ setup.axes, a.code = e.code then
    { r with axis := Function.update r.axis e.code e.value }
  else r

/-- What has been read after some events. -/
def read (setup : Setup) (r : Report) (es : List InputEvent) : Report := es.foldl (apply setup) r

/-- What is seen at each SYN_REPORT. -/
def views (setup : Setup) : Report → List InputEvent → List Report
  | _, [] => []
  | r, e :: es =>
    if e = syn then r :: views setup r es else views setup (apply setup r e) es

@[simp]
theorem read_nil : read setup r [] = r := rfl

theorem read_cons : read setup r (e :: es) = read setup (apply setup r e) es := rfl

theorem read_append {es' : List InputEvent} :
    read setup r (es ++ es') = read setup (read setup r es) es' := List.foldl_append

theorem apply_syn : apply setup r syn = r := rfl

theorem views_cons_of_ne (h : e ≠ syn) :
    views setup r (e :: es) = views setup (apply setup r e) es := if_neg h

theorem views_append {es' : List InputEvent} :
    views setup r (es ++ es') = views setup r es ++ views setup (read setup r es) es' := by
  induction es generalizing r with
  | nil => rfl
  | cons e es ih =>
    rw [List.cons_append, views, views, read_cons]
    split_ifs with he
    · rw [ih, he, apply_syn, List.cons_append]
    · exact ih

/-- Events of other keys and axes change nothing. -/
theorem down_read_of_forall_ne {c : ℕ} (h : ∀ e ∈ es, e.type = evKey → e.code ≠ c) :
    (read setup r es).down c = r.down c := by
  induction es generalizing r with
  | nil => rfl
  | cons e es ih =>
    obtain ⟨he, hes⟩ := List.forall_mem_cons.mp h
    rw [read_cons, ih hes, apply]
    split_ifs with hkey
    · exact Function.update_of_ne (Ne.symm (he hkey.1)) _ _
    · rfl
    · rfl

theorem axis_read_of_forall_ne {c : ℕ} (h : ∀ e ∈ es, e.type = evAbs → e.code ≠ c) :
    (read setup r es).axis c = r.axis c := by
  induction es generalizing r with
  | nil => rfl
  | cons e es ih =>
    obtain ⟨he, hes⟩ := List.forall_mem_cons.mp h
    rw [read_cons, ih hes, apply]
    split_ifs with hkey habs
    · rfl
    · exact Function.update_of_ne (Ne.symm (he habs.1)) _ _
    · rfl

/-- The event agrees with what has been read. -/
def Shows (r : Report) (e : InputEvent) : Prop :=
  (e.type = evKey → r.down e.code = decide (e.value ≠ 0)) ∧
    (e.type = evAbs → r.axis e.code = e.value)

theorem shows_apply (h : setup.Has e) : (apply setup r e).Shows e := by
  rcases h with rfl | ⟨htype, hkey, -⟩ | ⟨htype, a, ha, hcode, -⟩
  · exact ⟨nofun, nofun⟩
  · refine ⟨fun _ => ?_, fun habs => absurd (htype.symm.trans habs) (by decide)⟩
    rw [apply, if_pos ⟨htype, hkey⟩]
    exact Function.update_self _ _ _
  · have hnot : ¬ (e.type = evKey ∧ e.code ∈ setup.keys) :=
      fun hkey => absurd (htype.symm.trans hkey.1) (by decide)
    refine ⟨fun hkey => absurd (htype.symm.trans hkey) (by decide), fun _ => ?_⟩
    rw [apply, if_neg hnot, if_pos ⟨htype, a, ha, hcode⟩]
    exact Function.update_self _ _ _

/-- Of events that are each about a key or an axis of its own, every one is what is seen at the
end. -/
theorem shows_read (hhas : ∀ e ∈ es, setup.Has e)
    (hnodup : (es.map fun e => (e.type, e.code)).Nodup) (he : e ∈ es) :
    (read setup r es).Shows e := by
  induction es generalizing r with
  | nil => exact absurd he List.not_mem_nil
  | cons e' es ih =>
    obtain ⟨hhead, htail⟩ := List.forall_mem_cons.mp hhas
    rw [List.map_cons, List.nodup_cons, List.mem_map] at hnodup
    rw [read_cons]
    rcases List.mem_cons.mp he with rfl | he
    · have hother : ∀ e' ∈ es, e'.type = e.type → e'.code ≠ e.code :=
        fun e' he' htype hcode => hnodup.1 ⟨e', he', Prod.ext htype hcode⟩
      have hshows : (apply setup r e).Shows e := shows_apply hhead
      refine ⟨fun hkey => ?_, fun habs => ?_⟩
      · rw [down_read_of_forall_ne fun e' he' htype => hother e' he' (htype.trans hkey.symm)]
        exact hshows.1 hkey
      · rw [axis_read_of_forall_ne fun e' he' htype => hother e' he' (htype.trans habs.symm)]
        exact hshows.2 habs
    · exact ih htail hnodup.2 he

end Report

/-! ### The gamepad -/

/-- What `VirtualGamepad::create` sets its device up for. -/
def padSetup : Setup where
  keys := kPadButtons.map Prod.snd
  axes := [⟨absX, -32768, 32767⟩, ⟨absY, -32768, 32767⟩, ⟨absRx, -32768, 32767⟩,
    ⟨absRy, -32768, 32767⟩, ⟨absZ, 0, 255⟩, ⟨absRz, 0, 255⟩, ⟨absHat0x, -1, 1⟩,
    ⟨absHat0y, -1, 1⟩]

/-- The arguments are triggers of one byte and sticks of type `short`. -/
structure PadUpdate.InRange (u : PadUpdate) : Prop where
  leftTrigger : u.leftTrigger < 2 ^ 8
  rightTrigger : u.rightTrigger < 2 ^ 8
  leftX : -2 ^ 15 ≤ u.leftX ∧ u.leftX < 2 ^ 15
  leftY : -2 ^ 15 ≤ u.leftY ∧ u.leftY < 2 ^ 15
  rightX : -2 ^ 15 ≤ u.rightX ∧ u.rightX < 2 ^ 15
  rightY : -2 ^ 15 ≤ u.rightY ∧ u.rightY < 2 ^ 15

/-- What is read of the device is what the controller has sent last, but for Back and Home. -/
structure PadShows (pad : VirtualGamepad) (u : PadUpdate) (r : Report) : Prop where
  button : ∀ b ∈ kPadButtons, b.2 ≠ btnSelect →
    r.down b.2 = (u.flag b.1 || (b.2 = btnMode && pad.homeDown))
  back : r.down btnSelect = false
  hatX : r.axis absHat0x = (if u.flag 0x0008 then 1 else 0) - (if u.flag 0x0004 then 1 else 0)
  hatY : r.axis absHat0y = (if u.flag 0x0002 then 1 else 0) - (if u.flag 0x0001 then 1 else 0)
  leftX : r.axis absX = u.leftX
  leftY : r.axis absY = -u.leftY - 1
  rightX : r.axis absRx = u.rightX
  rightY : r.axis absRy = -u.rightY - 1
  leftTrigger : r.axis absZ = u.leftTrigger
  rightTrigger : r.axis absRz = u.rightTrigger

namespace VirtualGamepad

variable {pad : VirtualGamepad} {u : PadUpdate} {r : Report}

/-- What an update emits after a tap. -/
def frame (pad : VirtualGamepad) (u : PadUpdate) : List InputEvent :=
  pad.buttonEvents u ++ axisEvents u

theorem update_snd : (pad.update u).2 =
    (if pad.Taps u then backTap else []) ++ ((pad.update u).1.frame u ++ [syn]) := by
  rw [← trackBack_snd, frame]
  simp only [update, List.append_assoc]

theorem type_of_mem_axisEvents {e : InputEvent} (he : e ∈ axisEvents u) : e.type = evAbs := by
  simp only [axisEvents, List.mem_cons, List.not_mem_nil, or_false] at he
  rcases he with rfl | rfl | rfl | rfl | rfl | rfl | rfl | rfl <;> rfl

/-- Each button but Back and each axis is in a frame once. -/
theorem nodup_frame : ((pad.frame u).map fun e => (e.type, e.code)).Nodup := by
  have hbuttons : (pad.buttonEvents u).map (fun e => (e.type, e.code)) =
      ((kPadButtons.filter fun b => b.2 ≠ btnSelect).map fun b => (evKey, b.2)) := by
    rw [buttonEvents, List.map_map]
    rfl
  rw [frame, List.map_append, hbuttons]
  exact of_decide_eq_true rfl

theorem has_buttonEvents : ∀ e ∈ pad.buttonEvents u, padSetup.Has e := by
  intro e he
  obtain ⟨b, hb, rfl⟩ := List.mem_map.mp he
  refine .inr (.inl ⟨rfl, List.mem_map_of_mem (List.mem_filter.mp hb).1, ?_⟩)
  dsimp only
  split_ifs
  · exact .inr rfl
  · exact .inl rfl

/-- An axis within the limits it has been set up with. -/
private theorem has_axis {a : AbsInfo} {value : ℤ} (ha : a ∈ padSetup.axes)
    (hle : a.minimum ≤ value ∧ value ≤ a.maximum) : padSetup.Has ⟨evAbs, a.code, value⟩ :=
  .inr (.inr ⟨rfl, a, ha, rfl, hle⟩)

theorem has_axisEvents (hu : u.InRange) : ∀ e ∈ axisEvents u, padSetup.Has e := by
  obtain ⟨hlt, hrt, hlx, hly, hrx, hry⟩ := hu
  have hhat : ∀ p q : Bool, -1 ≤ (if p then (1 : ℤ) else 0) - (if q then 1 else 0) ∧
      (if p then (1 : ℤ) else 0) - (if q then 1 else 0) ≤ 1 := by decide
  simp only [axisEvents, List.forall_mem_cons, List.not_mem_nil, false_imp_iff, implies_true,
    and_true]
  refine ⟨?_, ?_, ?_, ?_, ?_, ?_, ?_, ?_⟩
  · exact @has_axis ⟨absHat0x, -1, 1⟩ _ (by decide) (hhat _ _)
  · exact @has_axis ⟨absHat0y, -1, 1⟩ _ (by decide) (hhat _ _)
  · exact @has_axis ⟨absX, -32768, 32767⟩ _ (by decide) (by dsimp only; omega)
  · exact @has_axis ⟨absY, -32768, 32767⟩ _ (by decide) (by dsimp only; omega)
  · exact @has_axis ⟨absRx, -32768, 32767⟩ _ (by decide) (by dsimp only; omega)
  · exact @has_axis ⟨absRy, -32768, 32767⟩ _ (by decide) (by dsimp only; omega)
  · exact @has_axis ⟨absZ, 0, 255⟩ _ (by decide) (by dsimp only; omega)
  · exact @has_axis ⟨absRz, 0, 255⟩ _ (by decide) (by dsimp only; omega)

theorem has_frame (hu : u.InRange) : ∀ e ∈ pad.frame u, padSetup.Has e :=
  List.forall_mem_append.mpr ⟨has_buttonEvents, has_axisEvents hu⟩

/-- **The gamepad emits only what its device has been set up for.** -/
theorem has_update (hu : u.InRange) : ∀ e ∈ (pad.update u).2, padSetup.Has e := by
  rw [update_snd]
  refine List.forall_mem_append.mpr ⟨?_, List.forall_mem_append.mpr ⟨has_frame hu, ?_⟩⟩
  · split_ifs
    · decide
    · exact List.forall_mem_nil _
  · exact List.forall_mem_singleton.mpr (.inl rfl)

/-- A tap leaves nothing behind. -/
theorem read_backTap (hr : r.down btnSelect = false) : r.read padSetup backTap = r := by
  obtain ⟨down, axis⟩ := r
  have hdown : (Report.read padSetup ⟨down, axis⟩ backTap).down = down := by
    change Function.update (Function.update down btnSelect true) btnSelect false = down
    rw [Function.update_idem, Function.update_eq_self_iff]
    exact hr.symm
  exact congrArg (Report.mk · axis) hdown

theorem read_update (hr : r.down btnSelect = false) :
    r.read padSetup (pad.update u).2 = r.read padSetup ((pad.update u).1.frame u) := by
  have htap : r.read padSetup (if pad.Taps u then backTap else []) = r := by
    split_ifs
    · exact read_backTap hr
    · rfl
  rw [update_snd, Report.read_append, htap, Report.read_append]
  rfl

/-- **After an update the device shows the controller.** -/
theorem padShows_update (hr : r.down btnSelect = false) (hu : u.InRange) :
    PadShows (pad.update u).1 u (r.read padSetup (pad.update u).2) := by
  rw [read_update hr]
  have hshows : ∀ e ∈ (pad.update u).1.frame u,
      (r.read padSetup ((pad.update u).1.frame u)).Shows e :=
    fun e he => Report.shows_read (has_frame hu) nodup_frame he
  obtain ⟨hbuttons, haxes⟩ := List.forall_mem_append.mp hshows
  simp only [axisEvents, List.forall_mem_cons, Report.Shows, forall_const] at haxes
  obtain ⟨hhatX, hhatY, hlx, hly, hrx, hry, hlt, hrt, -⟩ := haxes
  refine ⟨fun b hb hne => ?_, ?_, hhatX.2, hhatY.2, hlx.2, hly.2, hrx.2, hry.2, hlt.2, hrt.2⟩
  · have hmem : b ∈ kPadButtons.filter fun b => b.2 ≠ btnSelect :=
      List.mem_filter.mpr ⟨hb, decide_eq_true hne⟩
    refine ((hbuttons _ (List.mem_map_of_mem hmem)).1 rfl).trans ?_
    dsimp only
    split_ifs with hon
    · exact hon.symm
    · exact (Bool.eq_false_iff.mpr hon).symm
  · rw [Report.down_read_of_forall_ne, hr]
    refine List.forall_mem_append.mpr ⟨fun e he _ => ?_, fun e he hkey => ?_⟩
    · obtain ⟨b, hb, rfl⟩ := List.mem_map.mp he
      exact of_decide_eq_true (List.mem_filter.mp hb).2
    · exact absurd ((type_of_mem_axisEvents he).symm.trans hkey) (by decide)

/-- A frame has no SYN_REPORT of its own. -/
theorem ne_syn_of_mem_frame {e : InputEvent} (he : e ∈ pad.frame u) : e ≠ syn := by
  rcases List.mem_append.mp he with he | he
  · obtain ⟨b, -, rfl⟩ := List.mem_map.mp he
    have hne : evKey ≠ evSyn := by decide
    exact fun h => hne (congrArg InputEvent.type h)
  · have hne : evAbs ≠ evSyn := by decide
    exact fun h => hne ((type_of_mem_axisEvents he).symm.trans (congrArg InputEvent.type h))

/-- What is seen in the course of an update: Back down and up, if it ends a hold in a tap, with
nothing else changed; then the controller. -/
theorem views_update (hr : r.down btnSelect = false) :
    r.views padSetup (pad.update u).2 =
      (if pad.Taps u then [{ r with down := Function.update r.down btnSelect true }, r] else []) ++
        [r.read padSetup (pad.update u).2] := by
  have hframe : ∀ {es : List InputEvent} {r : Report}, (∀ e ∈ es, e ≠ syn) →
      r.views padSetup (es ++ [syn]) = [r.read padSetup es] := by
    intro es
    induction es with
    | nil => exact fun _ => rfl
    | cons e es ih =>
      intro r hne
      obtain ⟨he, hes⟩ := List.forall_mem_cons.mp hne
      rw [List.cons_append, Report.views_cons_of_ne he, ih hes, Report.read_cons]
  rw [read_update hr, update_snd, Report.views_append]
  split_ifs
  · rw [read_backTap hr, hframe fun e he => ne_syn_of_mem_frame he]
    refine congrArg (· ++ _) ?_
    have htap : r.views padSetup backTap =
        [{ r with down := Function.update r.down btnSelect true }, r.read padSetup backTap] := rfl
    rw [htap, read_backTap hr]
  · exact hframe fun e he => ne_syn_of_mem_frame he

/-! ### Runs of updates -/

/-- All events that updates emit. -/
def padEvents : VirtualGamepad → List PadUpdate → List InputEvent :=
  padSystem.outputs fun pad u => (pad.update u).2

/-- The updates that end a hold in a tap. -/
def padTaps : VirtualGamepad → List PadUpdate → List PadUpdate :=
  padSystem.outputs fun pad u => if pad.Taps u then [u] else []

section Run

variable {us : List PadUpdate}

theorem padEvents_cons :
    padEvents pad (u :: us) = (pad.update u).2 ++ padEvents (pad.update u).1 us :=
  System.outputs_cons_of_step rfl

theorem padEvents_concat {pad' : VirtualGamepad} (hrun : padSystem.run pad us = some pad') :
    padEvents pad (us ++ [u]) = padEvents pad us ++ (pad'.update u).2 := by
  rw [padEvents, System.outputs_append hrun, System.outputs_cons_of_step rfl, System.outputs,
    List.append_nil]

theorem has_padEvents (hus : ∀ u ∈ us, u.InRange) : ∀ e ∈ padEvents pad us, padSetup.Has e := by
  induction us generalizing pad with
  | nil => exact List.forall_mem_nil _
  | cons u us ih =>
    obtain ⟨hu, hus⟩ := List.forall_mem_cons.mp hus
    rw [padEvents_cons]
    exact List.forall_mem_append.mpr ⟨has_update hu, ih hus⟩

/-- Back is not left down. -/
theorem back_read_padEvents (hus : ∀ u ∈ us, u.InRange) (hr : r.down btnSelect = false) :
    (r.read padSetup (padEvents pad us)).down btnSelect = false := by
  induction us generalizing pad r with
  | nil => exact hr
  | cons u us ih =>
    obtain ⟨hu, hus⟩ := List.forall_mem_cons.mp hus
    rw [padEvents_cons, Report.read_append]
    exact ih hus (padShows_update hr hu).back

/-- What is seen in the end is the last update. -/
theorem padShows_concat {pad' : VirtualGamepad} (hus : ∀ v ∈ us ++ [u], v.InRange)
    (hr : r.down btnSelect = false) (hrun : padSystem.run pad (us ++ [u]) = some pad') :
    PadShows pad' u (r.read padSetup (padEvents pad (us ++ [u]))) := by
  obtain ⟨t, ht, hstep⟩ := System.run_concat_eq_some.mp hrun
  obtain rfl := Option.some.inj hstep
  obtain ⟨hus, hu⟩ := List.forall_mem_append.mp hus
  rw [padEvents_concat ht, Report.read_append]
  exact padShows_update (back_read_padEvents hus hr) (List.forall_mem_singleton.mp hu)

/-- Back is seen down once for each tap. -/
theorem countP_views_padEvents (hus : ∀ u ∈ us, u.InRange) (hr : r.down btnSelect = false) :
    (r.views padSetup (padEvents pad us)).countP (fun v => v.down btnSelect) =
      (padTaps pad us).length := by
  induction us generalizing pad r with
  | nil => rfl
  | cons u us ih =>
    obtain ⟨hu, hus⟩ := List.forall_mem_cons.mp hus
    have hback := (@padShows_update pad u r hr hu).back
    rw [padEvents_cons, Report.views_append, List.countP_append, ih hus hback, views_update hr,
      padTaps, System.outputs_cons_of_step rfl, List.length_append, List.countP_append]
    refine congrArg₂ (· + ·) ?_ rfl
    split_ifs <;> simp [hback, hr]

end Run

end VirtualGamepad

end SteamStream.Input
