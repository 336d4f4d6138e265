import SteamStream.Input.Devices
import SteamStream.Media.Gamepads

/-!
# What is seen of the controllers

A pad is created and taken away as its controller comes and goes, and a controller that comes back
gets a new one. What has become of the pad of a controller is the updates it has got in its `life`
so far (`find?_run`). So while the client's last packet about a controller says that it is there,
its device shows that packet, whatever there has been before (`controllers_shown`).
-/

namespace SteamStream.Media

open Runs Input Input.VirtualGamepad Control

/-! ### The life of a pad -/

namespace ControllerPacket

/-- The packet carries the state of controller `n`. -/
def reports (n : ℕ) : ControllerPacket → Bool
  | arrival _ => false
  | multi controllerNumber .. => controllerNumber.toNat = n

/-- The update with that state, at a time. -/
def update (nowMs : ℤ) : ControllerPacket → PadUpdate
  | arrival _ => { nowMs }
  | multi _ _ buttonFlags leftTrigger rightTrigger leftStickX leftStickY rightStickX rightStickY =>
    { nowMs
      buttonFlags := buttonFlags.toNat
      leftTrigger := leftTrigger.toNat
      rightTrigger := rightTrigger.toNat
      leftX := signed16 leftStickX.toNat
      leftY := signed16 leftStickY.toNat
      rightX := signed16 rightStickX.toNat
      rightY := signed16 rightStickY.toNat }

theorem inRange_update (nowMs : ℤ) (p : ControllerPacket) : (p.update nowMs).InRange := by
  have hsigned : ∀ v : UInt16, -2 ^ 15 ≤ signed16 v.toNat ∧ signed16 v.toNat < 2 ^ 15 := by
    intro v
    have hlt : v.toNat < 2 ^ 16 := v.toNat_lt
    unfold signed16
    split_ifs <;> omega
  cases p with
  | arrival m => constructor <;> simp [update]
  | multi m mask flags lt rt lx ly rx ry =>
    exact ⟨lt.toNat_lt, rt.toNat_lt, hsigned lx, hsigned ly, hsigned rx, hsigned ry⟩

end ControllerPacket

/-- The updates the pad of controller `n` has got, after another packet. -/
def lifeStep (n : ℕ) (life : Option (List PadUpdate)) (e : ℤ × ControllerPacket) :
    Option (List PadUpdate) :=
  if e.2.withdraws n then none
  else if e.2.announces n then
    some (life.getD [] ++ if e.2.reports n then [e.2.update e.1] else [])
  else life

/-- The updates the pad of controller `n` has got, if there is one. -/
def life (n : ℕ) (events : List (ℤ × ControllerPacket)) : Option (List PadUpdate) :=
  events.foldl (lifeStep n) (if n = 0 then some [] else none)

section Life

variable {n : ℕ} {pads pads' : Gamepads} {nowMs : ℤ} {p : ControllerPacket}
  {events : List (ℤ × ControllerPacket)} {us : Option (List PadUpdate)}

/-- Without a pad, a controller starts from a new one. -/
private theorem getD_find? (h : pads.find? n = us.bind (padSystem.run padSystem.init)) :
    padSystem.run padSystem.init (us.getD []) = some ((pads.find? n).getD {}) := by
  cases us with
  | none =>
    rw [h]
    rfl
  | some us =>
    obtain ⟨pad, hpad⟩ := exists_run padSystem.init us
    rw [h, Option.bind_some, Option.getD_some, hpad]
    rfl

theorem lifeStep_of_withdraws (h : p.withdraws n = true) :
    lifeStep n us (nowMs, p) = none := if_pos h

theorem lifeStep_of_announces (h : p.announces n = true) :
    lifeStep n us (nowMs, p) =
      some (us.getD [] ++ if p.reports n then [p.update nowMs] else []) := by
  have hstays : ¬ p.withdraws n = true := by
    cases p with
    | arrival m => exact Bool.false_ne_true
    | multi m mask =>
      obtain ⟨hmn, hbit⟩ := Bool.and_eq_true_iff.mp h
      simp only [ControllerPacket.withdraws, hmn, hbit, Bool.not_true, Bool.and_false,
        Bool.false_eq_true, not_false_iff]
  rw [lifeStep, if_neg hstays, if_pos h]

theorem lifeStep_of_neither (hannounces : p.announces n = false)
    (hwithdraws : p.withdraws n = false) : lifeStep n us (nowMs, p) = us := by
  rw [lifeStep, hannounces, hwithdraws]
  rfl

/-- What a call makes of the pad is what its packet adds to its life. -/
theorem find?_onInputCall_eq (hpads : pads.find? n = us.bind (padSystem.run padSystem.init))
    (h : onInputCall pads nowMs p.call = some pads') :
    pads'.find? n = (lifeStep n us (nowMs, p)).bind (padSystem.run padSystem.init) := by
  have hold := getD_find? hpads
  cases p with
  | arrival m =>
    obtain rfl := Option.some.inj h
    by_cases hmn : m.toNat = n
    · have hannounces : (ControllerPacket.arrival m).announces n = true := decide_eq_true hmn
      rw [lifeStep_of_announces hannounces, gamepadArrival, hmn]
      simp only [ControllerPacket.reports, Bool.false_eq_true, if_false, List.append_nil,
        Option.bind_some, hold]
      split_ifs with hfound
      · obtain ⟨pad, hpad⟩ := Option.isSome_iff_exists.mp hfound
        rw [hpad, Option.getD_some]
      · rw [SortedMap.find?_insert_self, Option.not_isSome_iff_eq_none.mp hfound,
          Option.getD_none]
    · have hannounces : (ControllerPacket.arrival m).announces n = false := decide_eq_false hmn
      rw [lifeStep_of_neither hannounces rfl, ← hpads, gamepadArrival]
      split_ifs
      · rfl
      · exact SortedMap.find?_insert_of_ne (Ne.symm hmn) _ _
  | multi m mask flags lt rt lx ly rx ry =>
    obtain ⟨bit, hbit, h⟩ := Option.bind_eq_some_iff.mp h
    have hpresent : mask.toNat &&& bit = 0 ↔ mask.toNat.testBit m.toNat = false :=
      and_shiftOne_eq_zero hbit
    by_cases hmn : m.toNat = n
    · rw [hmn] at h hpresent
      split_ifs at h with hclear
      · obtain rfl := Option.some.inj h
        have hwithdraws : (ControllerPacket.multi m mask flags lt rt lx ly rx ry).withdraws n :=
          Bool.and_eq_true_iff.mpr ⟨decide_eq_true hmn, by rw [hpresent.mp hclear]; rfl⟩
        rw [lifeStep_of_withdraws hwithdraws]
        exact SortedMap.find?_erase_self _ _
      · obtain rfl := Option.some.inj h
        have hset : mask.toNat.testBit n = true :=
          Bool.eq_true_of_not_eq_false fun hbit => hclear (hpresent.mpr hbit)
        have hannounces : (ControllerPacket.multi m mask flags lt rt lx ly rx ry).announces n :=
          Bool.and_eq_true_iff.mpr ⟨decide_eq_true hmn, hset⟩
        rw [SortedMap.find?_insert_self, lifeStep_of_announces hannounces, Option.bind_some,
          System.run_append, hold, ControllerPacket.reports, decide_eq_true hmn]
        rfl
    · have hother : decide (m.toNat = n) = false := decide_eq_false hmn
      have hneither : (ControllerPacket.multi m mask flags lt rt lx ly rx ry).announces n = false ∧
          (ControllerPacket.multi m mask flags lt rt lx ly rx ry).withdraws n = false := by
        rw [ControllerPacket.announces, ControllerPacket.withdraws, hother]
        exact ⟨rfl, rfl⟩
      rw [lifeStep_of_neither hneither.1 hneither.2, ← hpads]
      split_ifs at h
      · obtain rfl := Option.some.inj h
        exact SortedMap.find?_erase_of_ne (Ne.symm hmn) _
      · obtain rfl := Option.some.inj h
        exact SortedMap.find?_insert_of_ne (Ne.symm hmn) _ _

/-- **The pad of a controller** is what the updates in its life have made of it. -/
theorem find?_run (hrun : gamepadSystem.run gamepadSystem.init events = some pads) (n : ℕ) :
    pads.find? n = (life n events).bind (padSystem.run padSystem.init) := by
  induction events using List.reverseRecOn generalizing pads with
  | nil =>
    obtain rfl := Option.some.inj hrun
    rw [life, List.foldl_nil, gamepadSystem]
    split_ifs with hn
    · rw [hn]
      exact SortedMap.find?_insert_self _ _ _
    · exact SortedMap.find?_insert_of_ne hn _ _
  | append_singleton events e ih =>
    obtain ⟨t, ht, hstep⟩ := System.run_concat_eq_some.mp hrun
    rw [life, List.foldl_append, List.foldl_cons, List.foldl_nil]
    exact find?_onInputCall_eq (ih ht) hstep

/-- A life is one of updates as they come out of packets. -/
theorem inRange_of_life {vs : List PadUpdate} (h : life n events = some vs) :
    ∀ u ∈ vs, u.InRange := by
  induction events using List.reverseRecOn generalizing vs with
  | nil =>
    rw [life, List.foldl_nil] at h
    split_ifs at h
    obtain rfl := Option.some.inj h
    exact List.forall_mem_nil _
  | append_singleton events e ih =>
    rw [life, List.foldl_append, List.foldl_cons, List.foldl_nil, ← life, lifeStep] at h
    split_ifs at h with hwithdraws hannounces hreports
    · obtain rfl := Option.some.inj h
      refine List.forall_mem_append.mpr ⟨?_, List.forall_mem_singleton.mpr (e.2.inRange_update _)⟩
      cases hlife : life n events with
      | none => exact List.forall_mem_nil _
      | some vs => exact ih hlife
    · obtain rfl := Option.some.inj h
      rw [List.append_nil]
      cases hlife : life n events with
      | none => exact List.forall_mem_nil _
      | some vs => exact ih hlife
    · exact ih h

/-- Packets that do not carry the state of a controller change nothing in its life. -/
theorem foldl_lifeStep_of_not_reports {vs : List PadUpdate}
    (h : ∀ e ∈ events, e.2.reports n = false) :
    events.foldl (lifeStep n) (some vs) = some vs := by
  induction events with
  | nil => rfl
  | cons e events ih =>
    obtain ⟨he, hevents⟩ := List.forall_mem_cons.mp h
    have hstep : lifeStep n (some vs) e = some vs := by
      obtain ⟨nowMs, p⟩ := e
      cases p with
      | arrival m =>
        rw [lifeStep]
        simp [ControllerPacket.withdraws, ControllerPacket.reports]
      | multi m mask =>
        have hmn : decide (m.toNat = n) = false := he
        rw [lifeStep_of_neither] <;>
          simp only [ControllerPacket.announces, ControllerPacket.withdraws, hmn, Bool.false_and]
    rw [List.foldl_cons, hstep, ih hevents]

/-- The life of a pad ends in the last packet about its controller. -/
theorem life_of_last {before after : List (ℤ × ControllerPacket)} (hannounces : p.announces n)
    (hreports : p.reports n) (hafter : ∀ e ∈ after, e.2.reports n = false) :
    ∃ vs, life n (before ++ (nowMs, p) :: after) = some (vs ++ [p.update nowMs]) := by
  refine ⟨(life n before).getD [], ?_⟩
  rw [life, List.foldl_append, List.foldl_cons, ← life,
    lifeStep_of_announces hannounces, if_pos hreports,
    foldl_lifeStep_of_not_reports hafter]

end Life

/-! ### The devices -/

/-- What has been read of the pad of controller `n`. -/
def padReport (n : ℕ) (events : List (ℤ × ControllerPacket)) : Report :=
  Report.read padSetup {} (padEvents padSystem.init ((life n events).getD []))

section Shown

variable {events : List (ℤ × ControllerPacket)} {pads : Gamepads} {n : ℕ}

/-- **What games see of the controllers.** In every run of controller packets a pad emits only
events its device has been set up for, with Back seen down once for each tap; and after the last
packet that carries the state of a controller, and says that it is there, the controller has a pad
whose device shows that state. -/
theorem controllers_shown (hrun : gamepadSystem.run gamepadSystem.init events = some pads) :
    (∀ us, life n events = some us →
      (∀ e ∈ padEvents padSystem.init us, padSetup.Has e) ∧
        (Report.views padSetup {} (padEvents padSystem.init us)).countP
          (fun v => v.down btnSelect) = (padTaps padSystem.init us).length) ∧
      ∀ before nowMs p after, events = before ++ (nowMs, p) :: after → p.announces n →
        p.reports n → (∀ e ∈ after, e.2.reports n = false) →
        ∃ pad, pads.find? n = some pad ∧ PadShows pad (p.update nowMs) (padReport n events) := by
  refine ⟨fun us hus => ?_, fun before nowMs p after hsplit hannounces hreports hafter => ?_⟩
  · exact ⟨has_padEvents (inRange_of_life hus), countP_views_padEvents (inRange_of_life hus) rfl⟩
  · obtain ⟨vs, hlife⟩ := @life_of_last n nowMs p before after hannounces hreports hafter
    rw [← hsplit] at hlife
    obtain ⟨pad, hpad⟩ := exists_run padSystem.init (vs ++ [p.update nowMs])
    refine ⟨pad, ?_, ?_⟩
    · rw [find?_run hrun n, hlife, Option.bind_some, hpad]
    · rw [padReport, hlife, Option.getD_some]
      exact padShows_concat (inRange_of_life hlife) rfl hpad

/-- Button A of controller 1, and then its arrival. -/
def pressThenArrival : List (ℤ × ControllerPacket) :=
  [(0, .multi 1 3 0x1000 0 0 0 0 0 0), (5, .arrival 1)]

theorem controllers_shown_pressThenArrival :
    ∃ pads pad, gamepadSystem.run gamepadSystem.init pressThenArrival = some pads ∧
      pads.find? 1 = some pad ∧
      PadShows pad { nowMs := 0, buttonFlags := 0x1000 } (padReport 1 pressThenArrival) := by
  have hrange : ∀ e ∈ pressThenArrival, e.2.InRange := by
    simp [pressThenArrival, ControllerPacket.InRange]
  obtain ⟨pads, hrun⟩ := exists_run_of_inRange hrange gamepadSystem.init
  obtain ⟨pad, hpad, hshows⟩ := (@controllers_shown _ pads 1 hrun).2 []
    0 (.multi 1 3 0x1000 0 0 0 0 0 0) [(5, .arrival 1)] rfl (by decide) (by decide) (by decide)
  exact ⟨pads, pad, hrun, hpad, hshows⟩

end Shown

end SteamStream.Media
