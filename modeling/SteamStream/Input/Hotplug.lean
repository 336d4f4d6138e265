import SteamStream.Input.FakeUdev
import SteamStream.Library.Mirror
import SteamStream.Library.Runs

/-!
# Pads that come and go

`VirtualGamepad::create` and its destructor take several steps each, and the pads of the sessions
are created and destroyed on the threads of their control servers and media sessions, so the steps
of different pads may come in any order. What they share is udev's database, its control file and
the subscribers of its monitor.

The kernel names the node of a new pad after a number that no other node has. A destructor does
not give its node back before it has withdrawn it and removed its entry, so no step touches what
belongs to another pad. What a step does may fail, and nobody notices. But if what the destructors
do does not, the database has exactly the entries of the pads in every run, and a subscriber knows
exactly the devices that have been announced and not withdrawn (`hotplug_exact`).
-/

namespace SteamStream.FakeUdev

open Wire CText Mirror Runs

/-! ### Nodes -/

/-- The node of a uinput device, by the numbers of its input device and of itself. -/
structure Node where
  input : ℕ
  event : ℕ
  deriving DecidableEq, Repr

namespace Node

variable (minor : ℕ → ℕ) (node : Node)

def sysname : Bytes := ascii "input" ++ toDecimal node.input

def eventName : Bytes := ascii "event" ++ toDecimal node.event

/-- How the node is announced; `minor` is the minor number the kernel has for a node. -/
def device : Device where
  devnode := ascii "/dev/input/" ++ node.eventName
  syspath := ascii "/devices/virtual/input/" ++ node.sysname ++ ascii "/" ++ node.eventName
  minor := minor node.event

/-- What is in the directory of the input device: no other name than that of the node begins with
"event". -/
def Lists (names : List Bytes) : Prop := ∀ n ∈ names, ascii "event" <+: n → n = node.eventName

instance (names : List Bytes) : Decidable (node.Lists names) :=
  inferInstanceAs (Decidable (∀ n ∈ names, _))

end Node

theorem toDecimal_injective : Function.Injective toDecimal := fun m n h => by
  rw [← digitsValue_toDecimal m, h, digitsValue_toDecimal]

/-- Two numbers with texts behind them that no digit begins. -/
theorem toDecimal_append_inj {m n : ℕ} {c : UInt8} {s t : Bytes} (hc : isDigit c = false)
    (h : toDecimal m ++ c :: s = toDecimal n ++ c :: t) : m = n ∧ s = t := by
  have htake : ∀ (k : ℕ) (u : Bytes), (toDecimal k ++ c :: u).takeWhile isDigit = toDecimal k := by
    intro k u
    rw [List.takeWhile_append_of_pos fun _ hb => isDigit_of_mem_toDecimal hb,
      List.takeWhile_cons_of_neg (by rw [hc]; exact Bool.false_ne_true), List.append_nil]
  have hmn : toDecimal m = toDecimal n := by rw [← htake m s, h, htake]
  rw [hmn] at h
  exact ⟨toDecimal_injective hmn, List.tail_eq_of_cons_eq (List.append_cancel_left h)⟩

section Node

variable {minor : ℕ → ℕ} {node node' : Node}

theorem clean_device : (node.device minor).Clean := by
  have hdecimal : ∀ n : ℕ, 0 ∉ toDecimal n := fun n hmem =>
    absurd (isDigit_of_mem_toDecimal hmem) (by decide)
  simp only [Device.Clean, Node.device, Node.eventName, Node.sysname, List.mem_append, not_or]
  exact ⟨⟨by decide +kernel, by decide +kernel, hdecimal _⟩,
    ⟨⟨by decide +kernel, by decide +kernel, hdecimal _⟩, by decide +kernel⟩, by decide +kernel,
    hdecimal _⟩

/-- Different nodes have different entries. -/
theorem event_eq_of_hwdbPath (hminor : Function.Injective minor)
    (h : hwdbPath (node.device minor) = hwdbPath (node'.device minor)) :
    node.event = node'.event := by
  simp only [hwdbPath, List.append_assoc] at h
  have htail := List.append_cancel_left (List.append_cancel_left h)
  exact hminor (toDecimal_injective
    (List.append_cancel_left (toDecimal_append_inj (by decide) htail).2))

/-- Different nodes have different paths. -/
theorem event_eq_of_syspath (h : (node.device minor).syspath = (node'.device minor).syspath) :
    node.event = node'.event := by
  simp only [Node.device, Node.sysname, Node.eventName, List.append_assoc] at h
  have htail := List.append_cancel_left (List.append_cancel_left h)
  obtain ⟨-, hevent⟩ := toDecimal_append_inj (c := 47) (by decide) htail
  exact toDecimal_injective (List.append_cancel_left hevent)

/-- The search finds the node of the pad, or nothing. -/
theorem deviceFromUinputFd_eq {sysname : Option Bytes} {names : List Bytes}
    {stat : Bytes → Option (ℕ × ℕ)} (hsysname : ∀ name, sysname = some name → name = node.sysname)
    (hnames : node.Lists names)
    (hstat : ∀ number, stat (ascii "/dev/input/" ++ node.eventName) = some number →
      number = (13, minor node.event)) {dev : Device}
    (h : deviceFromUinputFd sysname (fun _ => names) stat = some dev) :
    dev = node.device minor := by
  obtain ⟨name, hname, h⟩ := Option.bind_eq_some_iff.mp h
  obtain ⟨eventName, hfind, h⟩ := Option.bind_eq_some_iff.mp h
  obtain ⟨number, hnumber, h⟩ := Option.bind_eq_some_iff.mp h
  obtain rfl := hsysname name hname
  obtain rfl := hnames eventName (List.mem_of_find?_eq_some hfind)
    (of_decide_eq_true (List.find?_some (p := fun n => decide (ascii "event" <+: n)) hfind))
  obtain rfl := hstat number hnumber
  exact (Option.some.inj h).symm

end Node

/-! ### State -/

/-- Where the thread of a pad is. -/
inductive PadPc
  /-- `UI_DEV_CREATE` has been called. -/
  | created
  /-- The node has not been found, and the pad is never announced. -/
  | silent
  /-- In front of `ensure_udev_control`. -/
  | resolved (dev : Device)
  /-- In front of `write_hwdb`. -/
  | controlled (dev : Device)
  /-- The file of the entry is open. -/
  | opened (dev : Device)
  /-- The entry is there if the file could be opened, as much of it as has been kept. -/
  | written (dev : Device) (kept : Option ℕ)
  /-- `plug` is done; the event has been sent or not. -/
  | plugged (dev : Device) (kept : Option ℕ) (announced : Bool)
  /-- The destructor has sent the "remove", or tried to. -/
  | withdrawn (dev : Device) (kept : Option ℕ)
  /-- `unplug` is done. -/
  | forgotten (dev : Device)
  deriving DecidableEq, Repr

structure Pad where
  node : Node
  pc : PadPc
  deriving DecidableEq, Repr

/-- What the pads share. -/
structure Shared where
  /-- `/run/udev/control` exists. -/
  control : Bool := false
  /-- The files of the database. -/
  data : Bytes → Option Bytes := fun _ => none
  /-- The messages the subscribers of the monitor have got. -/
  messages : List Bytes := []

structure UdevState where
  shared : Shared := {}
  /-- The pads there are, by the numbers of their nodes. -/
  pads : ℕ → Option Pad := fun _ => none

/-! ### Steps -/

/-- A step of a pad's thread; what the system answers is part of it. -/
inductive PadAction
  /-- `device_from_uinput_fd`: the name is had or not, the directory is read, the node is looked up
  or not. -/
  | resolve (named : Bool) (names : List Bytes) (numbered : Bool)
  /-- `ensure_udev_control`: the file is made, if it has to be, or not. -/
  | ensureControl (made : Bool)
  | openEntry (ok : Bool)
  /-- The bytes of the text that are on the disk when the stream has been destroyed. -/
  | writeEntry (kept : ℕ)
  | announce (ts : ℕ) (sent : Bool)
  | withdraw (ts : ℕ) (sent : Bool)
  | removeEntry (removed : Bool)
  deriving DecidableEq, Repr

/-- A message, if it could be sent. -/
def Shared.send (sh : Shared) (dev : Device) (action : Bytes) (ts : ℕ) (sent : Bool) : Shared :=
  if sent then { sh with messages := sh.messages ++ [uevent (baseEvent dev action ts)] } else sh

def Shared.writeEntry (sh : Shared) (dev : Device) (text : Option Bytes) : Shared :=
  { sh with data := Function.update sh.data (hwdbPath dev) text }

/-- The step of a pad. -/
def Pad.act (minor : ℕ → ℕ) (pad : Pad) (sh : Shared) : PadAction → Option (PadPc × Shared)
  | .resolve named names numbered =>
    if pad.pc = .created ∧ pad.node.Lists names then
      let sysname := if named then some pad.node.sysname else none
      let stat := fun _ => if numbered then some (13, minor pad.node.event) else none
      match deviceFromUinputFd sysname (fun _ => names) stat with
      | none => some (.silent, sh)
      | some dev => some (.resolved dev, sh)
    else none
  | .ensureControl made =>
    match pad.pc with
    | .resolved dev => some (.controlled dev, { sh with control := sh.control || made })
    | _ => none
  | .openEntry ok =>
    match pad.pc with
    | .controlled dev =>
      some (if ok then (.opened dev, sh.writeEntry dev (some [])) else (.written dev none, sh))
    | _ => none
  | .writeEntry kept =>
    match pad.pc with
    | .opened dev =>
      some (.written dev (some kept), sh.writeEntry dev (some ((hwdbText dev).take kept)))
    | _ => none
  | .announce ts sent =>
    match pad.pc with
    | .written dev kept => some (.plugged dev kept sent, sh.send dev (ascii "add") ts sent)
    | _ => none
  | .withdraw ts sent =>
    match pad.pc with
    | .plugged dev kept _ => some (.withdrawn dev kept, sh.send dev (ascii "remove") ts sent)
    | _ => none
  | .removeEntry removed =>
    match pad.pc with
    | .withdrawn dev _ =>
      some (.forgotten dev, if removed then sh.writeEntry dev none else sh)
    | _ => none

/-- What can happen next. -/
inductive UdevEvent
  /-- `UI_DEV_CREATE`: the node is one that is not in use. -/
  | create (node : Node)
  | act (event : ℕ) (action : PadAction)
  /-- `UI_DEV_DESTROY`. -/
  | destroy (event : ℕ)
  deriving DecidableEq, Repr

def udevStep (minor : ℕ → ℕ) (st : UdevState) : UdevEvent → Option UdevState
  | .create node =>
    if st.pads node.event = none then
      some { st with pads := Function.update st.pads node.event (some ⟨node, .created⟩) }
    else none
  | .act event action => do
    let pad ← st.pads event
    let (pc, shared) ← pad.act minor st.shared action
    return { shared, pads := Function.update st.pads event (some ⟨pad.node, pc⟩) }
  | .destroy event => do
    let pad ← st.pads event
    match pad.pc with
    | .silent | .forgotten _ => return { st with pads := Function.update st.pads event none }
    | _ => none

/-- The pads and what they share. -/
def udevSystem (minor : ℕ → ℕ) : System UdevState UdevEvent where
  init := {}
  step := udevStep minor

/-- What a destructor undoes is undone: its message is sent, and the entry is removed. -/
def PadAction.undoes : PadAction → Bool
  | .withdraw _ sent => sent
  | .removeEntry removed => removed
  | _ => true

def UdevEvent.undoes : UdevEvent → Bool
  | .act _ action => action.undoes
  | _ => true

/-- The control file is made where it is not there. -/
def PadAction.controls : PadAction → Bool
  | .ensureControl made => made
  | _ => true

def UdevEvent.controls : UdevEvent → Bool
  | .act _ action => action.controls
  | _ => true

/-! ### What belongs to a pad -/

namespace PadPc

/-- The device a pad has found. -/
def device? : PadPc → Option Device
  | created | silent => none
  | resolved dev | controlled dev | opened dev | written dev _ | plugged dev _ _
  | withdrawn dev _ | forgotten dev => some dev

/-- Its entry in the database. -/
def entry : PadPc → Option (Bytes × Bytes)
  | opened dev => some (hwdbPath dev, [])
  | written dev (some kept) | plugged dev (some kept) _ | withdrawn dev (some kept) =>
    some (hwdbPath dev, (hwdbText dev).take kept)
  | _ => none

/-- What a subscriber knows of it. -/
def known : PadPc → Option (Bytes × Seen)
  | plugged dev _ true => some (dev.syspath, dev.seen)
  | _ => none

/-- `ensure_udev_control` has been called. -/
def controlled? : PadPc → Bool
  | created | silent | resolved _ => false
  | _ => true

theorem device?_of_entry {pc : PadPc} {row : Bytes × Bytes} (h : pc.entry = some row) :
    ∃ dev, pc.device? = some dev ∧ row.1 = hwdbPath dev := by
  unfold entry at h
  split at h
  · obtain rfl := Option.some.inj h
    exact ⟨_, rfl, rfl⟩
  · obtain rfl := Option.some.inj h
    exact ⟨_, rfl, rfl⟩
  · obtain rfl := Option.some.inj h
    exact ⟨_, rfl, rfl⟩
  · obtain rfl := Option.some.inj h
    exact ⟨_, rfl, rfl⟩
  · cases h

theorem device?_of_known {pc : PadPc} {row : Bytes × Seen} (h : pc.known = some row) :
    ∃ dev, pc.device? = some dev ∧ row.1 = dev.syspath := by
  unfold known at h
  split at h
  · obtain rfl := Option.some.inj h
    exact ⟨_, rfl, rfl⟩
  · cases h

end PadPc

/-! ### What a step does -/

/-- What a step of a pad can do. -/
inductive Acts (minor : ℕ → ℕ) (node : Node) :
    PadPc → Shared → PadAction → PadPc → Shared → Prop
  | silent {sh : Shared} {named numbered : Bool} {names : List Bytes} :
    Acts minor node .created sh (.resolve named names numbered) .silent sh
  | resolve {sh : Shared} {named numbered : Bool} {names : List Bytes} :
    Acts minor node .created sh (.resolve named names numbered)
      (.resolved (node.device minor)) sh
  | ensureControl {sh : Shared} {dev : Device} {made : Bool} :
    Acts minor node (.resolved dev) sh (.ensureControl made) (.controlled dev)
      { sh with control := sh.control || made }
  | openEntry {sh : Shared} {dev : Device} :
    Acts minor node (.controlled dev) sh (.openEntry true) (.opened dev)
      (sh.writeEntry dev (some []))
  | openFails {sh : Shared} {dev : Device} :
    Acts minor node (.controlled dev) sh (.openEntry false) (.written dev none) sh
  | writeEntry {sh : Shared} {dev : Device} {kept : ℕ} :
    Acts minor node (.opened dev) sh (.writeEntry kept) (.written dev (some kept))
      (sh.writeEntry dev (some ((hwdbText dev).take kept)))
  | announce {sh : Shared} {dev : Device} {kept : Option ℕ} {sent : Bool} {ts : ℕ} :
    Acts minor node (.written dev kept) sh (.announce ts sent) (.plugged dev kept sent)
      (sh.send dev (ascii "add") ts sent)
  | withdraw {sh : Shared} {dev : Device} {kept : Option ℕ} {announced sent : Bool} {ts : ℕ} :
    Acts minor node (.plugged dev kept announced) sh (.withdraw ts sent) (.withdrawn dev kept)
      (sh.send dev (ascii "remove") ts sent)
  | removeEntry {sh : Shared} {dev : Device} {kept : Option ℕ} {removed : Bool} :
    Acts minor node (.withdrawn dev kept) sh (.removeEntry removed) (.forgotten dev)
      (if removed then sh.writeEntry dev none else sh)

section Acts

variable {minor : ℕ → ℕ} {node : Node} {pad : Pad} {pc pc' : PadPc} {sh sh' : Shared}
  {action : PadAction}

theorem acts_of_act (h : pad.act minor sh action = some (pc', sh')) :
    Acts minor pad.node pad.pc sh action pc' sh' := by
  obtain ⟨node, pc⟩ := pad
  cases action with
  | resolve named names numbered =>
    by_cases hcreated : pc = .created ∧ node.Lists names
    · obtain ⟨rfl, hnames⟩ := hcreated
      rw [Pad.act, if_pos ⟨rfl, hnames⟩] at h
      dsimp only at h
      split at h
      · cases h
        exact .silent
      · rename_i dev hdev
        cases h
        have hdevice : dev = node.device minor :=
          deviceFromUinputFd_eq
            (fun name hname => (Option.some.inj (Option.ite_none_right_eq_some.mp hname).2).symm)
            hnames (fun number hnumber =>
              (Option.some.inj (Option.ite_none_right_eq_some.mp hnumber).2).symm) hdev
        rw [hdevice]
        exact .resolve
    · rw [Pad.act, if_neg hcreated] at h
      cases h
  | ensureControl made =>
    cases pc <;> cases h
    exact .ensureControl
  | openEntry ok =>
    cases pc <;> cases ok <;> cases h
    · exact .openFails
    · exact .openEntry
  | writeEntry kept =>
    cases pc <;> cases h
    exact .writeEntry
  | announce ts sent =>
    cases pc <;> cases h
    exact .announce
  | withdraw ts sent =>
    cases pc <;> cases h
    exact .withdraw
  | removeEntry removed =>
    cases pc <;> cases h
    exact .removeEntry

/-- A pad keeps to the device of its node. -/
theorem Acts.device (h : Acts minor node pc sh action pc' sh')
    (hdevice : ∀ dev, pc.device? = some dev → dev = node.device minor) :
    ∀ dev, pc'.device? = some dev → dev = node.device minor := by
  cases h with
  | silent => exact nofun
  | resolve => exact fun dev hdev => (Option.some.inj hdev).symm
  | ensureControl | openEntry | openFails | writeEntry | announce | withdraw | removeEntry =>
    exact hdevice

/-- A step leaves the database as it is, or writes or removes the entry of the pad. -/
theorem Acts.data (h : Acts minor node pc sh action pc' sh') (hundoes : action.undoes = true) :
    (sh'.data = sh.data ∧ pc'.entry = pc.entry) ∨
      ∃ dev text, pc.device? = some dev ∧
        sh'.data = Function.update sh.data (hwdbPath dev) text ∧
          pc'.entry = text.map (Prod.mk (hwdbPath dev)) := by
  cases h with
  | silent | resolve | ensureControl | openFails => exact .inl ⟨rfl, rfl⟩
  | openEntry => exact .inr ⟨_, some [], rfl, rfl, rfl⟩
  | @writeEntry _ dev kept => exact .inr ⟨dev, some ((hwdbText dev).take kept), rfl, rfl, rfl⟩
  | @announce _ dev kept sent =>
    refine .inl ⟨?_, ?_⟩
    · cases sent <;> rfl
    · cases kept <;> rfl
  | @withdraw _ dev kept announced sent =>
    refine .inl ⟨?_, ?_⟩
    · cases sent <;> rfl
    · cases kept <;> rfl
  | @removeEntry _ dev kept removed =>
    obtain rfl : removed = true := hundoes
    exact .inr ⟨dev, none, rfl, rfl, rfl⟩

/-- A step leaves the subscriber as it is, or tells it of the pad's device. -/
theorem Acts.known {lib : Libudev} (hlib : lib.Documented)
    (h : Acts minor node pc sh action pc' sh') (hclean : ∀ dev, pc.device? = some dev → dev.Clean)
    (hundoes : action.undoes = true) :
    (sh'.messages = sh.messages ∧ pc'.known = pc.known) ∨
      ∃ dev seen, pc.device? = some dev ∧
        heard lib sh'.messages = Function.update (heard lib sh.messages) dev.syspath seen ∧
          pc'.known = seen.map (Prod.mk dev.syspath) := by
  cases h with
  | silent | resolve | ensureControl | openEntry | openFails | writeEntry =>
    exact .inl ⟨rfl, rfl⟩
  | @removeEntry _ dev kept removed =>
    obtain rfl : removed = true := hundoes
    exact .inl ⟨rfl, rfl⟩
  | @announce _ dev kept sent ts =>
    cases sent with
    | false => exact .inl ⟨rfl, rfl⟩
    | true =>
      refine .inr ⟨dev, some dev.seen, rfl, heard_concat.trans ?_, rfl⟩
      exact (hear_uevent hlib (hclean dev rfl) (by decide +kernel) _).trans (if_pos rfl)
  | @withdraw _ dev kept announced sent ts =>
    obtain rfl : sent = true := hundoes
    refine .inr ⟨dev, none, rfl, heard_concat.trans ?_, rfl⟩
    refine (hear_uevent hlib (hclean dev rfl) (by decide +kernel) _).trans ?_
    rw [if_neg (by decide +kernel), if_pos rfl]

/-- The control file stays, and is there from `ensure_udev_control` on if it could be made. -/
theorem Acts.control (h : Acts minor node pc sh action pc' sh')
    (hcontrols : action.controls = true) :
    (sh.control = true → sh'.control = true) ∧
      (pc'.controlled? = true → pc.controlled? = true ∨ sh'.control = true) := by
  cases h with
  | silent | resolve | openEntry | openFails | writeEntry => exact ⟨id, .inl⟩
  | @ensureControl _ dev made =>
    obtain rfl : made = true := hcontrols
    exact ⟨fun _ => Bool.or_true _, fun _ => .inr (Bool.or_true _)⟩
  | @announce _ dev kept sent => cases sent <;> exact ⟨id, .inl⟩
  | @withdraw _ dev kept announced sent => cases sent <;> exact ⟨id, .inl⟩
  | @removeEntry _ dev kept removed => cases removed <;> exact ⟨id, fun _ => .inl rfl⟩

end Acts

/-! ### The invariant -/

/-- What the pads have, each under the number of its node. -/
def UdevState.rows {β : Type*} (st : UdevState) (f : PadPc → Option β) : ℕ → Option β :=
  fun event => (st.pads event).bind fun pad => f pad.pc

/-- Each pad has found its own node, and what is shared is what belongs to the pads. -/
structure UdevState.Exact (lib : Libudev) (minor : ℕ → ℕ) (st : UdevState) : Prop where
  event : ∀ event pad, st.pads event = some pad → pad.node.event = event
  device : ∀ event pad, st.pads event = some pad →
    ∀ dev, pad.pc.device? = some dev → dev = pad.node.device minor
  data : Mirrors st.shared.data (st.rows PadPc.entry)
  known : Mirrors (heard lib st.shared.messages) (st.rows PadPc.known)

/-- The control file is there for the pads that have made sure of it. -/
def UdevState.Controlled (st : UdevState) : Prop :=
  ∀ event pad, st.pads event = some pad → pad.pc.controlled? = true → st.shared.control = true

section Exact

variable {lib : Libudev} {minor : ℕ → ℕ} {st st' : UdevState} {event : ℕ} {pad : Pad}

theorem rows_of_pads {β : Type*} {f : PadPc → Option β} (h : st.pads event = some pad) :
    st.rows f event = f pad.pc := by
  rw [UdevState.rows, h]
  rfl

/-- What a pad has, if it has anything, is under a key of the device of its node. -/
private theorem node_of_row {β κ : Type*} {f : PadPc → Option (κ × β)} {key : Device → κ}
    (hst : st.Exact lib minor)
    (hf : ∀ {pc row}, f pc = some row → ∃ dev, pc.device? = some dev ∧ row.1 = key dev)
    {row : κ × β} (h : st.rows f event = some row) :
    ∃ node : Node, node.event = event ∧ row.1 = key (node.device minor) := by
  obtain ⟨pad, hpad, hrow⟩ := Option.bind_eq_some_iff.mp h
  obtain ⟨dev, hdev, hkey⟩ := hf hrow
  refine ⟨pad.node, hst.event event pad hpad, ?_⟩
  rw [hkey, hst.device event pad hpad dev hdev]

/-- Nobody else has anything under the key of a pad's device, and the pad has nothing under
another. -/
private theorem owns_row {β κ : Type*} {f : PadPc → Option (κ × β)} {key : Device → κ}
    (hst : st.Exact lib minor)
    (hf : ∀ {pc row}, f pc = some row → ∃ dev, pc.device? = some dev ∧ row.1 = key dev)
    (hkey : ∀ {node node' : Node}, key (node.device minor) = key (node'.device minor) →
      node.event = node'.event)
    (hpad : st.pads event = some pad) {dev : Device} (hdev : pad.pc.device? = some dev) :
    Owns (st.rows f) event (key dev) ∧ ∀ row, st.rows f event = some row → row.1 = key dev := by
  have hown := hst.device event pad hpad dev hdev
  constructor
  · intro other hother v hrow
    obtain ⟨node, hnode, hsame⟩ := node_of_row hst hf hrow
    rw [hown] at hsame
    exact hother (hnode.symm.trans ((hkey hsame).symm.trans (hst.event event pad hpad)))
  · intro row hrow
    rw [rows_of_pads hpad] at hrow
    obtain ⟨dev', hdev', hrow⟩ := hf hrow
    rw [hrow, Option.some.inj (hdev'.symm.trans hdev)]

theorem exact_init : UdevState.Exact lib minor {} where
  event := nofun
  device := nofun
  data := mirrors_none fun _ => rfl
  known := mirrors_none fun _ => rfl

/-- A pad without anything comes or goes. -/
private theorem exact_update {new : Option Pad} (hst : st.Exact lib minor)
    (hold : ∀ pad, st.pads event = some pad → pad.pc.entry = none ∧ pad.pc.known = none)
    (hnew : ∀ pad, new = some pad → pad.node.event = event ∧ pad.pc = .created) :
    UdevState.Exact lib minor { st with pads := Function.update st.pads event new } := by
  have hrows : ∀ {β : Type} (f : PadPc → Option β), f .created = none →
      (∀ pad, st.pads event = some pad → f pad.pc = none) → ∀ other,
      UdevState.rows { st with pads := Function.update st.pads event new } f other =
        st.rows f other := by
    intro β f hcreated hnone other
    by_cases hother : other = event
    · have hleft : (new.bind fun pad => f pad.pc) = none := by
        refine Option.bind_eq_none_iff.mpr fun pad hpad => ?_
        rw [(hnew pad hpad).2, hcreated]
      have hright : ((st.pads event).bind fun pad => f pad.pc) = none :=
        Option.bind_eq_none_iff.mpr hnone
      rw [hother, UdevState.rows, UdevState.rows, hright]
      dsimp only
      rw [Function.update_self, hleft]
    · rw [UdevState.rows, UdevState.rows]
      dsimp only
      rw [Function.update_of_ne hother]
  have hpads : ∀ other pad, Function.update st.pads event new other = some pad →
      st.pads other = some pad ∨ other = event ∧ new = some pad := by
    intro other pad hpad
    by_cases hother : other = event
    · rw [hother, Function.update_self] at hpad
      exact .inr ⟨hother, hpad⟩
    · rw [Function.update_of_ne hother] at hpad
      exact .inl hpad
  refine ⟨fun other pad hpad => ?_, fun other pad hpad dev hdev => ?_, ?_, ?_⟩
  · rcases hpads other pad hpad with hsame | ⟨rfl, hcreated⟩
    · exact hst.event other pad hsame
    · exact (hnew pad hcreated).1
  · rcases hpads other pad hpad with hsame | ⟨rfl, hcreated⟩
    · exact hst.device other pad hsame dev hdev
    · rw [(hnew pad hcreated).2] at hdev
      cases hdev
  · exact hst.data.of_eq (hrows _ rfl fun pad hpad => (hold pad hpad).1)
  · exact hst.known.of_eq (hrows _ rfl fun pad hpad => (hold pad hpad).2)

/-- A step of a pad changes only what is its own. -/
private theorem exact_act (hlib : lib.Documented) (hminor : Function.Injective minor)
    (hst : st.Exact lib minor) (hpad : st.pads event = some pad) {action : PadAction} {pc : PadPc}
    {sh : Shared} (hundoes : action.undoes = true)
    (hact : pad.act minor st.shared action = some (pc, sh)) :
    UdevState.Exact lib minor
      { shared := sh, pads := Function.update st.pads event (some ⟨pad.node, pc⟩) } := by
  have hacts := acts_of_act hact
  have hdevice := hst.device event pad hpad
  have hpads : ∀ other pad',
      Function.update st.pads event (some ⟨pad.node, pc⟩) other = some pad' →
        (other ≠ event ∧ st.pads other = some pad') ∨ other = event ∧ pad' = ⟨pad.node, pc⟩ := by
    intro other pad' hpad'
    by_cases hother : other = event
    · rw [hother, Function.update_self] at hpad'
      exact .inr ⟨hother, (Option.some.inj hpad').symm⟩
    · rw [Function.update_of_ne hother] at hpad'
      exact .inl ⟨hother, hpad'⟩
  have hsame : ∀ {β : Type} (f : PadPc → Option β), UdevState.rows
      { shared := sh, pads := Function.update st.pads event (some ⟨pad.node, pc⟩) } f event =
        f pc := fun f => @rows_of_pads _ event ⟨pad.node, pc⟩ _ f (Function.update_self ..)
  have hother : ∀ {β : Type} (f : PadPc → Option β), ∀ other, other ≠ event → UdevState.rows
      { shared := sh, pads := Function.update st.pads event (some ⟨pad.node, pc⟩) } f other =
        st.rows f other := by
    intro β f other hne
    rw [UdevState.rows, UdevState.rows]
    dsimp only
    rw [Function.update_of_ne hne]
  have hunchanged : ∀ {β : Type} (f : PadPc → Option β), f pc = f pad.pc → ∀ other, UdevState.rows
      { shared := sh, pads := Function.update st.pads event (some ⟨pad.node, pc⟩) } f other =
        st.rows f other := by
    intro β f heq other
    by_cases hne : other = event
    · rw [hne, hsame, heq, rows_of_pads hpad]
    · exact hother f other hne
  refine ⟨fun other pad' hpad' => ?_, fun other pad' hpad' dev hdev => ?_, ?_, ?_⟩
  · rcases hpads other pad' hpad' with ⟨-, hpad'⟩ | ⟨rfl, rfl⟩
    · exact hst.event other pad' hpad'
    · exact hst.event other pad hpad
  · rcases hpads other pad' hpad' with ⟨-, hpad'⟩ | ⟨rfl, rfl⟩
    · exact hst.device other pad' hpad' dev hdev
    · exact hacts.device hdevice dev hdev
  · rcases hacts.data hundoes with ⟨hdata, hentry⟩ | ⟨dev, text, hdev, hdata, hentry⟩
    · exact hdata ▸ hst.data.of_eq (hunchanged PadPc.entry hentry)
    · obtain ⟨howns, hold⟩ := owns_row hst PadPc.device?_of_entry
        (fun h => event_eq_of_hwdbPath hminor h) hpad hdev
      exact hdata ▸ hst.data.write howns hold ((hsame _).trans hentry) (hother _)
  · have hclean : ∀ dev, pad.pc.device? = some dev → dev.Clean :=
      fun dev hdev => hdevice dev hdev ▸ clean_device
    rcases hacts.known hlib hclean hundoes with ⟨hknown, hrow⟩ | ⟨dev, seen, hdev, hknown, hrow⟩
    · rw [hknown]
      exact hst.known.of_eq (hunchanged PadPc.known hrow)
    · obtain ⟨howns, hold⟩ := owns_row hst PadPc.device?_of_known
        (fun h => event_eq_of_syspath h) hpad hdev
      exact hknown ▸ hst.known.write howns hold ((hsame _).trans hrow) (hother _)

theorem exact_step (hlib : lib.Documented) (hminor : Function.Injective minor)
    (hst : st.Exact lib minor) {e : UdevEvent} (hundoes : e.undoes = true)
    (h : udevStep minor st e = some st') : st'.Exact lib minor := by
  cases e with
  | create node =>
    obtain ⟨hfree, h⟩ := Option.ite_none_right_eq_some.mp h
    obtain rfl := Option.some.inj h
    refine exact_update hst (fun pad hpad => ?_) fun pad hpad => ?_
    · exact absurd (hfree.symm.trans hpad) (Option.some_ne_none pad).symm
    · obtain rfl := Option.some.inj hpad
      exact ⟨rfl, rfl⟩
  | act event action =>
    obtain ⟨pad, hpad, h⟩ := Option.bind_eq_some_iff.mp h
    obtain ⟨⟨pc, sh⟩, hact, h⟩ := Option.bind_eq_some_iff.mp h
    obtain rfl := Option.some.inj h
    exact exact_act hlib hminor hst hpad hundoes hact
  | destroy event =>
    obtain ⟨pad, hpad, h⟩ := Option.bind_eq_some_iff.mp h
    have hnothing : pad.pc.entry = none ∧ pad.pc.known = none ∧
        st' = { st with pads := Function.update st.pads event none } := by
      split at h
      · rename_i hpc
        rw [hpc]
        exact ⟨rfl, rfl, (Option.some.inj h).symm⟩
      · rename_i hpc
        rw [hpc]
        exact ⟨rfl, rfl, (Option.some.inj h).symm⟩
      · cases h
    obtain ⟨hentry, hknown, rfl⟩ := hnothing
    refine exact_update hst (fun pad' hpad' => ?_) nofun
    obtain rfl := Option.some.inj (hpad.symm.trans hpad')
    exact ⟨hentry, hknown⟩

/-- In a run in which the destructors do what they try to, what is shared is what belongs to the
pads. -/
theorem exact_run (hlib : lib.Documented) (hminor : Function.Injective minor)
    {events : List UdevEvent}
    (hrun : (udevSystem minor).run (udevSystem minor).init events = some st)
    (hundoes : ∀ e ∈ events, e.undoes = true) : st.Exact lib minor :=
  System.run_of_along (I := fun t => t.Exact lib minor) (P := fun _ e => e.undoes = true)
    (fun hst hundoes hstep => exact_step hlib hminor hst hundoes hstep) exact_init
    (System.along_of_forall fun e he _ => hundoes e he) hrun

theorem controlled_step (hst : st.Controlled) {e : UdevEvent} (hcontrols : e.controls = true)
    (h : udevStep minor st e = some st') : st'.Controlled := by
  -- a pad that has come or gone has not made sure of it
  have hupdate : ∀ (event : ℕ) (new : Option Pad), (∀ pad, new = some pad → pad.pc = .created) →
      UdevState.Controlled { st with pads := Function.update st.pads event new } := by
    intro event new hnew other pad hpad hcontrolled
    dsimp only at hpad
    by_cases hother : other = event
    · rw [hother, Function.update_self] at hpad
      rw [hnew pad hpad] at hcontrolled
      cases hcontrolled
    · rw [Function.update_of_ne hother] at hpad
      exact hst other pad hpad hcontrolled
  cases e with
  | create node =>
    obtain ⟨-, h⟩ := Option.ite_none_right_eq_some.mp h
    obtain rfl := Option.some.inj h
    exact hupdate _ _ fun pad hpad => by rw [← Option.some.inj hpad]
  | act event action =>
    obtain ⟨pad, hpad, h⟩ := Option.bind_eq_some_iff.mp h
    obtain ⟨⟨pc, sh⟩, hact, h⟩ := Option.bind_eq_some_iff.mp h
    obtain rfl := Option.some.inj h
    obtain ⟨hkept, hmade⟩ := (acts_of_act hact).control hcontrols
    intro other pad' hpad' hcontrolled
    dsimp only at hpad' ⊢
    by_cases hother : other = event
    · rw [hother, Function.update_self] at hpad'
      obtain rfl := Option.some.inj hpad'
      exact (hmade hcontrolled).elim (fun h => hkept (hst event pad hpad h)) id
    · rw [Function.update_of_ne hother] at hpad'
      exact hkept (hst other pad' hpad' hcontrolled)
  | destroy event =>
    obtain ⟨pad, -, h⟩ := Option.bind_eq_some_iff.mp h
    split at h
    · obtain rfl := Option.some.inj h
      exact hupdate _ _ nofun
    · obtain rfl := Option.some.inj h
      exact hupdate _ _ nofun
    · cases h

theorem controlled_run {events : List UdevEvent}
    (hrun : (udevSystem minor).run (udevSystem minor).init events = some st)
    (hcontrols : ∀ e ∈ events, e.controls = true) : st.Controlled :=
  System.run_of_along (I := UdevState.Controlled) (P := fun _ e => e.controls = true)
    (fun hst hcontrols hstep => controlled_step hst hcontrols hstep)
    (fun _ pad hpad => absurd hpad (Option.some_ne_none pad).symm)
    (System.along_of_forall fun e he _ => hcontrols e he) hrun

theorem seen_device {node : Node} :
    (node.device minor).seen = { devnode := (node.device minor).devnode, joystick := true } := by
  have hclass : classProps (node.device minor) = [ascii "ID_INPUT_JOYSTICK"] := by
    have hnot : ascii "joystick" ≠ ascii "mouse" ∧ ascii "joystick" ≠ ascii "keyboard" := by
      decide +kernel
    exact (if_neg hnot.1).trans (if_neg hnot.2)
  rw [Device.seen, hclass]
  simp

/-- **What is announced is what there is.** Whatever the order of the steps of the pads, if the
destructors do what they try to: a subscriber knows exactly the joysticks whose pads have announced
and not withdrawn them, and finds the control file if it could be made; their entries, if they could
be written, say that they are joysticks; and there is no entry but that of a pad there is. -/
theorem hotplug_exact (hlib : lib.Documented) (hminor : Function.Injective minor)
    {events : List UdevEvent}
    (hrun : (udevSystem minor).run (udevSystem minor).init events = some st)
    (hundoes : ∀ e ∈ events, e.undoes = true) :
    (∀ path seen, heard lib st.shared.messages path = some seen ↔ ∃ event node kept,
      st.pads event = some ⟨node, .plugged (node.device minor) kept true⟩ ∧
        path = (node.device minor).syspath ∧
          seen = { devnode := (node.device minor).devnode, joystick := true }) ∧
      ((∀ e ∈ events, e.controls = true) → ∀ path seen,
        heard lib st.shared.messages path = some seen → st.shared.control = true) ∧
      (∀ event node kept announced,
        st.pads event = some ⟨node, .plugged (node.device minor) (some kept) announced⟩ →
        (hwdbText (node.device minor)).length ≤ kept →
          (st.shared.data (hwdbPath (node.device minor))).bind lib.readEntry =
            some [(ascii "ID_INPUT", ascii "1"), (ascii "ID_INPUT_JOYSTICK", ascii "1"),
              (ascii "ID_BUS", ascii "usb")]) ∧
      ∀ path text, st.shared.data path = some text → ∃ event pad,
        st.pads event = some pad ∧ pad.pc.device? = some (pad.node.device minor) ∧
          path = hwdbPath (pad.node.device minor) := by
  have hst := exact_run hlib hminor hrun hundoes
  have hknown : ∀ path seen, heard lib st.shared.messages path = some seen → ∃ event node kept,
      st.pads event = some ⟨node, .plugged (node.device minor) kept true⟩ ∧
        path = (node.device minor).syspath ∧
          seen = { devnode := (node.device minor).devnode, joystick := true } := by
    intro path seen hseen
    obtain ⟨event, hrow⟩ := (hst.known path seen).mp hseen
    obtain ⟨⟨node, pc⟩, hpad, hrow⟩ := Option.bind_eq_some_iff.mp hrow
    dsimp only [PadPc.known] at hrow
    split at hrow
    · rename_i dev kept
      obtain rfl : dev = node.device minor := hst.device event _ hpad dev rfl
      cases hrow
      exact ⟨event, node, kept, hpad, rfl, seen_device⟩
    · cases hrow
  refine ⟨fun path seen => ⟨hknown path seen, ?_⟩, fun hcontrols path seen hseen => ?_,
    fun event node kept announced hpad hwhole => ?_, fun path text htext => ?_⟩
  · rintro ⟨event, node, kept, hpad, rfl, rfl⟩
    refine (hst.known _ _).mpr ⟨event, ?_⟩
    rw [rows_of_pads hpad, ← seen_device]
    rfl
  · obtain ⟨event, node, kept, hpad, -⟩ := hknown path seen hseen
    exact controlled_run hrun hcontrols event _ hpad rfl
  · have hentry : st.shared.data (hwdbPath (node.device minor)) =
        some (hwdbText (node.device minor)) := by
      refine (hst.data _ _).mpr ⟨event, ?_⟩
      rw [rows_of_pads hpad]
      dsimp only [PadPc.entry]
      rw [List.take_of_length_le hwhole]
    rw [hentry, Option.bind_some]
    exact hlib.readEntry entryProps_hwdbText
  · obtain ⟨event, hrow⟩ := (hst.data path text).mp htext
    obtain ⟨pad, hpad, hrow⟩ := Option.bind_eq_some_iff.mp hrow
    obtain ⟨dev, hdev, hpath⟩ := PadPc.device?_of_entry hrow
    obtain rfl := hst.device event pad hpad dev hdev
    exact ⟨event, pad, hpad, hdev, hpath⟩

/-- A pad is created, and another one takes its node when it has gone; the entry of the first one
was cut. -/
def reusedNode : List UdevEvent :=
  let plug (kept : ℕ) := [.resolve true [ascii "id", ascii "event5"] true, .ensureControl true,
    .openEntry true, .writeEntry kept, .announce 17 true]
  [.create ⟨3, 5⟩] ++ (plug 7).map (.act 5) ++
    [.act 5 (.withdraw 18 true), .act 5 (.removeEntry true), .destroy 5, .create ⟨4, 5⟩] ++
    (plug 4096).map (.act 5)

theorem hotplug_exact_reusedNode : ∃ st,
    (udevSystem (64 + ·)).run (udevSystem (64 + ·)).init reusedNode = some st ∧
      heard strictLibudev st.shared.messages (ascii "/devices/virtual/input/input4/event5") =
        some { devnode := ascii "/dev/input/event5", joystick := true } := by
  have hpads : ((udevSystem (64 + ·)).run (udevSystem (64 + ·)).init reusedNode).map
      (fun st => st.pads 5) =
        some (some ⟨⟨4, 5⟩, .plugged (Node.device (64 + ·) ⟨4, 5⟩) (some 4096) true⟩) := by
    decide +kernel
  obtain ⟨st, hrun, hpad⟩ := Option.map_eq_some_iff.mp hpads
  have hexact := hotplug_exact documented_strictLibudev (fun m n h => Nat.add_left_cancel h) hrun
    (by decide +kernel)
  refine ⟨st, hrun, (hexact.1 _ _).mpr ⟨5, ⟨4, 5⟩, some 4096, hpad, ?_, ?_⟩⟩
  · decide +kernel
  · decide +kernel

end Exact

end SteamStream.FakeUdev
