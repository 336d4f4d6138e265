import SteamStream.Library.CText
import SteamStream.Library.Properties
import SteamStream.Library.SortedMap

/-!
# Announcing a device without udev

There is no udev daemon in the container, so the server does its part for the pads it creates: an
entry in udev's database that says what the device is, and a message to the subscribers of udev's
monitor that it has come or gone.

A subscriber reads with libudev, which takes well-formed messages and entries for what they say
(`Libudev.Documented`). It gets what `base_event` has put together, for every device whose names
have no NUL (`messageProps_uevent`), and the entry is read back as what `write_hwdb` meant
(`entryProps_hwdbText`).
-/

namespace SteamStream.FakeUdev

open Wire CText

/-- One uinput node, as it is announced. -/
structure Device where
  devnode : Bytes
  syspath : Bytes
  major : ℕ := 13
  minor : ℕ := 0
  idInputClass : Bytes := ascii "joystick"
  deriving DecidableEq, Repr

/-! ### The header of a message -/

/-- The blocks of four bytes of `murmur2`, and the bytes that are left. -/
def murmur2Blocks (h : UInt32) : Bytes → UInt32 × Bytes
  | a :: b :: c :: d :: rest =>
    let k : UInt32 := .ofNat (ofLE [a, b, c, d]) * 0x5bd1e995
    let k := (k ^^^ (k >>> 24)) * 0x5bd1e995
    murmur2Blocks ((h * 0x5bd1e995) ^^^ k) rest
  | rest => (h, rest)

/-- MurmurHash2, the hash libudev has of a subsystem. -/
def murmur2 (key : Bytes) (seed : UInt32) : UInt32 :=
  let (h, rest) := murmur2Blocks (seed ^^^ .ofNat key.length) key
  let h : UInt32 :=
    match rest with
    | [a, b, c] =>
      (h ^^^ (c.toUInt32 <<< 16) ^^^ (b.toUInt32 <<< 8) ^^^ a.toUInt32) * 0x5bd1e995
    | [a, b] => (h ^^^ (b.toUInt32 <<< 8) ^^^ a.toUInt32) * 0x5bd1e995
    | [a] => (h ^^^ a.toUInt32) * 0x5bd1e995
    | _ => h
  let h := (h ^^^ (h >>> 13)) * 0x5bd1e995
  h ^^^ (h >>> 15)

/-- `htobe32` on a little-endian machine. -/
def htobe32 (x : ℕ) : ℕ := ofLE (beBytes 4 x)

/-- The header of systemd's device monitor. -/
structure MonitorNetlinkHeader where
  magic : ℕ := htobe32 0xfeedcafe
  headerSize : ℕ
  propertiesOff : ℕ
  propertiesLen : ℕ
  filterSubsystemHash : ℕ
  filterDevtypeHash : ℕ := 0
  filterTagBloomHi : ℕ := 0
  filterTagBloomLo : ℕ := 0

/-- The header in memory. -/
def MonitorNetlinkHeader.toBytes (h : MonitorNetlinkHeader) : Bytes :=
  ascii "libudev" ++ [0] ++
    [h.magic, h.headerSize, h.propertiesOff, h.propertiesLen, h.filterSubsystemHash,
      h.filterDevtypeHash, h.filterTagBloomHi, h.filterTagBloomLo].flatMap (leBytes 4)

/-! ### Messages -/

def classProps (dev : Device) : List Bytes :=
  if dev.idInputClass = ascii "mouse" then [ascii "ID_INPUT_MOUSE"]
  else if dev.idInputClass = ascii "keyboard" then [ascii "ID_INPUT_KEYBOARD", ascii "ID_INPUT_KEY"]
  else [ascii "ID_INPUT_JOYSTICK"]

/-- The properties `base_event` begins with; `ts` is the time in seconds. -/
def baseProps (dev : Device) (action : Bytes) (ts : ℕ) : List (Bytes × Bytes) :=
  [(ascii "ACTION", action), (ascii "SEQNUM", ascii "7"), (ascii "USEC_INITIALIZED", toDecimal ts),
    (ascii "SUBSYSTEM", ascii "input"), (ascii "ID_INPUT", ascii "1"),
    (ascii "ID_SERIAL", ascii "noserial"), (ascii "TAGS", ascii ":seat:uaccess:"),
    (ascii "CURRENT_TAGS", ascii ":seat:uaccess:"), (ascii "DEVNAME", dev.devnode),
    (ascii "DEVPATH", dev.syspath), (ascii "MAJOR", toDecimal dev.major),
    (ascii "MINOR", toDecimal dev.minor)]

/-- `base_event`: the properties of an "add" or a "remove". -/
def baseEvent (dev : Device) (action : Bytes) (ts : ℕ) : SortedMap Bytes Bytes :=
  (classProps dev).foldl (fun ev p => ev.insert p (ascii "1"))
    ((baseProps dev action ts).foldl (fun ev p => ev.insert p.1 p.2) ∅)

/-- `serialize_props`: a NUL after every `KEY=VALUE`. -/
def serializeProps (props : SortedMap Bytes Bytes) : Bytes :=
  props.entries.flatMap fun p => p.1 ++ 61 :: (p.2 ++ [0])

/-- The message `send_uevent` sends. -/
def uevent (props : SortedMap Bytes Bytes) : Bytes :=
  let payload := serializeProps props
  let header : MonitorNetlinkHeader :=
    { headerSize := 40
      propertiesOff := 40
      propertiesLen := payload.length
      filterSubsystemHash := htobe32 (murmur2 (ascii "input") 0).toNat }
  header.toBytes ++ payload

/-! ### The database -/

/-- `hwdb_path`. -/
def hwdbPath (dev : Device) : Bytes :=
  ascii "/run/udev/data" ++ ascii "/c" ++ toDecimal dev.major ++ ascii ":" ++ toDecimal dev.minor

/-- The entry `write_hwdb` writes. -/
def hwdbText (dev : Device) : Bytes :=
  ascii "E:ID_INPUT=1\n" ++ (classProps dev).flatMap (fun p => ascii "E:" ++ p ++ ascii "=1\n") ++
    ascii "E:ID_BUS=usb\nG:seat\nG:uaccess\nQ:seat\nQ:uaccess\nV:1\n"

/-! ### Finding the node of a pad -/

/-- `device_from_uinput_fd`, by what `UI_GET_SYSNAME` returns, what is in the directory of the input
device, and the device number of a node. -/
def deviceFromUinputFd (sysname : Option Bytes) (listing : Bytes → List Bytes)
    (stat : Bytes → Option (ℕ × ℕ)) : Option Device := do
  let sysname ← sysname
  let eventName ←
    (listing (ascii "/sys/devices/virtual/input/" ++ sysname)).find? fun n => ascii "event" <+: n
  let devnode := ascii "/dev/input/" ++ eventName
  let (major, minor) ← stat devnode
  return {
    devnode
    syspath := ascii "/devices/virtual/input/" ++ sysname ++ ascii "/" ++ eventName
    major
    minor }

/-! ### What subscribers read -/

/-- The properties in a message whose header is one of systemd's device monitor and names the
subsystem: they stand from `properties_off` on. -/
def messageProps (message : Bytes) : Option (List (Bytes × Bytes)) :=
  let propertiesOff := Field.getLE ⟨16, 4⟩ message
  if Field.slice ⟨0, 8⟩ message = ascii "libudev" ++ [0] ∧
      Field.getBE ⟨8, 4⟩ message = 0xfeedcafe ∧
      Field.getBE ⟨24, 4⟩ message = (murmur2 (ascii "input") 0).toNat ∧
      propertiesOff + 32 ≤ message.length then
    Properties.parse 61 0 (message.drop propertiesOff)
  else none

/-- The properties in the lines of an entry that begin with `E:`. -/
def entryProps (text : Bytes) : Option (List (Bytes × Bytes)) := do
  let lines ← Properties.parse 58 10 text
  (lines.filter fun l => l.1 = ascii "E").mapM fun l => Properties.cut 61 l.2

/-- What a subscriber uses of libudev. -/
structure Libudev where
  /-- The properties of a message, `none` if it is ignored. -/
  receive : Bytes → Option (List (Bytes × Bytes))
  /-- The properties of an entry of the database. -/
  readEntry : Bytes → Option (List (Bytes × Bytes))

/-- What is well formed is read; what becomes of anything else is not said. -/
structure Libudev.Documented (lib : Libudev) : Prop where
  receive : ∀ {message props}, messageProps message = some props →
    lib.receive message = some props
  readEntry : ∀ {text props}, entryProps text = some props → lib.readEntry text = some props

/-- What a game takes note of. -/
structure Seen where
  devnode : Bytes
  joystick : Bool
  deriving DecidableEq, Repr

/-- The devices a subscriber knows, by their paths, after a message. -/
def hear (lib : Libudev) (known : Bytes → Option Seen) (message : Bytes) : Bytes → Option Seen :=
  match lib.receive message with
  | none => known
  | some props =>
    match props.lookup (ascii "DEVPATH"), props.lookup (ascii "DEVNAME") with
    | some path, some devnode =>
      if props.lookup (ascii "ACTION") = some (ascii "add") then
        let joystick := props.lookup (ascii "ID_INPUT_JOYSTICK") = some (ascii "1")
        Function.update known path (some { devnode, joystick })
      else if props.lookup (ascii "ACTION") = some (ascii "remove") then
        Function.update known path none
      else known
    | _, _ => known

/-- The devices it knows that has listened from the start. -/
def heard (lib : Libudev) (messages : List Bytes) : Bytes → Option Seen :=
  messages.foldl (hear lib) fun _ => none

theorem heard_concat {lib : Libudev} {messages : List Bytes} {message : Bytes} :
    heard lib (messages ++ [message]) = hear lib (heard lib messages) message :=
  List.foldl_concat ..

/-- A libudev that ignores everything else. -/
def strictLibudev : Libudev := ⟨messageProps, entryProps⟩

theorem documented_strictLibudev : strictLibudev.Documented := ⟨id, id⟩

/-! ### What is put together -/

section Event

variable {dev : Device} {action : Bytes} {ts : ℕ}

/-- The properties of an event, as they are assigned. -/
def eventProps (dev : Device) (action : Bytes) (ts : ℕ) : List (Bytes × Bytes) :=
  baseProps dev action ts ++ (classProps dev).map fun p => (p, ascii "1")

theorem baseEvent_eq : baseEvent dev action ts =
    (eventProps dev action ts).foldl (fun ev p => ev.insert p.1 p.2) ∅ := by
  rw [eventProps, List.foldl_append, List.foldl_map]
  rfl

/-- The classes there are. -/
theorem classProps_cases {P : List Bytes → Prop} (hmouse : P [ascii "ID_INPUT_MOUSE"])
    (hkeyboard : P [ascii "ID_INPUT_KEYBOARD", ascii "ID_INPUT_KEY"])
    (hjoystick : P [ascii "ID_INPUT_JOYSTICK"]) : P (classProps dev) := by
  rw [classProps]
  split_ifs
  · exact hmouse
  · exact hkeyboard
  · exact hjoystick

/-- The keys `base_event` begins with. -/
def baseKeys : List Bytes :=
  ["ACTION", "SEQNUM", "USEC_INITIALIZED", "SUBSYSTEM", "ID_INPUT", "ID_SERIAL", "TAGS",
    "CURRENT_TAGS", "DEVNAME", "DEVPATH", "MAJOR", "MINOR"].map ascii

theorem map_fst_eventProps :
    (eventProps dev action ts).map Prod.fst = baseKeys ++ classProps dev := by
  rw [eventProps, List.map_append, List.map_map]
  exact congrArg _ (List.map_id _)

/-- No property is assigned twice. -/
theorem nodup_eventProps : ((eventProps dev action ts).map Prod.fst).Nodup := by
  rw [map_fst_eventProps]
  exact @classProps_cases dev (fun ps => (baseKeys ++ ps).Nodup) (by decide +kernel)
    (by decide +kernel) (by decide +kernel)

theorem find?_baseEvent {p : Bytes × Bytes} (hp : p ∈ eventProps dev action ts) :
    (baseEvent dev action ts).find? p.1 = some p.2 := by
  rw [baseEvent_eq]
  exact SortedMap.find?_foldl_insert nodup_eventProps hp ∅

/-- The names of the device have no NUL. -/
def Device.Clean (dev : Device) : Prop := 0 ∉ dev.devnode ∧ 0 ∉ dev.syspath

/-- There is no `=` and no NUL in the keys, and no NUL in the values. -/
theorem clean_baseEvent (hdev : dev.Clean) (haction : 0 ∉ action) :
    ∀ p ∈ (baseEvent dev action ts).entries, (61 ∉ p.1 ∧ 0 ∉ p.1) ∧ 0 ∉ p.2 := by
  have hkeys : ∀ k ∈ baseKeys ++ classProps dev, 61 ∉ k ∧ 0 ∉ k :=
    @classProps_cases dev (fun ps => ∀ k ∈ baseKeys ++ ps, 61 ∉ k ∧ 0 ∉ k) (by decide +kernel)
      (by decide +kernel) (by decide +kernel)
  have hdecimal : ∀ n : ℕ, 0 ∉ toDecimal n := fun n hmem =>
    absurd (isDigit_of_mem_toDecimal hmem) (by decide)
  have hvalues : ∀ p ∈ eventProps dev action ts, 0 ∉ p.2 := by
    have hone : 0 ∉ ascii "1" := by decide +kernel
    refine List.forall_mem_append.mpr ⟨?_, List.forall_mem_map.mpr fun _ _ => hone⟩
    simp only [baseProps, List.forall_mem_cons, List.not_mem_nil, false_imp_iff, implies_true,
      and_true]
    exact ⟨haction, by decide +kernel, hdecimal ts, by decide +kernel, by decide +kernel,
      by decide +kernel, by decide +kernel, by decide +kernel, hdev.1, hdev.2, hdecimal _,
      hdecimal _⟩
  rw [baseEvent_eq]
  refine @SortedMap.forall_mem_foldl_insert _ _ _ _ _ _ (fun k => 61 ∉ k ∧ 0 ∉ k) (fun v => 0 ∉ v)
    (fun p hp => ⟨hkeys p.1 ?_, hvalues p hp⟩) _ (List.forall_mem_nil _)
  rw [← map_fst_eventProps]
  exact List.mem_map_of_mem hp

theorem mem_entries_baseEvent {p : Bytes × Bytes} (hp : p ∈ eventProps dev action ts) :
    p ∈ (baseEvent dev action ts).entries := by
  have hlookup := find?_baseEvent hp
  rw [← SortedMap.lookup_entries, List.lookup_eq_some_iff] at hlookup
  obtain ⟨l, l', hsplit, -⟩ := hlookup
  rw [hsplit]
  exact List.mem_append_right l List.mem_cons_self

/-- **A message comes across.** It is well formed, with the properties `base_event` has put
together. -/
theorem messageProps_uevent (hdev : dev.Clean) (haction : 0 ∉ action) :
    messageProps (uevent (baseEvent dev action ts)) = some (baseEvent dev action ts).entries := by
  have hclean := @clean_baseEvent dev action ts hdev haction
  have hlong : 32 ≤ (serializeProps (baseEvent dev action ts)).length := by
    have htags : (ascii "TAGS", ascii ":seat:uaccess:") ∈ eventProps dev action ts := by
      simp [eventProps, baseProps]
    have hcurrent : (ascii "CURRENT_TAGS", ascii ":seat:uaccess:") ∈ eventProps dev action ts := by
      simp [eventProps, baseProps]
    have hle := @Properties.add_le_length_print _ 61 0 _ _ _ (mem_entries_baseEvent htags)
      (mem_entries_baseEvent hcurrent) (by decide +kernel)
    exact le_trans (by decide +kernel) hle
  have hslice : Field.slice ⟨16, 4⟩ (uevent (baseEvent dev action ts)) = leBytes 4 40 := rfl
  have hoff : Field.getLE ⟨16, 4⟩ (uevent (baseEvent dev action ts)) = 40 := by
    rw [Field.getLE, hslice]
    decide
  have hmagic : Field.slice ⟨8, 4⟩ (uevent (baseEvent dev action ts)) =
      leBytes 4 (htobe32 0xfeedcafe) := rfl
  have hhash : Field.slice ⟨24, 4⟩ (uevent (baseEvent dev action ts)) =
      leBytes 4 (htobe32 (murmur2 (ascii "input") 0).toNat) := rfl
  have hpayload : (uevent (baseEvent dev action ts)).drop 40 =
      Properties.print 61 0 (baseEvent dev action ts).entries := rfl
  have hlength : (uevent (baseEvent dev action ts)).length =
      40 + (serializeProps (baseEvent dev action ts)).length := by
    rw [uevent, List.length_append]
    rfl
  rw [messageProps, hoff, if_pos, hpayload]
  · refine Properties.parse_print (fun p hp => (hclean p hp).1.1) fun p hp hmem => ?_
    rcases List.mem_append.mp hmem with hkey | hvalue
    · exact (hclean p hp).1.2 hkey
    · rcases List.mem_cons.mp hvalue with heq | hvalue
      · exact absurd heq (by decide)
      · exact (hclean p hp).2 hvalue
  · rw [Field.getBE, Field.getBE, hmagic, hhash]
    exact ⟨rfl, by decide, by decide +kernel, by omega⟩

/-- What a subscriber takes the device for. -/
def Device.seen (dev : Device) : Seen where
  devnode := dev.devnode
  joystick := ascii "ID_INPUT_JOYSTICK" ∈ classProps dev

/-- What a subscriber looks up in an event. -/
private theorem lookup_baseEvent {p : Bytes × Bytes} (hp : p ∈ eventProps dev action ts) :
    (baseEvent dev action ts).entries.lookup p.1 = some p.2 :=
  (SortedMap.lookup_entries _ _).trans (find?_baseEvent hp)

private theorem lookup_joystick :
    (baseEvent dev action ts).entries.lookup (ascii "ID_INPUT_JOYSTICK") = some (ascii "1") ↔
      ascii "ID_INPUT_JOYSTICK" ∈ classProps dev := by
  constructor
  · intro hlookup
    by_contra hclass
    have hkey : ascii "ID_INPUT_JOYSTICK" ∉ (eventProps dev action ts).map Prod.fst := by
      rw [map_fst_eventProps, List.mem_append, not_or]
      exact ⟨by decide +kernel, hclass⟩
    rw [SortedMap.lookup_entries, baseEvent_eq, SortedMap.find?_foldl_insert_of_not_mem hkey]
      at hlookup
    exact Option.some_ne_none _ hlookup.symm
  · intro hclass
    have hp : (ascii "ID_INPUT_JOYSTICK", ascii "1") ∈ eventProps dev action ts :=
      List.mem_append_right _ (List.mem_map.mpr ⟨_, hclass, rfl⟩)
    exact lookup_baseEvent hp

/-- What a subscriber does with an event, by its action. -/
theorem hear_uevent {lib : Libudev} (hlib : lib.Documented) (hdev : dev.Clean)
    (haction : 0 ∉ action) (known : Bytes → Option Seen) :
    hear lib known (uevent (baseEvent dev action ts)) =
      if action = ascii "add" then Function.update known dev.syspath (some dev.seen)
      else if action = ascii "remove" then Function.update known dev.syspath none
      else known := by
  have hpath : (ascii "DEVPATH", dev.syspath) ∈ eventProps dev action ts := by
    simp [eventProps, baseProps]
  have hname : (ascii "DEVNAME", dev.devnode) ∈ eventProps dev action ts := by
    simp [eventProps, baseProps]
  have hact : (ascii "ACTION", action) ∈ eventProps dev action ts := by
    simp [eventProps, baseProps]
  rw [hear, hlib.receive (messageProps_uevent hdev haction)]
  dsimp only
  rw [lookup_baseEvent hpath, lookup_baseEvent hname, lookup_baseEvent hact]
  simp only [Option.some.injEq, lookup_joystick, Device.seen]

/-- **The entry says what the device is.** -/
theorem entryProps_hwdbText : entryProps (hwdbText dev) =
    some ((ascii "ID_INPUT", ascii "1") :: (classProps dev).map (fun p => (p, ascii "1")) ++
      [(ascii "ID_BUS", ascii "usb")]) := by
  exact @classProps_cases dev (fun ps =>
    entryProps (ascii "E:ID_INPUT=1\n" ++
      ps.flatMap (fun p => ascii "E:" ++ p ++ ascii "=1\n") ++
        ascii "E:ID_BUS=usb\nG:seat\nG:uaccess\nQ:seat\nQ:uaccess\nV:1\n") =
      some ((ascii "ID_INPUT", ascii "1") :: ps.map (fun p => (p, ascii "1")) ++
        [(ascii "ID_BUS", ascii "usb")])) (by decide +kernel) (by decide +kernel) (by decide +kernel)

end Event

end SteamStream.FakeUdev
