import SteamStream.Library.Wire

/-!
# Streaming sessions

A `StreamSession` is what the HTTPS thread creates at `/launch` and the RTSP, control and media
threads read. The registry hands it out as a shared pointer: a control peer keeps its session
after `/cancel` has taken it out of the registry, and a write through one pointer is seen
through all. So the objects live in a list of their own, in creation order, and a pointer is a
position in it; the registry is the list of the pointers it still holds.

The searches of the registry are one definition, `SessionRegistry.find?`, applied to the test
each of them makes.
-/

namespace SteamStream.Session

open Wire

/-! ### Parameters -/

/-- The video codec. -/
inductive VideoFormat | h264 | hevc | av1
  deriving DecidableEq, Repr

inductive ColorRange | mpeg | jpeg
  deriving DecidableEq, Repr

/-- An `enum class` over `int`: what is cast to it may be none of its names. -/
structure ColorSpace where
  value : ℤ
  deriving DecidableEq, Repr

namespace ColorSpace

def bt601 : ColorSpace := ⟨0⟩

def bt709 : ColorSpace := ⟨1⟩

def bt2020 : ColorSpace := ⟨2⟩

end ColorSpace

/-- The video parameters `ANNOUNCE` negotiates. -/
structure VideoParams where
  width : ℤ := 0
  height : ℤ := 0
  fps : ℤ := 0
  format : VideoFormat := .h264
  packetSize : ℤ := 1392
  fecPercentage : ℤ := 20
  minRequiredFecPackets : ℤ := 2
  bitrateKbps : ℤ := 15500
  slicesPerFrame : ℤ := 1
  framesWithInvalidRefThreshold : ℤ := 0
  timeoutMs : ℤ := 7000
  colorRange : ColorRange := .mpeg
  colorSpace : ColorSpace := .bt601
  deriving DecidableEq, Repr

/-- The audio parameters `ANNOUNCE` negotiates. -/
structure AudioParams where
  encrypt : Bool := false
  channels : ℤ := 2
  streams : ℤ := 1
  coupledStreams : ℤ := 1
  bitrate : ℤ := 96000
  packetDuration : ℤ := 5
  deriving DecidableEq, Repr

/-- One client's session. `aesKey` and `aesIv` are the `rikey` and `rikeyid` of the query,
verbatim. -/
structure StreamSession where
  sessionId : ℕ := 0
  clientIp : Bytes := []
  /-- Handed back in `sessionUrl0`, so that RTSP requests can name the session. -/
  rtspFakeIp : Bytes := []
  appId : Bytes := []
  appName : Bytes := []
  aesKey : Bytes := []
  aesIv : Bytes := []
  clientWidth : ℤ := 0
  clientHeight : ℤ := 0
  clientFps : ℤ := 0
  audioChannelCount : ℤ := 2
  hevcSupported : Bool := false
  av1Supported : Bool := false
  videoStreamPort : UInt16 := 0
  audioStreamPort : UInt16 := 0
  controlStreamPort : UInt16 := 0
  /-- Sixteen characters, returned in `SETUP`. -/
  rtpSecretPayload : Bytes := List.replicate 16 0
  enetSecretPayload : UInt32 := 0
  announced : Bool := false
  playing : Bool := false
  video : VideoParams := {}
  audio : AudioParams := {}
  deriving DecidableEq, Repr

/-! ### The registry -/

/-- A `shared_ptr<StreamSession>`: the position of the object among all created so far. -/
abbrev SessionRef := ℕ

/-- The session objects and the registry's pointers to them, in registration order. Every
pointer points at an object. -/
structure SessionRegistry where
  objects : List StreamSession := []
  sessions : List SessionRef := []
  nextSessionId : ℕ := 1
  sessions_lt : ∀ r ∈ sessions, r < objects.length := by simp

namespace SessionRegistry

/-- The registry of a server that has just been started. -/
def initial : SessionRegistry where

variable (reg : SessionRegistry)

/-- The object behind a pointer. Pointers only come from `add`, so the default is not read. -/
def object (r : SessionRef) : StreamSession := reg.objects.getD r {}

/-- `add`: the object is new, its pointer goes to the end of the registry. -/
def add (s : StreamSession) : SessionRegistry where
  objects := reg.objects ++ [s]
  sessions := reg.sessions ++ [reg.objects.length]
  nextSessionId := reg.nextSessionId
  sessions_lt r hr := by
    rw [List.length_append, List.length_singleton]
    rcases List.mem_append.mp hr with hr | hr
    · exact Nat.lt_succ_of_lt (reg.sessions_lt r hr)
    · rw [List.mem_singleton] at hr
      exact hr ▸ Nat.lt_succ_self _

/-- `remove`: every pointer to a session with that id is dropped; the objects stay. -/
def remove (sessionId : ℕ) : SessionRegistry where
  objects := reg.objects
  sessions := reg.sessions.filter fun r => (reg.object r).sessionId ≠ sessionId
  nextSessionId := reg.nextSessionId
  sessions_lt r hr := reg.sessions_lt r (List.mem_filter.mp hr).1

/-- A write through a pointer. -/
def modify (r : SessionRef) (f : StreamSession → StreamSession) : SessionRegistry where
  objects := reg.objects.modify r f
  sessions := reg.sessions
  nextSessionId := reg.nextSessionId
  sessions_lt r hr := by
    rw [List.length_modify]
    exact reg.sessions_lt r hr

/-- `next_id`: the id handed out is never handed out again. -/
def nextId : ℕ × SessionRegistry :=
  (reg.nextSessionId, { reg with nextSessionId := reg.nextSessionId + 1 })

/-- The first registered session that passes a test. -/
def find? (p : StreamSession → Bool) : Option SessionRef :=
  reg.sessions.find? fun r => p (reg.object r)

def getByClientIp (ip : Bytes) : Option SessionRef := reg.find? fun s => s.clientIp = ip

def getById (id : ℕ) : Option SessionRef := reg.find? fun s => s.sessionId = id

/-- The session an RTSP request is about: the fake IP in the URI or the `Host` option names it,
and a client that sent neither is found by its peer address. -/
def getForRtsp (uriIp hostOpt peerIp : Bytes) : Option SessionRef :=
  reg.find? fun s =>
    (s.rtspFakeIp = uriIp ∨ hostOpt = s.rtspFakeIp) ∨
      ((hostOpt = ascii "0.0.0.0" ∨ hostOpt = []) ∧ s.clientIp = peerIp)

/-- The session registered first. -/
def getRunning : Option SessionRef := reg.sessions.head?

def empty : Bool := reg.sessions.isEmpty

/-! ### What the operations change -/

variable {reg} {r : SessionRef} {s : StreamSession} {f : StreamSession → StreamSession}

@[simp]
theorem object_add_self : (reg.add s).object reg.objects.length = s := by
  simp [object, add, List.getD_eq_getElem?_getD]

theorem object_add_of_lt (h : r < reg.objects.length) : (reg.add s).object r = reg.object r := by
  simp only [object, add, List.getD_eq_getElem?_getD, List.getElem?_append_left h]

@[simp]
theorem object_remove {id : ℕ} : (reg.remove id).object r = reg.object r := rfl

@[simp]
theorem object_nextId : reg.nextId.2.object r = reg.object r := rfl

theorem object_modify_self (h : r < reg.objects.length) :
    (reg.modify r f).object r = f (reg.object r) := by
  simp only [object, modify, List.getD_eq_getElem?_getD, List.getElem?_modify_eq,
    List.getElem?_eq_getElem h]
  rfl

theorem object_modify_of_ne {r' : SessionRef} (h : r ≠ r') :
    (reg.modify r f).object r' = reg.object r' := by
  rw [object, modify, List.getD_eq_getElem?_getD, List.getElem?_modify_ne _ _ h]
  rfl

/-- What the write does not touch, in whatever object. -/
theorem field_modify {β : Type*} {g : StreamSession → β} {r' : SessionRef}
    (hf : ∀ s, g (f s) = g s) : g ((reg.modify r f).object r') = g (reg.object r') := by
  by_cases h : r = r'
  · subst h
    by_cases hlt : r < reg.objects.length
    · rw [object_modify_self hlt, hf]
    · simp [object, modify, List.getD_eq_getElem?_getD, hlt]
  · rw [object_modify_of_ne h]

/-- Every object of `reg` is still there in `reg'`, under the same id. -/
structure Extends (reg reg' : SessionRegistry) : Prop where
  length_le : reg.objects.length ≤ reg'.objects.length
  sessionId : ∀ r < reg.objects.length, (reg'.object r).sessionId = (reg.object r).sessionId

theorem Extends.rfl {reg : SessionRegistry} : reg.Extends reg :=
  ⟨le_rfl, fun _ _ => Eq.refl _⟩

theorem Extends.trans {reg₁ reg₂ reg₃ : SessionRegistry} (h₁ : reg₁.Extends reg₂)
    (h₂ : reg₂.Extends reg₃) : reg₁.Extends reg₃ where
  length_le := h₁.length_le.trans h₂.length_le
  sessionId r hr := (h₂.sessionId r (hr.trans_le h₁.length_le)).trans (h₁.sessionId r hr)

theorem extends_add : reg.Extends (reg.add s) where
  length_le := by simp [add]
  sessionId r hr := by rw [object_add_of_lt hr]

theorem extends_remove {id : ℕ} : reg.Extends (reg.remove id) :=
  ⟨le_rfl, fun _ _ => Eq.refl _⟩

theorem extends_nextId : reg.Extends reg.nextId.2 :=
  ⟨le_rfl, fun _ _ => Eq.refl _⟩

/-- A write that keeps the id. -/
theorem extends_modify (hf : ∀ s, (f s).sessionId = s.sessionId) :
    reg.Extends (reg.modify r f) where
  length_le := (List.length_modify ..).ge
  sessionId r' hr' := by
    by_cases h : r = r'
    · rw [← h, object_modify_self (h ▸ hr'), hf]
    · rw [object_modify_of_ne h]

/-- What a search returns is registered and passes the test. -/
theorem find?_eq_some {p : StreamSession → Bool} (h : reg.find? p = some r) :
    r ∈ reg.sessions ∧ p (reg.object r) = true :=
  ⟨List.mem_of_find?_eq_some h, List.find?_some (p := fun r => p (reg.object r)) h⟩

theorem mem_of_getByClientIp {ip : Bytes} (h : reg.getByClientIp ip = some r) :
    r ∈ reg.sessions := (find?_eq_some h).1

theorem clientIp_of_getByClientIp {ip : Bytes} (h : reg.getByClientIp ip = some r) :
    (reg.object r).clientIp = ip := of_decide_eq_true (find?_eq_some h).2

theorem mem_of_getRunning (h : reg.getRunning = some r) : r ∈ reg.sessions :=
  List.mem_of_mem_head? h

theorem mem_of_getById {id : ℕ} (h : reg.getById id = some r) : r ∈ reg.sessions :=
  (find?_eq_some h).1

theorem sessionId_of_getById {id : ℕ} (h : reg.getById id = some r) :
    (reg.object r).sessionId = id := of_decide_eq_true (find?_eq_some h).2

end SessionRegistry

end SteamStream.Session
