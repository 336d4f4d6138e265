import Mathlib.Data.Bool.AllAny
import SteamStream.Crypto.X509
import SteamStream.Library.Runs
import SteamStream.Rest.Helpers
import SteamStream.Session.Registry

/-!
# Launch, resume and cancel

The three HTTPS endpoints that create, re-key and drop sessions. Each of them first asks the
certificate gate (`client_if_paired`), then works on the registry; the web server runs the
handlers one after the other, so a history of requests is a list of events and a handler is
one step.

`launch_like` answers with the RTSP address of one session. `Outcome.session` records which,
so that `KeyFresh` can say what the client relies on: that session holds the key the client
just sent. Every path captures the key but one: a `/launch` from an address that already has a
session returns that session as it is. `keyFresh_along_iff` is the exact condition, over every
run.
-/

namespace SteamStream.Rest

open Wire CText Session X509 Runs

/-! ### Server state -/

/-- An entry of the application list. -/
structure App where
  title : Bytes
  id : Bytes
  supportHdr : Bool := false
  deriving DecidableEq, Repr

/-- The server state the launch handlers read. -/
structure AppState where
  pairedClients : List Bytes := []
  apps : List App := [
    { title := ascii "Steam Big Picture", id := ascii "1" },
    { title := ascii "Steam Desktop", id := ascii "2" }]
  supportHevc : Bool := false
  supportAv1 : Bool := false
  rtspPort : ℕ := 48010
  videoStreamPort : UInt16 := 48100
  audioStreamPort : UInt16 := 48200
  controlStreamPort : UInt16 := 47999
  /-- `STEAM_STREAM_RTSP_FAKE_IP`, when it is set. -/
  envRtspFakeIp : Option Bytes := none
  /-- `main` has installed the callback that tears down the media. -/
  hasStopSession : Bool := true
  sessions : SessionRegistry := .initial

/-- What one launch draws at random. -/
structure LaunchRandom where
  rtpSecretPayload : Bytes
  enetSecretPayload : UInt32
  octet : Fin 4 → UInt8
  length_rtpSecretPayload : rtpSecretPayload.length = 16
  printable : ∀ c ∈ rtpSecretPayload, 33 ≤ c ∧ c ≤ 126

/-- The drawn address, in dotted form. -/
def LaunchRandom.fakeIp (rand : LaunchRandom) : Bytes :=
  [46].intercalate ((List.finRange 4).map fun i => toDecimal (rand.octet i).toNat)

/-- An HTTPS request. -/
structure Request (Cert : Type*) where
  path : Bytes
  clientCert : Option Cert
  clientIp : Bytes
  localIp : Bytes
  headers : Query

/-! ### Creating a session -/

/-- The numbers of `"%dx%dx%d"`: as many as can be read, up to `n`. -/
def scanInts : ℕ → Bytes → List ℤ
  | 0, _ => []
  | n + 1, s =>
    match scanInt s with
    | none => []
    | some (v, rest) =>
      v :: match rest with
        | 120 :: rest => scanInts n rest
        | _ => []

/-- `create_launch_session`. The id is taken before the query is read, so it is gone even when
`std::stoi` throws on `surroundAudioInfo` (`none`). -/
def createLaunchSession (state : AppState) (headers : Query) (clientIp : Bytes)
    (rand : LaunchRandom) : Option StreamSession × AppState :=
  let (id, sessions) := state.sessions.nextId
  let state := { state with sessions := sessions }
  let appId := (getHeader headers "appid").getD (ascii "1")
  let appName := ((state.apps.filter fun a => a.id = appId).getLast?.map App.title).getD []
  let mode := scanInts 3 (cString ((getHeader headers "mode").getD (ascii "1920x1080x60")))
  match stoi ((getHeader headers "surroundAudioInfo").getD (ascii "196610")) with
  | none => (none, state)
  | some surround =>
    (some {
      sessionId := id
      clientIp := clientIp
      appId := appId
      appName := appName
      clientWidth := mode.getD 0 1920
      clientHeight := mode.getD 1 1080
      clientFps := mode.getD 2 60
      -- the low sixteen bits are the number of channels
      audioChannelCount := surround % 65536
      aesKey := (getHeader headers "rikey").getD []
      aesIv := (getHeader headers "rikeyid").getD []
      hevcSupported := state.supportHevc
      av1Supported := state.supportAv1
      videoStreamPort := state.videoStreamPort
      audioStreamPort := state.audioStreamPort
      controlStreamPort := state.controlStreamPort
      rtpSecretPayload := rand.rtpSecretPayload
      enetSecretPayload := rand.enetSecretPayload
      rtspFakeIp := rand.fakeIp }, state)

/-- Whatever comes of it, an id is gone. -/
theorem createLaunchSession_snd {state : AppState} {headers : Query} {clientIp : Bytes}
    {rand : LaunchRandom} : (createLaunchSession state headers clientIp rand).2 =
      { state with sessions := state.sessions.nextId.2 } := by
  unfold createLaunchSession
  dsimp only
  split <;> rfl

/-! ### The handlers -/

/-- What a handler did: the state it left, its reply (`none` when it threw), the session whose
address the reply names and the session whose media it asked to stop. -/
structure Outcome where
  state : AppState
  reply : Option Reply := none
  session : Option SessionRef := none
  stopped : Option ℕ := none

section Handlers

variable {Cert : Type*} (ssl : OpenSSL Cert)

def clientIfPaired (state : AppState) (req : Request Cert) : Option PairedClient :=
  getClientViaSsl ssl state.pairedClients req.clientCert

def replyUnauthorized (path : Bytes) : Reply where
  statusCode := 401
  xml := [("<xmlattr>.status_code", toDecimal 401), ("<xmlattr>.query", path),
    ("<xmlattr>.status_message",
      ascii "The client is not authorized. Certificate verification failed.")]

/-- `rtsp://` address in a reply. -/
def sessionUrl (rtspHost rtspPort : Bytes) : Bytes :=
  ascii "rtsp://" ++ rtspHost ++ ascii ":" ++ rtspPort

def launchSuccess (rtspHost rtspPort : Bytes) : Xml :=
  [("<xmlattr>.status_code", toDecimal 200), ("sessionUrl0", sessionUrl rtspHost rtspPort),
    ("gamesession", toDecimal 1)]

def launchResume (rtspHost rtspPort : Bytes) : Xml :=
  [("<xmlattr>.status_code", toDecimal 200), ("sessionUrl0", sessionUrl rtspHost rtspPort),
    ("resume", toDecimal 1)]

/-- A resume from another device takes the session over. -/
def adoptClient (reg : SessionRegistry) (sess : SessionRef) (clientIp : Bytes) :
    SessionRegistry :=
  if (reg.object sess).clientIp ≠ clientIp then
    reg.modify sess fun s => { s with clientIp := clientIp }
  else reg

/-- A resume rotates the key, unless the request leaves it out. -/
def captureKey (reg : SessionRegistry) (sess : SessionRef) (headers : Query) :
    SessionRegistry :=
  let newKey := (getHeader headers "rikey").getD []
  let newIv := (getHeader headers "rikeyid").getD []
  if newKey ≠ [] ∧ newIv ≠ [] then
    reg.modify sess fun s => { s with aesKey := newKey, aesIv := newIv }
  else reg

/-- The RTSP host handed back for a session. -/
def rtspHost (state : AppState) (localIp : Bytes) (sess : SessionRef) : Bytes :=
  let useFakeIp := state.envRtspFakeIp.getD (ascii "TRUE") = ascii "TRUE"
  if useFakeIp then (state.sessions.object sess).rtspFakeIp else localIp

/-- The closing part of `launch_like`: the address of `sess` is handed back. -/
def answerLaunch (state : AppState) (req : Request Cert) (resume : Bool) (sess : SessionRef) :
    Outcome :=
  let host := rtspHost state req.localIp sess
  let port := toDecimal state.rtspPort
  { state := state
    reply := some {
      statusCode := 200
      xml := if resume then launchResume host port else launchSuccess host port }
    session := some sess }

/-- `/resume`. -/
def resume (state : AppState) (req : Request Cert) : Outcome :=
  match clientIfPaired ssl state req with
  | none => { state := state, reply := some (replyUnauthorized req.path) }
  | some _ =>
    -- a resume from another address falls back to the running session
    match (state.sessions.getByClientIp req.clientIp).or state.sessions.getRunning with
    | none =>
      { state := state
        reply := some { statusCode := 400, xml := failPair (ascii "no session") } }
    | some sess =>
      let sessions := captureKey (adoptClient state.sessions sess req.clientIp) sess req.headers
      answerLaunch { state with sessions := sessions } req true sess

/-- `/launch`. -/
def launch (state : AppState) (req : Request Cert) (rand : LaunchRandom) : Outcome :=
  match clientIfPaired ssl state req with
  | none => { state := state, reply := some (replyUnauthorized req.path) }
  | some _ =>
    match state.sessions.getByClientIp req.clientIp with
    | some sess => answerLaunch state req false sess
    | none =>
      match createLaunchSession state req.headers req.clientIp rand with
      | (none, state) => { state := state }
      | (some s, state) =>
        let sess := state.sessions.objects.length
        answerLaunch { state with sessions := state.sessions.add s } req false sess

/-- `/cancel`. -/
def cancel (state : AppState) (req : Request Cert) : Outcome :=
  match clientIfPaired ssl state req with
  | none => { state := state, reply := some (replyUnauthorized req.path) }
  | some _ =>
    let reply : Reply := {
      statusCode := 200
      xml := [("<xmlattr>.status_code", toDecimal 200), ("cancel", toDecimal 1)] }
    match state.sessions.getByClientIp req.clientIp with
    | none => { state := state, reply := some reply }
    | some sess =>
      let sid := (state.sessions.object sess).sessionId
      { state := { state with sessions := state.sessions.remove sid }
        reply := some reply
        stopped := if state.hasStopSession then some sid else none }

/-- A request to one of the three endpoints. -/
inductive Event (Cert : Type*)
  | launch (req : Request Cert) (rand : LaunchRandom)
  | resume (req : Request Cert)
  | cancel (req : Request Cert)

/-- The request of an event. -/
def Event.req : Event Cert → Request Cert
  | .launch req _ => req
  | .resume req => req
  | .cancel req => req

def handle (state : AppState) : Event Cert → Outcome
  | .launch req rand => launch ssl state req rand
  | .resume req => resume ssl state req
  | .cancel req => cancel ssl state req

/-- The endpoints as a system: every request is answered in every state. -/
def launchSystem (start : AppState) : Runs.System AppState (Event Cert) where
  init := start
  step state event := some (handle ssl state event).state

end Handlers

/-- The session recorded in an outcome is the one whose address the reply carries. -/
theorem handle_sessionUrl {Cert : Type*} {ssl : OpenSSL Cert} {state : AppState}
    {event : Event Cert} {sess : SessionRef} (h : (handle ssl state event).session = some sess) :
    ∃ reply, (handle ssl state event).reply = some reply ∧ reply.statusCode = 200 ∧
      ("sessionUrl0", sessionUrl (rtspHost (handle ssl state event).state event.req.localIp sess)
        (toDecimal (handle ssl state event).state.rtspPort)) ∈ reply.xml := by
  cases event with
  | launch req rand =>
    simp only [handle, launch, Event.req] at h ⊢
    split at h
    · cases h
    · split at h
      · obtain rfl := Option.some.inj h
        exact ⟨_, rfl, rfl, by simp [answerLaunch, launchSuccess]⟩
      · split at h
        · cases h
        · obtain rfl := Option.some.inj h
          exact ⟨_, rfl, rfl, by simp [answerLaunch, launchSuccess]⟩
  | resume req =>
    simp only [handle, resume, Event.req] at h ⊢
    split at h
    · cases h
    · split at h
      · cases h
      · obtain rfl := Option.some.inj h
        exact ⟨_, rfl, rfl, by simp [answerLaunch, launchResume]⟩
  | cancel req =>
    simp only [handle, cancel] at h
    split at h
    · cases h
    · split at h <;> cases h

/-- No handler drops a session object or changes its id. -/
theorem handle_extends {Cert : Type*} {ssl : OpenSSL Cert} {state : AppState}
    {event : Event Cert} : state.sessions.Extends (handle ssl state event).state.sessions := by
  have hadopt : ∀ (reg : SessionRegistry) sess clientIp,
      reg.Extends (adoptClient reg sess clientIp) := by
    intro reg sess clientIp
    unfold adoptClient
    split_ifs
    · exact SessionRegistry.extends_modify fun _ => rfl
    · exact SessionRegistry.Extends.rfl
  have hcapture : ∀ (reg : SessionRegistry) sess headers,
      reg.Extends (captureKey reg sess headers) := by
    intro reg sess headers
    unfold captureKey
    dsimp only
    split_ifs
    · exact SessionRegistry.extends_modify fun _ => rfl
    · exact SessionRegistry.Extends.rfl
  cases event with
  | launch req rand =>
    simp only [handle, launch]
    split
    · exact SessionRegistry.Extends.rfl
    · split
      · exact SessionRegistry.Extends.rfl
      · have hnew : state.sessions.Extends
            (createLaunchSession state req.headers req.clientIp rand).2.sessions := by
          rw [createLaunchSession_snd]
          exact SessionRegistry.extends_nextId
        split
        · rename_i heq
          rw [heq] at hnew
          exact hnew
        · rename_i heq
          rw [heq] at hnew
          exact hnew.trans SessionRegistry.extends_add
  | resume req =>
    simp only [handle, resume]
    split
    · exact SessionRegistry.Extends.rfl
    · split
      · exact SessionRegistry.Extends.rfl
      · exact (hadopt ..).trans (hcapture ..)
  | cancel req =>
    simp only [handle, cancel]
    split
    · exact SessionRegistry.Extends.rfl
    · split
      · exact SessionRegistry.Extends.rfl
      · exact SessionRegistry.extends_remove

theorem sessions_captureKey {reg : SessionRegistry} {sess : SessionRef} {headers : Query} :
    (captureKey reg sess headers).sessions = reg.sessions := by
  unfold captureKey
  dsimp only
  split_ifs <;> rfl

theorem sessions_adoptClient {reg : SessionRegistry} {sess : SessionRef} {clientIp : Bytes} :
    (adoptClient reg sess clientIp).sessions = reg.sessions := by
  unfold adoptClient
  split_ifs <;> rfl

/-- A handler drops a session from the registry only to have its media stopped. -/
theorem mem_handle_or_stopped {Cert : Type*} {ssl : OpenSSL Cert} {state : AppState}
    {event : Event Cert} (hstop : state.hasStopSession = true) {r : SessionRef}
    (hr : r ∈ state.sessions.sessions) :
    r ∈ (handle ssl state event).state.sessions.sessions ∨
      (handle ssl state event).stopped = some (state.sessions.object r).sessionId := by
  cases event with
  | launch req rand =>
    left
    simp only [handle, launch]
    split
    · exact hr
    · split
      · exact hr
      · have hnew : (createLaunchSession state req.headers req.clientIp rand).2.sessions.sessions =
            state.sessions.sessions := by rw [createLaunchSession_snd]; rfl
        split
        · rename_i heq
          rw [heq] at hnew
          exact hnew.symm ▸ hr
        · rename_i heq
          rw [heq] at hnew
          exact List.mem_append_left _ (hnew.symm ▸ hr)
  | resume req =>
    left
    simp only [handle, resume]
    split
    · exact hr
    · split
      · exact hr
      · change r ∈ (captureKey _ _ _).sessions
        rw [sessions_captureKey, sessions_adoptClient]
        exact hr
  | cancel req =>
    simp only [handle, cancel]
    split
    · exact .inl hr
    · split
      · exact .inl hr
      · rename_i sess _
        by_cases hid : (state.sessions.object r).sessionId = (state.sessions.object sess).sessionId
        · right
          simp only [hstop, if_true, hid]
        · left
          exact List.mem_filter.mpr ⟨hr, decide_eq_true hid⟩

theorem handle_hasStopSession {Cert : Type*} {ssl : OpenSSL Cert} {state : AppState}
    {event : Event Cert} :
    (handle ssl state event).state.hasStopSession = state.hasStopSession := by
  cases event with
  | launch req rand =>
    simp only [handle, launch]
    split
    · rfl
    · split
      · rfl
      · have hnew : (createLaunchSession state req.headers req.clientIp rand).2.hasStopSession =
            state.hasStopSession := by rw [createLaunchSession_snd]
        split
        · rename_i heq
          exact (congrArg (fun x => x.2.hasStopSession) heq).symm.trans hnew
        · rename_i heq
          exact (congrArg (fun x => x.2.hasStopSession) heq).symm.trans hnew
  | resume req =>
    simp only [handle, resume]
    split
    · rfl
    · split <;> rfl
  | cancel req =>
    simp only [handle, cancel]
    split
    · rfl
    · split <;> rfl

/-! ### Keys -/

/-- The query carries a non-empty `rikey` and a non-empty `rikeyid`. -/
def CarriesKey (headers : Query) (key iv : Bytes) : Prop :=
  getHeader headers "rikey" = some key ∧ getHeader headers "rikeyid" = some iv ∧
    key ≠ [] ∧ iv ≠ []

/-- The session holds exactly that key. -/
def HoldsKey (reg : SessionRegistry) (sess : SessionRef) (key iv : Bytes) : Prop :=
  (reg.object sess).aesKey = key ∧ (reg.object sess).aesIv = iv

/-- A created session holds the key of the query. -/
theorem createLaunchSession_holdsKey {state state' : AppState} {headers : Query}
    {clientIp key iv : Bytes} {rand : LaunchRandom} {s : StreamSession}
    (h : createLaunchSession state headers clientIp rand = (some s, state'))
    (hkey : CarriesKey headers key iv) : s.aesKey = key ∧ s.aesIv = iv := by
  obtain ⟨hrikey, hrikeyid, -, -⟩ := hkey
  unfold createLaunchSession at h
  dsimp only at h
  split at h
  · simp at h
  · obtain ⟨hs, -⟩ := Prod.mk.inj h
    rw [← Option.some.inj hs]
    simp only [hrikey, hrikeyid, Option.getD_some, and_self]

/-- Capturing the key stores it, in whatever session it is captured. -/
theorem captureKey_holdsKey {reg : SessionRegistry} {sess : SessionRef} {headers : Query}
    {key iv : Bytes} (hsess : sess < reg.objects.length) (hkey : CarriesKey headers key iv) :
    HoldsKey (captureKey reg sess headers) sess key iv := by
  obtain ⟨hrikey, hrikeyid, hkey, hiv⟩ := hkey
  simp only [captureKey, hrikey, hrikeyid, Option.getD_some, if_pos (And.intro hkey hiv)]
  rw [HoldsKey, SessionRegistry.object_modify_self hsess]
  exact ⟨rfl, rfl⟩

theorem adoptClient_length {reg : SessionRegistry} {sess : SessionRef} {clientIp : Bytes} :
    (adoptClient reg sess clientIp).objects.length = reg.objects.length := by
  unfold adoptClient
  split_ifs
  · exact List.length_modify ..
  · rfl

section KeyFreshness

variable {Cert : Type*} (ssl : OpenSSL Cert)

/-- After a request answered 200 whose query carries a key, the session the reply names holds
that key. -/
def KeyFresh (state : AppState) (event : Event Cert) : Prop :=
  ∀ reply sess key iv, (handle ssl state event).reply = some reply → reply.statusCode = 200 →
    (handle ssl state event).session = some sess → CarriesKey event.req.headers key iv →
      HoldsKey (handle ssl state event).state.sessions sess key iv

/-- An authorised launch that carries a key, from an address that already has a session, finds
that session holding the key already. -/
def RelaunchKeyHeld (state : AppState) : Event Cert → Prop
  | .launch req _ =>
    ∀ client sess key iv, clientIfPaired ssl state req = some client →
      state.sessions.getByClientIp req.clientIp = some sess →
        CarriesKey req.headers key iv → HoldsKey state.sessions sess key iv
  | .resume _ => True
  | .cancel _ => True

variable {ssl} {state : AppState}

theorem keyFresh_launch_iff {req : Request Cert} {rand : LaunchRandom} :
    KeyFresh ssl state (.launch req rand) ↔ RelaunchKeyHeld ssl state (.launch req rand) := by
  simp only [KeyFresh, RelaunchKeyHeld, handle, launch, Event.req]
  cases hclient : clientIfPaired ssl state req with
  | none => simp
  | some client =>
    cases hsess : state.sessions.getByClientIp req.clientIp with
    | some sess =>
      -- the existing session is handed back as it is
      simp only [answerLaunch, Option.some.injEq]
      constructor
      · rintro h _ _ key iv - rfl hkey
        exact h _ _ key iv rfl rfl rfl hkey
      · rintro h _ _ key iv - - rfl hkey
        exact h _ _ key iv rfl rfl hkey
    | none =>
      refine iff_of_true ?_ fun _ _ _ _ _ h => nomatch h
      rcases hnew : createLaunchSession state req.headers req.clientIp rand with ⟨_ | s, state'⟩
      · -- `std::stoi` threw: nothing is answered
        rintro _ _ _ _ ⟨⟩
      · rintro reply sess key iv - - hnamed hkey
        obtain rfl := Option.some.inj hnamed
        change HoldsKey (state'.sessions.add s) state'.sessions.objects.length key iv
        rw [HoldsKey, SessionRegistry.object_add_self]
        exact createLaunchSession_holdsKey hnew hkey

/-- A resume always leaves its session with the key it carries. -/
theorem keyFresh_resume {req : Request Cert} : KeyFresh ssl state (.resume req) := by
  intro reply sess key iv hreply hok hnamed hkey
  simp only [handle, resume] at hreply hnamed ⊢
  split at hnamed
  · cases hnamed
  · split at hnamed
    · cases hnamed
    · rename_i found hfound
      obtain rfl := Option.some.inj hnamed
      have hmem : found ∈ state.sessions.sessions := by
        rcases Option.or_eq_some_iff.mp hfound with h | ⟨-, h⟩
        · exact SessionRegistry.mem_of_getByClientIp h
        · exact SessionRegistry.mem_of_getRunning h
      refine captureKey_holdsKey ?_ hkey
      rw [adoptClient_length]
      exact state.sessions.sessions_lt found hmem

/-- A cancel names no session. -/
theorem keyFresh_cancel {req : Request Cert} : KeyFresh ssl state (.cancel req) := by
  rintro reply sess key iv - - hnamed -
  simp only [handle, cancel] at hnamed
  split at hnamed
  · cases hnamed
  · split at hnamed <;> cases hnamed

/-- One request is answered with a fresh key exactly when it does not relaunch onto a session
with another key. -/
theorem keyFresh_iff (state : AppState) (event : Event Cert) :
    KeyFresh ssl state event ↔ RelaunchKeyHeld ssl state event := by
  cases event with
  | launch req rand => exact keyFresh_launch_iff
  | resume req => exact iff_of_true keyFresh_resume trivial
  | cancel req => exact iff_of_true keyFresh_cancel trivial

variable (ssl)

/-- **When keys are fresh.** In a history of requests every reply names a session with the key
just sent if and only if no launch in it finds a session with another key. -/
theorem keyFresh_along_iff (start : AppState) (events : List (Event Cert)) :
    (launchSystem ssl start).Along (KeyFresh ssl) start events ↔
      (launchSystem ssl start).Along (RelaunchKeyHeld ssl) start events :=
  System.along_congr keyFresh_iff start events

/-! ### A launch onto a running session -/

/-- A server with one paired client. -/
def pairedStart : AppState where
  pairedClients := [[1, 1]]

/-- What a launch might draw. -/
def drawn (n : ℕ) : LaunchRandom where
  rtpSecretPayload := ascii "0123456789abcdef"
  enetSecretPayload := UInt32.ofNat n
  octet _ := UInt8.ofNat n
  length_rtpSecretPayload := by decide
  printable := by
    rw [← List.all_iff_forall_prop]
    decide

/-- That client asks for a launch with a key. -/
def launchWith (rikey rikeyid : String) : Event LeafCert :=
  .launch {
    path := ascii "/launch"
    clientCert := some ⟨1, 1⟩
    clientIp := ascii "192.168.1.20"
    localIp := ascii "192.168.1.2"
    headers := [(ascii "rikey", ascii rikey), (ascii "rikeyid", ascii rikeyid)] } (drawn 7)

/-- Two launches in a row with different keys: the second reply names the session of the
first, which still holds the first key. -/
theorem not_keyFresh_relaunch :
    ¬ (launchSystem leafSsl pairedStart).Along (KeyFresh leafSsl) pairedStart
      [launchWith "9d804e9d3a7d8f1b2c3d4e5f60718293" "16909060",
        launchWith "00112233445566778899aabbccddeeff" "305419896"] := by
  rintro ⟨-, hrest⟩
  obtain ⟨hsecond, -⟩ := hrest _ rfl
  obtain ⟨hkey, -⟩ := hsecond _ 0 (ascii "00112233445566778899aabbccddeeff") (ascii "305419896")
    rfl rfl rfl ⟨by decide, by decide, by decide, by decide⟩
  exact absurd hkey (by decide)

end KeyFreshness

end SteamStream.Rest
