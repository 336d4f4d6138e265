import SteamStream.Library.BinaryFloat
import SteamStream.Rtsp.Parser
import SteamStream.Session.Registry

/-!
# The RTSP commands

`message_handler` and the handlers of the verbs, as functions of the request and of the session it
is for. `ANNOUNCE` captures the parameters the client has negotiated (`videoParams`, `audioParams`);
`PLAY` hands the session to the callback that starts the media.

Every request comes on a connection of its own, and `message_handler` goes by its verb alone:
nothing is asked of the requests that came before.
-/

namespace SteamStream.Rtsp

open Wire CText Session

/-! ### Audio layouts -/

/-- `audio_cfg::Config`. -/
structure AudioConfig where
  channels : ℤ
  streams : ℤ
  coupledStreams : ℤ
  bitrate : ℤ
  deriving DecidableEq, Repr

def configurations : List AudioConfig :=
  [⟨2, 1, 1, 96000⟩, ⟨6, 4, 2, 256000⟩, ⟨8, 5, 3, 450000⟩]

/-- `speaker_string`: the coded channel of each speaker, in the order of GFE. -/
def speakerString (c : AudioConfig) : Bytes :=
  let m : List ℕ :=
    if c.channels = 6 then [0, 1, 4, 5, 2, 3]
    else if c.channels = 8 then [0, 1, 6, 7, 2, 3, 4, 5]
    else [0, 1]
  let m := if 2 < c.channels then m.take 3 ++ (m.drop 3).rotateLeft 1 else m
  m.map fun coded => UInt8.ofNat (coded + 48)

/-- The layout with that many channels, stereo if there is none. -/
def forChannels (channels : ℤ) : AudioConfig :=
  (configurations.find? fun c => c.channels = channels).getD (configurations.head (by decide))

/-! ### Answers -/

def fsPenTouchEvents : ℕ := 0x01

def fsControllerTouchEvents : ℕ := 0x02

def errorMsg (statusCode : UInt16) (msg : String) (seq : ℤ) : RtspPacket where
  type := .response
  seqNumber := seq
  response := ⟨statusCode, ascii msg⟩

def okMsg (seq : ℤ) (options : SortedMap Bytes Bytes := ∅)
    (payloads : List (Bytes × Bytes) := []) : RtspPacket where
  type := .response
  seqNumber := seq
  response := ⟨200, ascii "OK"⟩
  options := options
  payloads := payloads

def describe (req : RtspPacket) (s : StreamSession) : RtspPacket :=
  let hevc := if s.hevcSupported then [([], ascii "sprop-parameter-sets=AAAAAU")] else []
  let av1 := if s.av1Supported then [(ascii "a", ascii "a=rtpmap:98 AV1/90000")] else []
  let surround := configurations.map fun cfg =>
    (ascii "a", ascii "fmtp:97 surround-params=" ++ printInt cfg.channels ++ printInt cfg.streams ++
      printInt cfg.coupledStreams ++ speakerString cfg)
  let flags := (ascii "a", ascii "x-ss-general.featureFlags: " ++
    toDecimal (fsPenTouchEvents ||| fsControllerTouchEvents))
  okMsg req.seqNumber ∅ (hevc ++ av1 ++ surround ++ [flags])

def setup (req : RtspPacket) (s : StreamSession) : RtspPacket :=
  let type := req.request.stream.type
  let options := SortedMap.insert ∅ (ascii "Session") (ascii "DEADBEEFCAFE;timeout = 90")
  let transport (port : UInt16) : SortedMap Bytes Bytes :=
    options.insert (ascii "Transport") (ascii "server_port=" ++ toDecimal port.toNat)
  if type = ascii "audio" then
    okMsg req.seqNumber
      ((transport s.audioStreamPort).insert (ascii "X-SS-Ping-Payload") s.rtpSecretPayload)
  else if type = ascii "video" then
    okMsg req.seqNumber
      ((transport s.videoStreamPort).insert (ascii "X-SS-Ping-Payload") s.rtpSecretPayload)
  else if type = ascii "control" then
    okMsg req.seqNumber ((transport s.controlStreamPort).insert (ascii "X-SS-Connect-Data")
      (toDecimal s.enetSecretPayload.toNat))
  else errorMsg 404 "NOT FOUND" req.seqNumber

/-! ### What `ANNOUNCE` captures -/

/-- `parse_arg_line`: the name of an attribute, and its number if it is one. -/
def parseArgLine (line : Bytes × Bytes) : Bytes × Option ℤ :=
  match line.2.dropWhile (· ≠ 58) with
  | [] => (line.2, none)
  | _ :: rest => (line.2.takeWhile (· ≠ 58), stoi rest)

/-- A line that gives a number is read as that number. -/
theorem parseArgLine_toDecimal {key name : Bytes} {n : ℕ} (hname : (58 : UInt8) ∉ name)
    (hn : n < 2 ^ 31) :
    parseArgLine (key, name ++ 58 :: toDecimal n) = (name, some (n : ℤ)) := by
  have hall : ∀ b ∈ name, decide (b ≠ 58) = true := fun b hb =>
    decide_eq_true (ne_of_mem_of_not_mem hb hname)
  have hdrop : (name ++ 58 :: toDecimal n).dropWhile (· ≠ 58) = 58 :: toDecimal n := by
    rw [List.dropWhile_append_of_pos hall]
    rfl
  have htake : (name ++ 58 :: toDecimal n).takeWhile (· ≠ 58) = name := by
    rw [List.takeWhile_append_of_pos hall]
    exact List.append_nil name
  rw [parseArgLine, hdrop]
  dsimp only
  rw [htake, stoi_toDecimal hn]

/-- The attributes of a request, the last one of each name. -/
def args (req : RtspPacket) : SortedMap Bytes (Option ℤ) :=
  req.payloads.foldl (fun args line =>
    if line.1 = ascii "a" then
      let (k, v) := parseArgLine line
      args.insert k v
    else args) ∅

/-- The number of an attribute, if it has one. -/
def number? (req : RtspPacket) (k : String) : Option ℤ := ((args req).find? (ascii k)).join

/-- The same with a default. -/
def arg (req : RtspPacket) (k : String) (default : ℤ) : ℤ := (number? req k).getD default

def fecPercentage : ℤ := 20

/-- A rational rounded to single precision. -/
def float (x : ℚ) : ℚ := BinaryFloat.round 24 x

/-- The conversion of a `float` to an integer. -/
def truncate (x : ℚ) : ℤ := x.num.tdiv x.den

/-- The bitrate without what FEC takes of it. -/
def withoutFec (bitrate : ℤ) : ℤ :=
  if fecPercentage ≤ 80 then
    truncate (float (float bitrate / float (float 100 / float (100 - fecPercentage))))
  else bitrate

def audioChannels (req : RtspPacket) (s : StreamSession) : ℤ :=
  arg req "x-nv-audio.surround.numChannels" s.audioChannelCount

/-- What is left of a configured bitrate for the video. -/
def configuredBitrate (bitrate channels : ℤ) : ℤ :=
  let bitrate := withoutFec bitrate
  let audioAdj := toInt32 (96 * channels)
  let bitrate := bitrate - min audioAdj (bitrate.tdiv 5)
  bitrate - min 500 (bitrate.tdiv 10)

def bitrateKbps (req : RtspPacket) (s : StreamSession) : ℤ :=
  match number? req "x-ml-video.configuredBitrateKbps" with
  | some bitrate => configuredBitrate bitrate (audioChannels req s)
  | none => arg req "x-nv-vqos[0].bw.maximumBitrateKbps" 15500

/-- The `VideoParams` an `ANNOUNCE` captures. -/
def videoParams (req : RtspPacket) (s : StreamSession) : VideoParams :=
  let bitStreamFormat := arg req "x-nv-vqos[0].bitStreamFormat" 0
  let csc := arg req "x-nv-video[0].encoderCscMode" 0
  { width := arg req "x-nv-video[0].clientViewportWd" s.clientWidth
    height := arg req "x-nv-video[0].clientViewportHt" s.clientHeight
    fps := arg req "x-nv-video[0].maxFPS" s.clientFps
    format := if bitStreamFormat = 2 then .av1 else if bitStreamFormat = 1 then .hevc else .h264
    packetSize := arg req "x-nv-video[0].packetSize" 1392
    framesWithInvalidRefThreshold := arg req "x-nv-video[0].framesWithInvalidRefThreshold" 0
    fecPercentage := fecPercentage
    minRequiredFecPackets := arg req "x-nv-vqos[0].fec.minRequiredFecPackets" 2
    bitrateKbps := bitrateKbps req s
    slicesPerFrame := arg req "x-nv-video[0].videoEncoderSlicesPerFrame" 1
    timeoutMs := arg req "x-nv-video[0].timeoutLengthMs" 7000
    -- bit 0 is the range, the bits above it are the colour space
    colorRange := if csc % 2 = 1 then .jpeg else .mpeg
    colorSpace := ⟨csc / 2⟩ }

/-- The `AudioParams` an `ANNOUNCE` captures. -/
def audioParams (req : RtspPacket) (s : StreamSession) : AudioParams :=
  let acfg := forChannels (audioChannels req s)
  { -- bit 5 of the flags
    encrypt := (arg req "x-nv-general.featureFlags" 167 / 32) % 2 = 1
    channels := acfg.channels
    streams := acfg.streams
    coupledStreams := acfg.coupledStreams
    bitrate := acfg.bitrate
    packetDuration := arg req "x-nv-aqos.packetDuration" 5 }

def announce (req : RtspPacket) (s : StreamSession) : RtspPacket × StreamSession :=
  (okMsg req.seqNumber,
    { s with video := videoParams req s, audio := audioParams req s, announced := true })

/-! ### The message handler -/

/-- What a request comes to: the answer, the session as it is left, and the session `on_play` has
been called with. -/
structure Handled where
  response : RtspPacket
  session : StreamSession
  played : Option StreamSession := none

/-- `message_handler`, with the `on_play` callback the server always has. -/
def messageHandler (req : RtspPacket) (s : StreamSession) : Handled :=
  let cmd := req.request.cmd
  if cmd = ascii "OPTIONS" then { response := okMsg req.seqNumber, session := s }
  else if cmd = ascii "DESCRIBE" then { response := describe req s, session := s }
  else if cmd = ascii "SETUP" then { response := setup req s, session := s }
  else if cmd = ascii "ANNOUNCE" then
    let (response, s) := announce req s
    { response := response, session := s }
  else if cmd = ascii "PLAY" then
    let s := { s with playing := true }
    { response := okMsg req.seqNumber, session := s, played := some s }
  else { response := errorMsg 404 "NOT FOUND" req.seqNumber, session := s }

def IsAnnounce (req : RtspPacket) : Prop := req.request.cmd = ascii "ANNOUNCE"

instance {req : RtspPacket} : Decidable (IsAnnounce req) :=
  inferInstanceAs (Decidable (req.request.cmd = ascii "ANNOUNCE"))

def IsPlay (req : RtspPacket) : Prop := req.request.cmd = ascii "PLAY"

instance {req : RtspPacket} : Decidable (IsPlay req) :=
  inferInstanceAs (Decidable (req.request.cmd = ascii "PLAY"))

section Verbs

variable {req : RtspPacket} {s : StreamSession}

theorem messageHandler_announce (h : IsAnnounce req) : messageHandler req s =
    { response := (announce req s).1, session := (announce req s).2 } := by
  dsimp only [messageHandler]
  rw [show req.request.cmd = _ from h]
  rfl

theorem messageHandler_play (h : IsPlay req) : messageHandler req s =
    { response := okMsg req.seqNumber
      session := { s with playing := true }
      played := some { s with playing := true } } := by
  dsimp only [messageHandler]
  rw [show req.request.cmd = _ from h]
  rfl

/-- No other request changes the session or starts the media. -/
theorem messageHandler_other (hannounce : ¬ IsAnnounce req) (hplay : ¬ IsPlay req) :
    (messageHandler req s).session = s ∧ (messageHandler req s).played = none := by
  dsimp only [messageHandler]
  -- `OPTIONS`, `DESCRIBE` and `SETUP` only read the session
  rw [if_neg (show req.request.cmd ≠ ascii "ANNOUNCE" from hannounce),
    if_neg (show req.request.cmd ≠ ascii "PLAY" from hplay)]
  split_ifs <;> exact ⟨rfl, rfl⟩

/-- Only a `PLAY` starts the media. -/
theorem isPlay_of_played {played : StreamSession}
    (h : (messageHandler req s).played = some played) :
    IsPlay req ∧ played = { s with playing := true } := by
  by_cases hannounce : IsAnnounce req
  · rw [messageHandler_announce hannounce] at h
    cases h
  · by_cases hplay : IsPlay req
    · rw [messageHandler_play hplay] at h
      exact ⟨hplay, (Option.some.inj h).symm⟩
    · rw [(messageHandler_other hannounce hplay).2] at h
      cases h

/-- Only an `ANNOUNCE` changes what the media are started on. -/
theorem messageHandler_media (h : ¬ IsAnnounce req) :
    (messageHandler req s).session.video = s.video ∧
      (messageHandler req s).session.audio = s.audio ∧
      (messageHandler req s).session.announced = s.announced := by
  by_cases hplay : IsPlay req
  · rw [messageHandler_play hplay]
    exact ⟨rfl, rfl, rfl⟩
  · rw [(messageHandler_other h hplay).1]
    exact ⟨rfl, rfl, rfl⟩

end Verbs

end SteamStream.Rtsp
