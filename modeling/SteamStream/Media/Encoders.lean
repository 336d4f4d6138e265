import SteamStream.Media.EncoderConfig
import SteamStream.Rest.ServerInfo
import SteamStream.Rtsp.Negotiation

/-!
# The encoders of a server

Of the candidates a codec has in the configuration, the first whose elements all exist is used.
The server looks for them once when it starts, to say in `/serverinfo` and in the answer to
`DESCRIBE` which codecs it has, and again whenever a stream starts; the configuration is read anew
each time. Whoever asks for a codec that has no encoder gets H264.

A configuration nobody edits is the same each time, though `load_or_seed` may write the file it
reads (`readConfig_loadOrSeed`). So a pipeline that is started has the encoder of the codec the
client has asked for last, if the server has said it has that codec, and that of H264 otherwise;
and it keeps its encoder for as long as it runs, whatever is asked for meanwhile
(`encoderOfPlay_negotiated`).
-/

namespace SteamStream.Media

open Wire CText Toml Files Session Rest Rtsp Runs

/-! ### The compiled-in configuration -/

def kDefaultSource : Bytes := ascii <|
  "waylanddisplaysrc name=wolf_wayland_source render-node=\x7bnode\x7d ! " ++
  "video/x-raw,format=RGBx,width=\x7bwidth\x7d,height=\x7bheight\x7d,framerate=\x7bfps\x7d/1"

def kDefaultSourceZeroCopy : Bytes := ascii <|
  "waylanddisplaysrc name=wolf_wayland_source render-node=\x7bnode\x7d cuda-device-id=0 ! " ++
  "video/x-raw(memory:CUDAMemory),width=\x7bwidth\x7d,height=\x7bheight\x7d," ++
  "framerate=\x7bfps\x7d/1"

def kDefaultSink : Bytes := ascii <|
  "rtpmoonlightpay_video name=moonlight_pay payload_size=\x7bpayload_size\x7d " ++
  "fec_percentage=\x7bfec_percentage\x7d " ++
  "min_required_fec_packets=\x7bmin_required_fec_packets\x7d ! " ++
  "appsink name=video_sink sync=false max-buffers=1 drop=true"

def kNvVideoParams : Bytes := ascii <|
  "cudaupload ! cudaconvertscale add-borders=true ! " ++
  "video/x-raw(memory:CUDAMemory),width=\x7bwidth\x7d,height=\x7bheight\x7d," ++
  "chroma-site=\x7bcolor_range\x7d," ++
  "format=NV12,colorimetry=\x7bcolor_space\x7d,pixel-aspect-ratio=1/1"

def kNvVideoParamsZeroCopy : Bytes := ascii <|
  "cudaconvertscale add-borders=true ! " ++
  "video/x-raw(memory:CUDAMemory),width=\x7bwidth\x7d,height=\x7bheight\x7d," ++
  "chroma-site=\x7bcolor_range\x7d," ++
  "format=NV12,colorimetry=\x7bcolor_space\x7d,pixel-aspect-ratio=1/1"

def kVaVideoParams : Bytes := ascii <|
  "vapostproc ! video/x-raw(memory:VAMemory),format=NV12,width=\x7bwidth\x7d," ++
  "height=\x7bheight\x7d,pixel-aspect-ratio=1/1"

def kSwVideoParams : Bytes := ascii <|
  "videoconvertscale ! videorate ! " ++
  "video/x-raw,width=\x7bwidth\x7d,height=\x7bheight\x7d,framerate=\x7bfps\x7d/1,format=I420," ++
  "chroma-site=\x7bcolor_range\x7d,colorimetry=\x7bcolor_space\x7d"

def nvH264 : GstEncoder where
  pluginName := ascii "nvcodec"
  checkElements := [ascii "nvh264enc", ascii "cudaconvertscale", ascii "cudaupload"]
  encoderPipeline := ascii <|
    "nvh264enc name=video_encoder preset=low-latency-hq zerolatency=true gop-size=0 " ++
    "rc-mode=cbr-ld-hq bitrate=\x7bbitrate\x7d vbv-buffer-size=\x7bvbv_buffer_size\x7d " ++
    "aud=false repeat-sequence-header=true ! " ++
    "h264parse config-interval=-1 ! video/x-h264,profile=main,stream-format=byte-stream"
  videoParams := kNvVideoParams
  videoParamsZeroCopy := some kNvVideoParamsZeroCopy

def vaH264 : GstEncoder where
  pluginName := ascii "va"
  checkElements := [ascii "vah264enc", ascii "vapostproc"]
  encoderPipeline := ascii <|
    "vah264enc name=video_encoder aud=false b-frames=0 ref-frames=1 " ++
    "num-slices=\x7bslices_per_frame\x7d bitrate=\x7bbitrate\x7d " ++
    "cpb-size=\x7bvbv_buffer_size\x7d min-qp=20 " ++
    "key-int-max=1024 rate-control=cbr target-usage=6 ! " ++
    "h264parse config-interval=-1 ! video/x-h264,profile=main,stream-format=byte-stream"
  videoParams := kVaVideoParams
  videoParamsZeroCopy := none

def swH264 : GstEncoder where
  pluginName := ascii "x264"
  checkElements := [ascii "x264enc"]
  encoderPipeline := ascii <|
    "x264enc name=video_encoder pass=qual tune=zerolatency speed-preset=superfast " ++
    "b-adapt=false bframes=0 ref=1 sliced-threads=true threads=\x7bslices_per_frame\x7d " ++
    "option-string=\"slices=\x7bslices_per_frame\x7d:keyint=infinite:open-gop=0\" " ++
    "bitrate=\x7bbitrate\x7d aud=false ! " ++
    "h264parse config-interval=-1 ! video/x-h264,profile=high,stream-format=byte-stream"
  videoParams := kSwVideoParams
  videoParamsZeroCopy := none

def nvHevc : GstEncoder where
  pluginName := ascii "nvcodec"
  checkElements := [ascii "nvh265enc", ascii "cudaconvertscale", ascii "cudaupload"]
  encoderPipeline := ascii <|
    "nvh265enc name=video_encoder gop-size=-1 bitrate=\x7bbitrate\x7d " ++
    "vbv-buffer-size=\x7bvbv_buffer_size\x7d aud=false rc-mode=cbr zerolatency=true preset=p1 " ++
    "tune=ultra-low-latency multi-pass=two-pass-quarter repeat-sequence-header=true ! " ++
    "h265parse config-interval=-1 ! video/x-h265,profile=main,stream-format=byte-stream"
  videoParams := kNvVideoParams
  videoParamsZeroCopy := some kNvVideoParamsZeroCopy

def vaHevc : GstEncoder where
  pluginName := ascii "va"
  checkElements := [ascii "vah265enc", ascii "vapostproc"]
  encoderPipeline := ascii <|
    "vah265enc name=video_encoder aud=false b-frames=0 ref-frames=1 " ++
    "num-slices=\x7bslices_per_frame\x7d bitrate=\x7bbitrate\x7d " ++
    "cpb-size=\x7bvbv_buffer_size\x7d min-qp=20 " ++
    "key-int-max=1024 rate-control=cbr target-usage=6 ! " ++
    "h265parse config-interval=-1 ! video/x-h265,profile=main,stream-format=byte-stream"
  videoParams := kVaVideoParams
  videoParamsZeroCopy := none

def nvAv1 : GstEncoder where
  pluginName := ascii "nvcodec"
  checkElements := [ascii "nvav1enc", ascii "cudaconvertscale", ascii "cudaupload"]
  encoderPipeline := ascii <|
    "nvav1enc name=video_encoder gop-size=-1 bitrate=\x7bbitrate\x7d " ++
    "vbv-buffer-size=\x7bvbv_buffer_size\x7d rc-mode=cbr zerolatency=true preset=p1 " ++
    "tune=ultra-low-latency multi-pass=two-pass-quarter ! " ++
    "av1parse ! video/x-av1,stream-format=obu-stream,alignment=frame,profile=main"
  videoParams := kNvVideoParams
  videoParamsZeroCopy := some kNvVideoParamsZeroCopy

def defaults : EncoderConfig where
  video := {
    defaultSource := kDefaultSource
    defaultSourceZeroCopy := some kDefaultSourceZeroCopy
    defaultSink := kDefaultSink
    h264Encoders := [nvH264, vaH264, swH264]
    hevcEncoders := [nvHevc, vaHevc]
    av1Encoders := [nvAv1] }
  audio := defaultAudio
  ints := defaultAudio_ints

theorem nulFree_defaults : defaults.NulFree := by
  have hencoder : ∀ e : GstEncoder, 0 ∉ e.pluginName → 0 ∉ e.encoderPipeline → 0 ∉ e.videoParams →
      e.NulFree := fun _ hname hpipeline hparams => ⟨hname, hpipeline, hparams⟩
  have hnv : (0 : UInt8) ∉ kNvVideoParams := by decide +kernel
  have hva : (0 : UInt8) ∉ kVaVideoParams := by decide +kernel
  refine ⟨by decide +kernel, by decide +kernel, ?_, ?_, ?_⟩
  · simp only [defaults, List.forall_mem_cons]
    exact ⟨hencoder nvH264 (by decide) (by decide +kernel) hnv,
      hencoder vaH264 (by decide) (by decide +kernel) hva,
      hencoder swH264 (by decide) (by decide +kernel) (by decide +kernel),
      List.forall_mem_nil _⟩
  · simp only [defaults, List.forall_mem_cons]
    exact ⟨hencoder nvHevc (by decide) (by decide +kernel) hnv,
      hencoder vaHevc (by decide) (by decide +kernel) hva, List.forall_mem_nil _⟩
  · simp only [defaults, List.forall_mem_cons]
    exact ⟨hencoder nvAv1 (by decide) (by decide +kernel) hnv, List.forall_mem_nil _⟩

/-! ### Reading the configuration -/

/-- `getenv`. -/
abbrev Environment := String → Option Bytes

def envOr (env : Environment) (k : String) (default : Bytes) : Bytes := (env k).getD default

def configPath (env : Environment) : Bytes :=
  match env "STEAM_STREAM_ENCODER_CONFIG" with
  | some p => p
  | none => envOr env "STEAM_STREAM_STATE_DIR" (ascii "/var/lib/steam-stream") ++
      ascii "/encoders.toml"

section Seeding

variable {Table Node : Type} (toml : Toml.Api Table Node)

/-- `create_default_if_missing`. That the defaults could not be written is only logged. -/
def createDefaultIfMissing (medium : Medium) (files : Directory Bytes UInt8) (path : Bytes) :
    Directory Bytes UInt8 :=
  match files.lookup path with
  | some _ => files
  | none => (save toml medium files defaults path).2

end Seeding

/-- The checks of `validate` on one list of candidates. -/
def checkList (name : String) (encs : List GstEncoder) : List Bytes :=
  encs.zipIdx.flatMap fun (e, i) =>
    let entry := ascii name ++ ascii "[" ++ toDecimal i ++ ascii "]"
    (if e.pluginName = [] then [entry ++ ascii " has empty plugin_name"] else []) ++
    (if e.encoderPipeline = [] then [entry ++ ascii " has empty encoder_pipeline"] else []) ++
    if ascii "name=video_encoder" <:+: e.encoderPipeline then []
    else [entry ++ ascii
      " encoder_pipeline lacks 'name=video_encoder' (update_bitrate needs it)"]

/-- `validate`: what is wrong with a configuration. -/
def validate (cfg : EncoderConfig) : List Bytes :=
  (if cfg.video.defaultSource = [] then [ascii "video.default_source is empty"] else []) ++
  (if cfg.video.defaultSink = [] then [ascii "video.default_sink is empty"] else []) ++
  (if cfg.video.h264Encoders = [] then
    [ascii "video.h264_encoders is empty (H264 is the required fallback codec)"] else []) ++
  checkList "h264_encoders" cfg.video.h264Encoders ++
  checkList "hevc_encoders" cfg.video.hevcEncoders ++
  checkList "av1_encoders" cfg.video.av1Encoders ++
  (if cfg.audio.sinkName = [] then [ascii "audio.sink_name is empty"] else []) ++
  (if cfg.audio.defaultSource = [] then [ascii "audio.default_source is empty"] else []) ++
  if cfg.audio.defaultOpusEncoder = [] then [ascii "audio.default_opus_encoder is empty"] else []

theorem validate_defaults : validate defaults = [] := by decide +kernel

/-- What `load_or_seed` returns, the files it leaves and what it warns of. -/
structure Loaded where
  cfg : EncoderConfig
  files : Directory Bytes UInt8
  warnings : List Bytes

def loadOrSeed {Table Node : Type} (toml : Toml.Api Table Node) (env : Environment)
    (medium : Medium) (files : Directory Bytes UInt8) : Loaded :=
  let path := configPath env
  let files := createDefaultIfMissing toml medium files path
  match load toml files path with
  | some cfg => ⟨cfg, files, validate cfg⟩
  | none => ⟨defaults, files, []⟩

/-! ### Choosing an encoder -/

/-- `is_available`; `instantiable` says of which elements one can be made. -/
def isAvailable (instantiable : Bytes → Bool) (enc : GstEncoder) : Bool :=
  enc.checkElements.all fun name => instantiable (cString name)

def firstAvailable (instantiable : Bytes → Bool) (encs : List GstEncoder) : Option GstEncoder :=
  encs.find? (isAvailable instantiable)

structure Availability where
  h264 : Bool := false
  hevc : Bool := false
  av1 : Bool := false
  deriving DecidableEq, Repr

def availableEncoders (instantiable : Bytes → Bool) (cfg : EncoderConfig) : Availability where
  h264 := (firstAvailable instantiable cfg.video.h264Encoders).isSome
  hevc := (firstAvailable instantiable cfg.video.hevcEncoders).isSome
  av1 := (firstAvailable instantiable cfg.video.av1Encoders).isSome

/-- The candidates for a codec. -/
def GstVideoCfg.encoders (v : GstVideoCfg) : VideoFormat → List GstEncoder
  | .h264 => v.h264Encoders
  | .hevc => v.hevcEncoders
  | .av1 => v.av1Encoders

def selectEncoder (instantiable : Bytes → Bool) (cfg : EncoderConfig) (fmt : VideoFormat) :
    Option GstEncoder :=
  match firstAvailable instantiable (cfg.video.encoders fmt) with
  | some e => some e
  | none =>
    if fmt ≠ .h264 then firstAvailable instantiable cfg.video.h264Encoders else none

/-- What `main` does with the configuration: the availability it finds goes into the flags of
`/serverinfo`. -/
def advertise (instantiable : Bytes → Bool) (cfg : EncoderConfig) (state : AppState) : AppState :=
  let avail := availableEncoders instantiable cfg
  { state with supportHevc := avail.hevc, supportAv1 := avail.av1 }

/-- The bit of `ServerCodecModeSupport` that stands for a codec. -/
def codecBit : VideoFormat → ℕ
  | .h264 => videoFormatH264
  | .hevc => videoFormatH265
  | .av1 => videoFormatAv1Main8

/-- `/serverinfo` says that the server has the codec. -/
def Advertised (state : AppState) (fmt : VideoFormat) : Prop :=
  codecSupport state.supportHevc state.supportAv1 &&& codecBit fmt ≠ 0

instance (state : AppState) (fmt : VideoFormat) : Decidable (Advertised state fmt) :=
  inferInstanceAs (Decidable (_ ≠ _))

section Choice

variable {instantiable : Bytes → Bool} {cfg : EncoderConfig} {state : AppState}
  {fmt : VideoFormat}

theorem advertised_h264 : Advertised state .h264 := by
  rw [Advertised]
  cases state.supportHevc <;> cases state.supportAv1 <;> decide

theorem advertised_hevc : Advertised state .hevc ↔ state.supportHevc = true := by
  rw [Advertised]
  cases state.supportHevc <;> cases state.supportAv1 <;> decide

theorem advertised_av1 : Advertised state .av1 ↔ state.supportAv1 = true := by
  rw [Advertised]
  cases state.supportHevc <;> cases state.supportAv1 <;> decide

/-- A codec other than H264 is advertised exactly if one of its candidates can be used. -/
theorem advertised_advertise_iff (h : fmt ≠ .h264) :
    Advertised (advertise instantiable cfg state) fmt ↔
      (firstAvailable instantiable (cfg.video.encoders fmt)).isSome = true := by
  cases fmt with
  | h264 => exact absurd rfl h
  | hevc => exact advertised_hevc
  | av1 => exact advertised_av1

/-- What `select_encoder` comes to for a server that has looked for its encoders. -/
theorem selectEncoder_advertise : selectEncoder instantiable cfg fmt =
    firstAvailable instantiable
      (cfg.video.encoders (if Advertised (advertise instantiable cfg state) fmt then fmt
        else .h264)) := by
  by_cases hfmt : fmt = .h264
  · subst hfmt
    rw [if_pos advertised_h264, selectEncoder]
    cases firstAvailable instantiable (cfg.video.encoders .h264) <;> rfl
  · rw [selectEncoder, if_pos hfmt]
    split_ifs with hadvertised
    · obtain ⟨e, he⟩ := Option.isSome_iff_exists.mp ((advertised_advertise_iff hfmt).mp hadvertised)
      rw [he]
    · rw [advertised_advertise_iff hfmt, Option.not_isSome_iff_eq_none] at hadvertised
      rw [hadvertised]
      rfl

end Choice

/-! ### A configuration nobody edits -/

section Settled

variable {Table Node : Type} {toml : Toml.Api Table Node} {env : Environment} {medium : Medium}
  {files : Directory Bytes UInt8}

/-- The defaults reach the file whole, if it can be opened at all. -/
def Medium.SeedsWhole (toml : Toml.Api Table Node) (medium : Medium) : Prop :=
  medium.opens = true → (toml.print (toToml toml defaults)).length ≤ medium.room

/-- The configuration the files hold. -/
def readConfig (toml : Toml.Api Table Node) (env : Environment) (files : Directory Bytes UInt8) :
    EncoderConfig :=
  (load toml files (configPath env)).getD defaults

theorem loadOrSeed_files :
    (loadOrSeed toml env medium files).files =
      createDefaultIfMissing toml medium files (configPath env) := by
  unfold loadOrSeed
  dsimp only
  split <;> rfl

theorem loadOrSeed_cfg :
    (loadOrSeed toml env medium files).cfg =
      readConfig toml env (loadOrSeed toml env medium files).files := by
  rw [readConfig, loadOrSeed_files]
  unfold loadOrSeed
  dsimp only
  split <;> rename_i h <;> rw [h] <;> rfl

/-- Seeding does not change what is read: without a file it is the defaults, and they are what is
written. -/
theorem getD_load_createDefaultIfMissing {path : Bytes} (htoml : toml.Documented)
    (hparse : toml.parse (toml.print (toToml toml defaults)) = some (toToml toml defaults))
    (hwhole : medium.SeedsWhole toml) :
    (load toml (createDefaultIfMissing toml medium files path) path).getD defaults =
      (load toml files path).getD defaults := by
  unfold createDefaultIfMissing
  cases hfile : files.lookup path with
  | some content => rfl
  | none =>
    have hmissing : load toml files path = none := by
      rw [load, hfile]
      rfl
    dsimp only
    rw [hmissing, Option.getD_none]
    by_cases hopens : medium.opens = true
    · rw [load_save_whole htoml hparse hopens (hwhole hopens),
        (EncoderConfig.truncated_eq_iff _).mpr nulFree_defaults, Option.getD_some]
    · have hsame : (save toml medium files defaults path).2 = files := by
        simp only [save, if_neg hopens]
      rw [hsame, hmissing, Option.getD_none]

/-- **A configuration that has been read stays.** However often it is read again, it is the one the
files hold. -/
theorem readConfig_loadOrSeed (htoml : toml.Documented)
    (hparse : toml.parse (toml.print (toToml toml defaults)) = some (toToml toml defaults))
    (hwhole : medium.SeedsWhole toml) :
    readConfig toml env (loadOrSeed toml env medium files).files = readConfig toml env files := by
  rw [readConfig, readConfig, loadOrSeed_files]
  exact getD_load_createDefaultIfMissing htoml hparse hwhole

end Settled

/-! ### The encoder of a stream -/

/-- The codec an `ANNOUNCE` asks for. -/
def requestedFormat (req : RtspPacket) : VideoFormat := (videoParams req {}).format

/-- The codec the requests of a session come to. -/
def codecAsked (reqs : List RtspPacket) : VideoFormat :=
  (((reqs.filter IsAnnounce).getLast?).map requestedFormat).getD .h264

/-- The lines of the answer to `DESCRIBE` that stand for a codec. -/
def hevcLine : Bytes × Bytes := ([], ascii "sprop-parameter-sets=AAAAAU")

def av1Line : Bytes × Bytes := (ascii "a", ascii "a=rtpmap:98 AV1/90000")

section Stream

variable {launched s s' : StreamSession} {req : RtspPacket} {reqs before : List RtspPacket}

theorem hevcLine_mem_describe :
    hevcLine ∈ (describe req s).payloads ↔ s.hevcSupported = true := by
  dsimp only [describe, okMsg]
  cases s.hevcSupported <;> cases s.av1Supported <;> decide +kernel

theorem av1Line_mem_describe :
    av1Line ∈ (describe req s).payloads ↔ s.av1Supported = true := by
  dsimp only [describe, okMsg]
  cases s.hevcSupported <;> cases s.av1Supported <;> decide +kernel

theorem messageHandler_supported :
    (messageHandler req s).session.hevcSupported = s.hevcSupported ∧
      (messageHandler req s).session.av1Supported = s.av1Supported := by
  by_cases hannounce : IsAnnounce req
  · rw [messageHandler_announce hannounce]
    exact ⟨rfl, rfl⟩
  · by_cases hplay : IsPlay req
    · rw [messageHandler_play hplay]
      exact ⟨rfl, rfl⟩
    · rw [(messageHandler_other hannounce hplay).1]
      exact ⟨rfl, rfl⟩

/-- No request changes what the session says of its codecs. -/
theorem run_supported (hrun : (rtspSystem launched).run s reqs = some s') :
    s'.hevcSupported = s.hevcSupported ∧ s'.av1Supported = s.av1Supported := by
  refine System.run_of_along (P := fun _ _ => True)
    (I := fun t => t.hevcSupported = s.hevcSupported ∧ t.av1Supported = s.av1Supported)
    (fun {t r t'} hI _ hstep => ?_) ⟨rfl, rfl⟩ (System.along_of_forall fun _ _ _ => trivial) hrun
  obtain rfl : (messageHandler r t).session = t' := Option.some.inj hstep
  exact ⟨messageHandler_supported.1.trans hI.1, messageHandler_supported.2.trans hI.2⟩

theorem codecAsked_concat : codecAsked (reqs ++ [req]) =
    if IsAnnounce req then requestedFormat req else codecAsked reqs := by
  rw [codecAsked, List.filter_append]
  split_ifs with h
  · rw [List.filter_singleton, decide_eq_true h, cond_true, List.getLast?_concat]
    rfl
  · rw [List.filter_singleton, decide_eq_false h, cond_false, List.append_nil]
    rfl

/-- The session holds the codec that has been asked for last. -/
theorem run_format (hlaunched : launched.video.format = .h264)
    (hrun : (rtspSystem launched).run launched reqs = some s) :
    s.video.format = codecAsked reqs := by
  induction reqs using List.reverseRecOn generalizing s with
  | nil =>
    obtain rfl : launched = s := Option.some.inj hrun
    exact hlaunched
  | append_singleton reqs req ih =>
    obtain ⟨s', hinit, hlast⟩ := System.run_concat_eq_some.mp hrun
    obtain rfl : (messageHandler req s').session = s := Option.some.inj hlast
    rw [codecAsked_concat]
    split_ifs with hannounce
    · rw [messageHandler_announce hannounce]
      rfl
    · rw [(messageHandler_media hannounce).1, ih hinit]

/-- What a session is created with. -/
theorem createLaunchSession_codecs {state : AppState} {headers : Query} {clientIp : Bytes}
    {rand : LaunchRandom}
    (h : (createLaunchSession state headers clientIp rand).1 = some launched) :
    launched.video.format = .h264 ∧ launched.hevcSupported = state.supportHevc ∧
      launched.av1Supported = state.supportAv1 := by
  unfold createLaunchSession at h
  dsimp only at h
  split at h
  · cases h
  · obtain rfl := Option.some.inj h
    exact ⟨rfl, rfl, rfl⟩

end Stream

/-! ### The stream of a session -/

/-- What happens to the stream of a session the registry holds. -/
inductive StreamEvent
  /-- The client sends a request. If it starts a pipeline, `medium` is what `load_or_seed` meets
  with, and `starts` says whether GStreamer makes a pipeline of the description. -/
  | request (req : RtspPacket) (medium : Medium) (starts : Bool)
  /-- The configuration is read for something else. -/
  | load (medium : Medium)
  /-- The pipeline is taken down. -/
  | stopped

def StreamEvent.request? : StreamEvent → Option RtspPacket
  | .request req _ _ => some req
  | _ => none

/-- The seed is written whole, if the event writes it. -/
def StreamEvent.SeedsWhole {Table Node : Type} (toml : Toml.Api Table Node) : StreamEvent → Prop
  | .request _ medium _ => medium.SeedsWhole toml
  | .load medium => medium.SeedsWhole toml
  | .stopped => True

/-- The requests among the events. -/
def requests (events : List StreamEvent) : List RtspPacket := events.filterMap StreamEvent.request?

structure StreamState where
  session : StreamSession
  files : Directory Bytes UInt8
  /-- The encoder in the pipeline that runs. -/
  pipeline : Option GstEncoder

section StreamSystem

variable {Table Node : Type} (toml : Toml.Api Table Node) (env : Environment)
  (instantiable : Bytes → Bool)

/-- A `PLAY` takes the pipeline that runs as it is, and starts one if there is none. There is none
to start from an empty description. -/
def streamStep (st : StreamState) : StreamEvent → Option StreamState
  | .request req medium starts =>
    let handled := messageHandler req st.session
    match handled.played, st.pipeline with
    | some played, none =>
      let loaded := loadOrSeed toml env medium st.files
      some {
        session := handled.session
        files := loaded.files
        pipeline :=
          if starts then selectEncoder instantiable loaded.cfg played.video.format else none }
    | _, _ => some { st with session := handled.session }
  | .load medium => some { st with files := (loadOrSeed toml env medium st.files).files }
  | .stopped => some { st with pipeline := none }

/-- The stream of a session that has been launched. -/
def streamSystem (launched : StreamSession) (files : Directory Bytes UInt8) :
    System StreamState StreamEvent where
  init := ⟨launched, files, none⟩
  step := streamStep toml env instantiable

end StreamSystem

/-- The encoder a server has for a codec: one of its own if the server says that it has the codec,
and that of H264 otherwise. -/
def negotiatedEncoder (instantiable : Bytes → Bool) (cfg : EncoderConfig) (offered : AppState)
    (asked : VideoFormat) : Option GstEncoder :=
  firstAvailable instantiable
    (if Advertised offered asked then cfg.video.encoders asked else cfg.video.h264Encoders)

section StreamSteps

variable {Table Node : Type} {toml : Toml.Api Table Node} {env : Environment}
  {instantiable : Bytes → Bool} {launched : StreamSession} {files : Directory Bytes UInt8}
  {st st' : StreamState} {req : RtspPacket} {medium : Medium} {starts : Bool} {event : StreamEvent}
  {events : List StreamEvent} {encoder : GstEncoder} {cfg : EncoderConfig} {state : AppState}

/-- A `PLAY` that finds no pipeline starts one. -/
theorem streamStep_start (hplay : IsPlay req) (hnone : st.pipeline = none) :
    streamStep toml env instantiable st (.request req medium starts) = some {
      session := (messageHandler req st.session).session
      files := (loadOrSeed toml env medium st.files).files
      pipeline := if starts then selectEncoder instantiable (loadOrSeed toml env medium st.files).cfg
        st.session.video.format else none } := by
  rw [streamStep, messageHandler_play hplay, hnone]

/-- Any other request is the session's alone. -/
theorem streamStep_keep (h : IsPlay req → st.pipeline ≠ none) :
    streamStep toml env instantiable st (.request req medium starts) =
      some { st with session := (messageHandler req st.session).session } := by
  simp only [streamStep]
  split
  · rename_i played hplayed hnone
    exact absurd hnone (h (isPlay_of_played hplayed).1)
  · rfl

/-- Where a pipeline comes from, and what is left of one. -/
theorem streamStep_pipeline (h : streamStep toml env instantiable st event = some st')
    (hsome : st'.pipeline = some encoder) :
    (st.pipeline = some encoder ∧ event ≠ .stopped) ∨
      st.pipeline = none ∧ ∃ req medium, IsPlay req ∧ event = .request req medium true ∧
        selectEncoder instantiable (loadOrSeed toml env medium st.files).cfg
          st.session.video.format = some encoder := by
  cases event with
  | request req medium starts =>
    by_cases hstart : IsPlay req ∧ st.pipeline = none
    · obtain ⟨hplay, hnone⟩ := hstart
      obtain rfl := Option.some.inj ((streamStep_start hplay hnone).symm.trans h)
      dsimp only at hsome
      split_ifs at hsome with hstarts
      exact .inr ⟨hnone, req, medium, hplay, by rw [hstarts], hsome⟩
    · obtain rfl := Option.some.inj ((streamStep_keep (not_and.mp hstart)).symm.trans h)
      exact .inl ⟨hsome, nofun⟩
  | load medium =>
    obtain rfl := Option.some.inj h
    exact .inl ⟨hsome, nofun⟩
  | stopped =>
    obtain rfl := Option.some.inj h
    cases hsome

/-- The requests go to the session, and nothing else does. -/
theorem streamSystem_erases : (streamSystem toml env instantiable launched files).Erases
    (rtspSystem launched) StreamState.session StreamEvent.request? where
  init := rfl
  step {st st' event} h := by
    change streamStep toml env instantiable st event = some st' at h
    cases event with
    | request req medium starts =>
      refine .inr ⟨req, rfl, ?_⟩
      by_cases hstart : IsPlay req ∧ st.pipeline = none
      · obtain rfl := Option.some.inj ((streamStep_start hstart.1 hstart.2).symm.trans h)
        rfl
      · obtain rfl := Option.some.inj ((streamStep_keep (not_and.mp hstart)).symm.trans h)
        rfl
    | load medium =>
      obtain rfl := Option.some.inj h
      exact .inl ⟨rfl, rfl⟩
    | stopped =>
      obtain rfl := Option.some.inj h
      exact .inl ⟨rfl, rfl⟩

/-- A step leaves the files, or seeds them. -/
theorem readConfig_streamStep (htoml : toml.Documented)
    (hparse : toml.parse (toml.print (toToml toml defaults)) = some (toToml toml defaults))
    (hwhole : event.SeedsWhole toml) (h : streamStep toml env instantiable st event = some st') :
    readConfig toml env st'.files = readConfig toml env st.files := by
  cases event with
  | request req medium starts =>
    by_cases hstart : IsPlay req ∧ st.pipeline = none
    · obtain rfl := Option.some.inj ((streamStep_start hstart.1 hstart.2).symm.trans h)
      exact readConfig_loadOrSeed htoml hparse hwhole
    · obtain rfl := Option.some.inj ((streamStep_keep (not_and.mp hstart)).symm.trans h)
      rfl
  | load medium =>
    obtain rfl := Option.some.inj h
    exact readConfig_loadOrSeed htoml hparse hwhole
  | stopped =>
    obtain rfl := Option.some.inj h
    rfl

theorem readConfig_run (htoml : toml.Documented)
    (hparse : toml.parse (toml.print (toToml toml defaults)) = some (toToml toml defaults))
    (hwhole : ∀ event ∈ events, event.SeedsWhole toml)
    (hrun : (streamSystem toml env instantiable launched files).run st events = some st') :
    readConfig toml env st'.files = readConfig toml env st.files :=
  System.run_of_along (P := fun _ event => event.SeedsWhole toml)
    (I := fun t => readConfig toml env t.files = readConfig toml env st.files)
    (fun hI hwhole hstep => (readConfig_streamStep htoml hparse hwhole hstep).trans hI) rfl
    (System.along_of_forall fun event hevent _ => hwhole event hevent) hrun

/-- The pipeline that runs has been started by a `PLAY`, and not been taken down since. -/
theorem exists_start
    (hrun : (streamSystem toml env instantiable launched files).run ⟨launched, files, none⟩ events =
      some st) (hsome : st.pipeline = some encoder) :
    ∃ before req medium after t,
      events = before ++ StreamEvent.request req medium true :: after ∧ IsPlay req ∧
      (streamSystem toml env instantiable launched files).run ⟨launched, files, none⟩ before =
        some t ∧ t.pipeline = none ∧ .stopped ∉ after ∧
      selectEncoder instantiable (loadOrSeed toml env medium t.files).cfg
        t.session.video.format = some encoder := by
  induction events using List.reverseRecOn generalizing st with
  | nil =>
    obtain rfl := Option.some.inj hrun
    cases hsome
  | append_singleton events event ih =>
    obtain ⟨t, hinit, hlast⟩ := System.run_concat_eq_some.mp hrun
    obtain ⟨hsame, hevent⟩ | ⟨hnone, req, medium, hplay, rfl, hencoder⟩ :=
      streamStep_pipeline hlast hsome
    · obtain ⟨before, req, medium, after, u, rfl, hplay, hu, hnone, hafter, hencoder⟩ :=
        ih hinit hsame
      refine ⟨before, req, medium, after ++ [event], u, ?_, hplay, hu, hnone, ?_, hencoder⟩
      · rw [List.append_assoc, List.cons_append]
      · rw [List.mem_append, List.mem_singleton]
        exact fun h => h.elim hafter fun h => hevent h.symm
    · exact ⟨events, req, medium, [], t, rfl, hplay, hinit, hnone, List.not_mem_nil, hencoder⟩

end StreamSteps

/-- **The encoder of a stream.** Whatever a client asks for in whatever order, `DESCRIBE` says of
the codecs what `/serverinfo` says. A `PLAY` that finds no pipeline running starts one with the
first available encoder, as the server has seen it when it started, of the codec that has been asked
for last, or of H264 if the server has not said that it has that codec; and the pipeline that runs
at any time has been started so and has kept its encoder since. -/
theorem encoderOfPlay_negotiated {Table Node : Type} {toml : Toml.Api Table Node}
    (htoml : toml.Documented)
    (hparse : toml.parse (toml.print (toToml toml defaults)) = some (toToml toml defaults))
    {env : Environment} {instantiable : Bytes → Bool} {first : Medium}
    {files : Directory Bytes UInt8} {state : AppState} {headers : Query} {clientIp : Bytes}
    {rand : LaunchRandom} {launched : StreamSession} {events : List StreamEvent} {st : StreamState}
    (hlaunched : (createLaunchSession (advertise instantiable
      (loadOrSeed toml env first files).cfg state) headers clientIp rand).1 = some launched)
    (hwhole : ∀ event ∈ events, event.SeedsWhole toml)
    (hrun : (streamSystem toml env instantiable launched (loadOrSeed toml env first files).files).run
      ⟨launched, (loadOrSeed toml env first files).files, none⟩ events = some st) :
    let boot := loadOrSeed toml env first files
    let offered := advertise instantiable boot.cfg state
    let system := streamSystem toml env instantiable launched boot.files
    let encoderFor (reqs : List RtspPacket) : Option GstEncoder :=
      negotiatedEncoder instantiable boot.cfg offered (codecAsked reqs)
    (∀ q, hevcLine ∈ (describe q st.session).payloads ↔ Advertised offered .hevc) ∧
    (∀ q, av1Line ∈ (describe q st.session).payloads ↔ Advertised offered .av1) ∧
    (∀ req medium st', IsPlay req → st.pipeline = none → medium.SeedsWhole toml →
      system.step st (.request req medium true) = some st' →
        st'.pipeline = encoderFor (requests events) ∧
        (Advertised offered (codecAsked (requests events)) → codecAsked (requests events) ≠ .h264 →
          st'.pipeline.isSome = true)) ∧
    ∀ encoder, st.pipeline = some encoder → ∃ before req medium after t,
      events = before ++ StreamEvent.request req medium true :: after ∧ IsPlay req ∧
      system.run system.init before = some t ∧ t.pipeline = none ∧ .stopped ∉ after ∧
      encoderFor (requests before) = some encoder := by
  intro boot offered system encoderFor
  obtain ⟨hformat, hhevc, hav1⟩ := createLaunchSession_codecs hlaunched
  -- what is read when a pipeline is started is what was read when the server started
  have hselect : ∀ {before : List StreamEvent} {t : StreamState} {medium : Medium},
      (∀ event ∈ before, event.SeedsWhole toml) → medium.SeedsWhole toml →
      system.run system.init before = some t →
      selectEncoder instantiable (loadOrSeed toml env medium t.files).cfg t.session.video.format =
        encoderFor (requests before) := by
    intro before t medium hbefore hmedium ht
    have hcfg : (loadOrSeed toml env medium t.files).cfg = boot.cfg := by
      rw [loadOrSeed_cfg, readConfig_loadOrSeed htoml hparse hmedium,
        readConfig_run htoml hparse hbefore ht]
      exact loadOrSeed_cfg.symm
    have hasked : t.session.video.format = codecAsked (requests before) :=
      run_format hformat (streamSystem_erases.run ht)
    rw [hcfg, hasked, @selectEncoder_advertise instantiable boot.cfg state]
    change _ = negotiatedEncoder _ _ _ _
    rw [negotiatedEncoder]
    split_ifs <;> rfl
  obtain ⟨hhevc', hav1'⟩ := run_supported (streamSystem_erases.run hrun)
  refine ⟨fun q => ?_, fun q => ?_, fun req medium st' hplay hnone hmedium hstep => ?_,
    fun encoder hencoder => ?_⟩
  · rw [hevcLine_mem_describe, hhevc', hhevc]
    exact advertised_hevc.symm
  · rw [av1Line_mem_describe, hav1', hav1]
    exact advertised_av1.symm
  · obtain rfl := Option.some.inj ((streamStep_start hplay hnone).symm.trans hstep)
    dsimp only
    rw [if_pos rfl, hselect hwhole hmedium hrun]
    refine ⟨rfl, fun hadvertised hne => ?_⟩
    change (negotiatedEncoder _ _ _ _).isSome = true
    rw [negotiatedEncoder, if_pos hadvertised]
    exact (advertised_advertise_iff hne).mp hadvertised
  · obtain ⟨before, req, medium, after, t, rfl, hplay, ht, hnone, hafter, hselected⟩ :=
      exists_start hrun hencoder
    obtain ⟨hbefore, hrest⟩ := List.forall_mem_append.mp hwhole
    have hmedium : medium.SeedsWhole toml := (List.forall_mem_cons.mp hrest).1
    exact ⟨before, req, medium, after, t, rfl, hplay, ht, hnone, hafter,
      (hselect hbefore hmedium ht).symm.trans hselected⟩

/-! ### A server with VA-API -/

/-- `[[video.…_encoders]]`, as it is printed. -/
def encoderText (name : String) (e : GstEncoder) : Bytes :=
  let quoted (text : Bytes) : Bytes := ascii "'" ++ text ++ ascii "'"
  ascii "\n\n[[video." ++ ascii name ++ ascii "]]\ncheck_elements = [ " ++
    (ascii ", ").intercalate (e.checkElements.map quoted) ++
    ascii " ]\nencoder_pipeline = " ++ quoted e.encoderPipeline ++
    ascii "\nplugin_name = " ++ quoted e.pluginName ++
    ascii "\nvideo_params = " ++ quoted e.videoParams ++
    (e.videoParamsZeroCopy.map fun params =>
      ascii "\nvideo_params_zero_copy = " ++ quoted params).getD []

/-- The file `create_default_if_missing` writes. -/
def defaultsText : Bytes :=
  let quoted (text : Bytes) : Bytes := ascii "'" ++ text ++ ascii "'"
  ascii "[audio]\nbitrate_51 = 256000\nbitrate_71 = 450000\nbitrate_stereo = 96000\n" ++
    ascii "default_opus_encoder = " ++ quoted defaultAudio.defaultOpusEncoder ++
    ascii "\ndefault_source = " ++ quoted defaultAudio.defaultSource ++
    ascii "\nsink_name = " ++ quoted defaultAudio.sinkName ++
    ascii "\n\n[video]\ndefault_sink = " ++ quoted kDefaultSink ++
    ascii "\ndefault_source = " ++ quoted kDefaultSource ++
    ascii "\ndefault_source_zero_copy = " ++ quoted kDefaultSourceZeroCopy ++
    encoderText "av1_encoders" nvAv1 ++
    [nvH264, vaH264, swH264].flatMap (encoderText "h264_encoders") ++
    [nvHevc, vaHevc].flatMap (encoderText "hevc_encoders")

def defaultsToml : Toml.Api (List (String × Value)) Value := onText defaults defaultsText

/-- A host that can encode H264 in software and HEVC with VA-API. -/
def vaHost (name : Bytes) : Bool :=
  [ascii "x264enc", ascii "videoconvertscale", ascii "vah265enc", ascii "vapostproc"].contains name

def announceHevc : RtspPacket :=
  { announcePacket with
    payloads := (ascii "a", ascii "x-nv-vqos[0].bitStreamFormat:1 ") :: announcePacket.payloads }

/-- There is room for the defaults. -/
def roomy : Medium := ⟨true, 0, defaultsText.length⟩

/-- The first start of a server, without a file. -/
def firstLoad : Loaded := loadOrSeed defaultsToml (fun _ => none) roomy ∅

/-- The client asks for HEVC and plays, and asks for H264 and plays again. -/
def resumedInH264 : List StreamEvent :=
  [.request announceHevc roomy false, .request playPacket roomy true,
    .request announcePacket roomy false, .request playPacket roomy true]

/-- The session is in H264, and the stream is still in HEVC. -/
theorem encoderOfPlay_negotiated_resumed : ∃ launched st,
    (createLaunchSession (advertise vaHost firstLoad.cfg {}) [] (ascii "10.0.0.7") (drawn 1)).1 =
      some launched ∧
    (streamSystem defaultsToml (fun _ => none) vaHost launched firstLoad.files).run
      ⟨launched, firstLoad.files, none⟩ resumedInH264 = some st ∧
    st.session.video.format = .h264 ∧ st.pipeline = some vaHevc := by
  have htoml : defaultsToml.Documented := documented_onText _ (by decide +kernel)
  have hparse := parse_print_onText defaults defaultsText
  have hwhole : Medium.SeedsWhole defaultsToml roomy := fun _ => le_rfl
  have hcfg : firstLoad.cfg = defaults := by
    rw [firstLoad, loadOrSeed_cfg, readConfig_loadOrSeed htoml hparse hwhole]
    rfl
  obtain ⟨launched, hlaunched⟩ := Option.isSome_iff_exists.mp
    (show (createLaunchSession (advertise vaHost firstLoad.cfg {}) [] (ascii "10.0.0.7")
      (drawn 1)).1.isSome = true by rw [hcfg]; decide +kernel)
  let system := streamSystem defaultsToml (fun _ => none) vaHost launched firstLoad.files
  have keep (t : StreamState) (req : RtspPacket) (starts : Bool)
      (h : IsPlay req → t.pipeline ≠ none) :
      system.step t (.request req roomy starts) =
        some { t with session := (messageHandler req t.session).session } := streamStep_keep h
  obtain ⟨announced, hannounced, hnone⟩ : ∃ t,
      system.step ⟨launched, firstLoad.files, none⟩ (.request announceHevc roomy false) = some t ∧
        t.pipeline = none :=
    ⟨_, keep _ announceHevc false fun h => absurd h (by decide +kernel), rfl⟩
  have hplay : IsPlay playPacket := rfl
  obtain ⟨started, hstarted⟩ : ∃ t,
      system.step announced (.request playPacket roomy true) = some t :=
    ⟨_, streamStep_start hplay hnone⟩
  have hpipeline : started.pipeline = some vaHevc := by
    have hwhole' : ∀ event ∈ [StreamEvent.request announceHevc roomy false],
        event.SeedsWhole defaultsToml := List.forall_mem_singleton.mpr hwhole
    have hstart := (encoderOfPlay_negotiated htoml hparse hlaunched hwhole'
      (System.run_cons_of_step hannounced)).2.2.1
        playPacket roomy started hplay hnone hwhole hstarted
    refine hstart.1.trans ?_
    change negotiatedEncoder vaHost firstLoad.cfg (advertise vaHost firstLoad.cfg {}) _ = _
    rw [hcfg]
    decide +kernel
  obtain ⟨asked, hasked, hkept⟩ : ∃ t,
      system.step started (.request announcePacket roomy false) = some t ∧
        t.pipeline = some vaHevc :=
    ⟨_, keep _ announcePacket false fun h => absurd h (by decide +kernel), hpipeline⟩
  obtain ⟨resumed, hresumed, hkept'⟩ : ∃ t,
      system.step asked (.request playPacket roomy true) = some t ∧ t.pipeline = some vaHevc :=
    ⟨_, keep _ playPacket true fun _ h => Option.some_ne_none _ (hkept.symm.trans h), hkept⟩
  have hrun : system.run ⟨launched, firstLoad.files, none⟩ resumedInH264 = some resumed := by
    rw [resumedInH264, System.run_cons_of_step hannounced, System.run_cons_of_step hstarted,
      System.run_cons_of_step hasked, System.run_cons_of_step hresumed]
    rfl
  refine ⟨launched, resumed, hlaunched, hrun, ?_, hkept'⟩
  rw [run_format (createLaunchSession_codecs hlaunched).1 (streamSystem_erases.run hrun)]
  decide +kernel

end SteamStream.Media
