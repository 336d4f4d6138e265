import SteamStream.Library.Files
import SteamStream.Library.Toml
import SteamStream.Media.AudioPipeline

/-!
# The encoder configuration

The configuration is written to a TOML file by `save` and read back by `load`, with the operations
of a TOML library. Every field is written under the key it is read from, and of no field a default
is taken that has been written, so what is read is the configuration; but what is read with the
default `""` is a pointer to characters, and the `std::string` it is assigned to ends at the first
zero byte (`ofToml_toToml`).

`save` returns the state of its stream, which has yet to hand over what it has buffered: that is
done, and its failure noticed by nobody, when the stream is destroyed. `load_save_iff` says when
a configuration that has been saved is loaded again.
-/

namespace SteamStream.Media

open Wire Toml Files

/-! ### Configurations -/

structure GstEncoder where
  pluginName : Bytes
  checkElements : List Bytes
  encoderPipeline : Bytes
  videoParams : Bytes
  videoParamsZeroCopy : Option Bytes
  deriving DecidableEq, Repr

@[ext]
structure GstVideoCfg where
  defaultSource : Bytes
  defaultSourceZeroCopy : Option Bytes
  defaultSink : Bytes
  h264Encoders : List GstEncoder
  hevcEncoders : List GstEncoder
  av1Encoders : List GstEncoder
  deriving DecidableEq, Repr

/-- The bitrates are of type `int`. -/
structure GstAudioCfg.Ints (a : GstAudioCfg) : Prop where
  stereo : IsInt a.bitrateStereo
  surround51 : IsInt a.bitrate51
  surround71 : IsInt a.bitrate71

structure EncoderConfig where
  video : GstVideoCfg
  audio : GstAudioCfg
  ints : audio.Ints

@[ext]
theorem EncoderConfig.ext {cfg cfg' : EncoderConfig} (hvideo : cfg.video = cfg'.video)
    (haudio : cfg.audio = cfg'.audio) : cfg = cfg' := by
  cases cfg
  cases cfg'
  congr

/-- The audio part of `defaults()`. -/
def defaultAudio : GstAudioCfg where
  sinkName := ascii "steam-stream"
  defaultSource := ascii <|
    "pulsesrc device=\"\x7bsink_name\x7d.monitor\" server=\"\x7bserver\x7d\" ! " ++
    "audiorate ! audioconvert ! audioresample"
  defaultOpusEncoder := ascii <|
    "opusenc bitrate=\x7bbitrate\x7d bitrate-type=cbr frame-size=\x7bpacket_duration\x7d " ++
    "bandwidth=fullband audio-type=restricted-lowdelay max-payload-size=1400"

theorem defaultAudio_ints : defaultAudio.Ints := ⟨by decide, by decide, by decide⟩

/-! ### Tables -/

section Tables

variable {Table Node : Type} (toml : Toml.Api Table Node)

def encoderToToml (e : GstEncoder) : Table :=
  let checks := e.checkElements.map toml.string
  let t := toml.empty
  let t := toml.insert t "plugin_name" (toml.string e.pluginName)
  let t := toml.insert t "check_elements" (toml.array checks)
  let t := toml.insert t "encoder_pipeline" (toml.string e.encoderPipeline)
  let t := toml.insert t "video_params" (toml.string e.videoParams)
  match e.videoParamsZeroCopy with
  | some params => toml.insert t "video_params_zero_copy" (toml.string params)
  | none => t

/-- A `const char*` is assigned to a `std::string` up to its first zero byte. -/
def encoderFromToml (t : Table) : GstEncoder where
  pluginName := cString (toml.charsOr (toml.get t "plugin_name") [])
  checkElements :=
    match (toml.get t "check_elements").bind toml.asArray with
    | some arr => arr.filterMap toml.stringValue
    | none => []
  encoderPipeline := cString (toml.charsOr (toml.get t "encoder_pipeline") [])
  videoParams := cString (toml.charsOr (toml.get t "video_params") [])
  videoParamsZeroCopy := (toml.get t "video_params_zero_copy").bind toml.stringValue

def encodersToToml (encs : List GstEncoder) : List Node :=
  encs.map fun e => toml.table (encoderToToml toml e)

def encodersFromToml : Option (List Node) → List GstEncoder
  | none => []
  | some arr => arr.filterMap fun node => (toml.asTable node).map (encoderFromToml toml)

/-- The `[video]` table `save` builds. -/
def videoToToml (v : GstVideoCfg) : Table :=
  let video := toml.empty
  let video := toml.insert video "default_source" (toml.string v.defaultSource)
  let video :=
    match v.defaultSourceZeroCopy with
    | some source => toml.insert video "default_source_zero_copy" (toml.string source)
    | none => video
  let video := toml.insert video "default_sink" (toml.string v.defaultSink)
  let video := toml.insert video "h264_encoders" (toml.array (encodersToToml toml v.h264Encoders))
  let video := toml.insert video "hevc_encoders" (toml.array (encodersToToml toml v.hevcEncoders))
  toml.insert video "av1_encoders" (toml.array (encodersToToml toml v.av1Encoders))

/-- The `[audio]` table `save` builds. -/
def audioToToml (a : GstAudioCfg) (ints : a.Ints) : Table :=
  let audio := toml.empty
  let audio := toml.insert audio "sink_name" (toml.string a.sinkName)
  let audio := toml.insert audio "default_source" (toml.string a.defaultSource)
  let audio := toml.insert audio "default_opus_encoder" (toml.string a.defaultOpusEncoder)
  let audio := toml.insert audio "bitrate_stereo" (toml.integer ⟨a.bitrateStereo, ints.stereo⟩)
  let audio := toml.insert audio "bitrate_51" (toml.integer ⟨a.bitrate51, ints.surround51⟩)
  toml.insert audio "bitrate_71" (toml.integer ⟨a.bitrate71, ints.surround71⟩)

/-- The document `save` prints. -/
def toToml (cfg : EncoderConfig) : Table :=
  let root := toml.empty
  let root := toml.insert root "video" (toml.table (videoToToml toml cfg.video))
  toml.insert root "audio" (toml.table (audioToToml toml cfg.audio cfg.ints))

/-- What `load` takes from the `[video]` table. -/
def videoFromToml (video : Table) : GstVideoCfg where
  defaultSource := cString (toml.charsOr (toml.get video "default_source") [])
  defaultSourceZeroCopy := (toml.get video "default_source_zero_copy").bind toml.stringValue
  defaultSink := cString (toml.charsOr (toml.get video "default_sink") [])
  h264Encoders := encodersFromToml toml ((toml.get video "h264_encoders").bind toml.asArray)
  hevcEncoders := encodersFromToml toml ((toml.get video "hevc_encoders").bind toml.asArray)
  av1Encoders := encodersFromToml toml ((toml.get video "av1_encoders").bind toml.asArray)

/-- The bitrates `load` takes from the `[audio]` table. -/
def bitratesFromToml (audio : Table) : CInt × CInt × CInt :=
  let d := defaultAudio
  (toml.intOr (toml.get audio "bitrate_stereo") ⟨d.bitrateStereo, defaultAudio_ints.stereo⟩,
    toml.intOr (toml.get audio "bitrate_51") ⟨d.bitrate51, defaultAudio_ints.surround51⟩,
    toml.intOr (toml.get audio "bitrate_71") ⟨d.bitrate71, defaultAudio_ints.surround71⟩)

/-- What `load` takes from the `[audio]` table. -/
def audioFromToml (audio : Table) : GstAudioCfg :=
  let d := defaultAudio
  let (stereo, surround51, surround71) := bitratesFromToml toml audio
  { sinkName := toml.valueOr (toml.get audio "sink_name") d.sinkName
    defaultSource := toml.valueOr (toml.get audio "default_source") d.defaultSource
    defaultOpusEncoder := toml.valueOr (toml.get audio "default_opus_encoder") d.defaultOpusEncoder
    bitrateStereo := stereo
    bitrate51 := surround51
    bitrate71 := surround71 }

theorem audioFromToml_ints (audio : Table) : (audioFromToml toml audio).Ints where
  stereo := (bitratesFromToml toml audio).1.2
  surround51 := (bitratesFromToml toml audio).2.1.2
  surround71 := (bitratesFromToml toml audio).2.2.2

/-- What `load` makes of a document. The `[audio]` table is optional. -/
def ofToml (root : Table) : Option EncoderConfig :=
  match (toml.get root "video").bind toml.asTable with
  | none => none
  | some video =>
    match (toml.get root "audio").bind toml.asTable with
    | some audio =>
      some ⟨videoFromToml toml video, audioFromToml toml audio, audioFromToml_ints toml audio⟩
    | none => some ⟨videoFromToml toml video, defaultAudio, defaultAudio_ints⟩

end Tables

/-! ### Files -/

/-- How writing to a file goes. -/
structure Medium where
  /-- Whether the file can be opened. -/
  opens : Bool
  /-- The bytes of a text the stream has handed over while it was written to; the others are in its
  buffer until it is destroyed. -/
  handedOver : ℕ
  /-- The bytes there is room for. -/
  room : ℕ
  deriving DecidableEq, Repr

section Files

variable {Table Node : Type}

/-- `load`. A file that cannot be opened is a parse error. -/
def load (toml : Toml.Api Table Node) (files : Directory Bytes UInt8) (path : Bytes) :
    Option EncoderConfig :=
  ((files.lookup path).bind toml.parse).bind (ofToml toml)

/-- `save`, and the files once the stream is destroyed. -/
def save (toml : Toml.Api Table Node) (medium : Medium) (files : Directory Bytes UInt8)
    (cfg : EncoderConfig) (path : Bytes) : Bool × Directory Bytes UInt8 :=
  let text := toml.print (toToml toml cfg)
  if medium.opens then
    (min medium.handedOver text.length ≤ medium.room, files.insert path (text.take medium.room))
  else (false, files)

end Files

/-! ### Reading back what was written -/

/-- The encoder with its strings as they come through a C string. -/
def GstEncoder.truncated (e : GstEncoder) : GstEncoder :=
  { e with
    pluginName := cString e.pluginName
    encoderPipeline := cString e.encoderPipeline
    videoParams := cString e.videoParams }

def GstVideoCfg.truncated (v : GstVideoCfg) : GstVideoCfg :=
  { v with
    defaultSource := cString v.defaultSource
    defaultSink := cString v.defaultSink
    h264Encoders := v.h264Encoders.map GstEncoder.truncated
    hevcEncoders := v.hevcEncoders.map GstEncoder.truncated
    av1Encoders := v.av1Encoders.map GstEncoder.truncated }

section RoundTrip

variable {Table Node : Type} {toml : Toml.Api Table Node}

/-- An entry is read under the key it was written under. -/
theorem encoderFromToml_encoderToToml (htoml : toml.Documented) (e : GstEncoder) :
    encoderFromToml toml (encoderToToml toml e) = e.truncated := by
  obtain ⟨pluginName, checkElements, encoderPipeline, videoParams, videoParamsZeroCopy⟩ := e
  cases videoParamsZeroCopy <;>
    simp [encoderFromToml, encoderToToml, GstEncoder.truncated, htoml.get_insert, htoml.get_empty,
      htoml.charsOr_string, htoml.asArray_array, htoml.stringValue_string]

/-- No encoder is dropped, and they stay in their order. -/
theorem encodersFromToml_encodersToToml (htoml : toml.Documented) (encs : List GstEncoder) :
    encodersFromToml toml (some (encodersToToml toml encs)) = encs.map GstEncoder.truncated := by
  induction encs with
  | nil => rfl
  | cons e encs ih =>
    have hhead : (toml.asTable (toml.table (encoderToToml toml e))).map (encoderFromToml toml) =
        some e.truncated := by
      rw [htoml.asTable_table, Option.map_some, encoderFromToml_encoderToToml htoml]
    rw [List.map_cons, ← ih]
    exact List.filterMap_cons_some
      (f := fun node => (toml.asTable node).map (encoderFromToml toml)) hhead

theorem videoFromToml_videoToToml (htoml : toml.Documented) (v : GstVideoCfg) :
    videoFromToml toml (videoToToml toml v) = v.truncated := by
  obtain ⟨defaultSource, defaultSourceZeroCopy, defaultSink, h264, hevc, av1⟩ := v
  cases defaultSourceZeroCopy <;>
    simp [videoFromToml, videoToToml, GstVideoCfg.truncated, htoml.get_insert, htoml.get_empty,
      htoml.charsOr_string, htoml.asArray_array, htoml.stringValue_string,
      encodersFromToml_encodersToToml htoml]

/-- A written entry takes the place of its default. -/
theorem audioFromToml_audioToToml (htoml : toml.Documented) {a : GstAudioCfg} (h : a.Ints) :
    audioFromToml toml (audioToToml toml a h) = a := by
  simp [audioFromToml, bitratesFromToml, audioToToml, htoml.get_insert, htoml.get_empty,
    htoml.valueOr_string, htoml.intOr_integer]

/-- The configuration as it is read back. -/
def EncoderConfig.truncated (cfg : EncoderConfig) : EncoderConfig :=
  { cfg with video := cfg.video.truncated }

theorem ofToml_toToml (htoml : toml.Documented) (cfg : EncoderConfig) :
    ofToml toml (toToml toml cfg) = some cfg.truncated := by
  have hvideo : (toml.get (toToml toml cfg) "video").bind toml.asTable =
      some (videoToToml toml cfg.video) := by
    simp [toToml, htoml.get_insert, htoml.get_empty, htoml.asTable_table]
  have haudio : (toml.get (toToml toml cfg) "audio").bind toml.asTable =
      some (audioToToml toml cfg.audio cfg.ints) := by
    simp [toToml, htoml.get_insert, htoml.get_empty, htoml.asTable_table]
  rw [ofToml, hvideo]
  dsimp only
  rw [haudio]
  exact congrArg some (EncoderConfig.ext (videoFromToml_videoToToml htoml cfg.video)
    (audioFromToml_audioToToml htoml cfg.ints))

end RoundTrip

/-! ### What is read unchanged -/

/-- No zero byte in what is read with the default `""`. -/
structure GstEncoder.NulFree (e : GstEncoder) : Prop where
  pluginName : 0 ∉ e.pluginName
  encoderPipeline : 0 ∉ e.encoderPipeline
  videoParams : 0 ∉ e.videoParams

structure EncoderConfig.NulFree (cfg : EncoderConfig) : Prop where
  defaultSource : 0 ∉ cfg.video.defaultSource
  defaultSink : 0 ∉ cfg.video.defaultSink
  h264Encoders : ∀ e ∈ cfg.video.h264Encoders, e.NulFree
  hevcEncoders : ∀ e ∈ cfg.video.hevcEncoders, e.NulFree
  av1Encoders : ∀ e ∈ cfg.video.av1Encoders, e.NulFree

theorem GstEncoder.truncated_eq_iff (e : GstEncoder) : e.truncated = e ↔ e.NulFree := by
  obtain ⟨pluginName, checkElements, encoderPipeline, videoParams, videoParamsZeroCopy⟩ := e
  simp only [truncated, mk.injEq, cString_eq_self_iff, true_and, and_true]
  exact ⟨fun ⟨h, h', h''⟩ => ⟨h, h', h''⟩, fun ⟨h, h', h''⟩ => ⟨h, h', h''⟩⟩

theorem map_truncated_eq_iff (encs : List GstEncoder) :
    encs.map GstEncoder.truncated = encs ↔ ∀ e ∈ encs, e.NulFree := by
  induction encs with
  | nil => simp
  | cons e encs ih =>
    rw [List.map_cons, List.cons.injEq, ih, GstEncoder.truncated_eq_iff, List.forall_mem_cons]

theorem EncoderConfig.truncated_eq_iff (cfg : EncoderConfig) :
    cfg.truncated = cfg ↔ cfg.NulFree := by
  have hvideo : cfg.truncated = cfg ↔ cfg.video.truncated = cfg.video :=
    ⟨congrArg EncoderConfig.video, fun h => EncoderConfig.ext h rfl⟩
  rw [hvideo, GstVideoCfg.ext_iff]
  simp only [GstVideoCfg.truncated, cString_eq_self_iff, map_truncated_eq_iff, true_and]
  exact ⟨fun ⟨hsource, hsink, h264, hevc, hav1⟩ => ⟨hsource, hsink, h264, hevc, hav1⟩,
    fun ⟨hsource, hsink, h264, hevc, hav1⟩ => ⟨hsource, hsink, h264, hevc, hav1⟩⟩

/-! ### Saving and loading -/

section SaveLoad

variable {Table Node : Type} {toml : Toml.Api Table Node} {medium : Medium}
  {files : Directory Bytes UInt8} {cfg : EncoderConfig} {path : Bytes}

theorem opens_of_save (h : (save toml medium files cfg path).1 = true) : medium.opens = true := by
  unfold save at h
  split_ifs at h with hopens
  exact hopens

/-- What is loaded is what there was room for. -/
theorem load_save (hopens : medium.opens = true) :
    load toml (save toml medium files cfg path).2 path =
      (toml.parse ((toml.print (toToml toml cfg)).take medium.room)).bind (ofToml toml) := by
  simp only [save, if_pos hopens, load, AList.lookup_insert, Option.bind_some]

/-- Nothing that is still in the buffer keeps `save` from reporting success. -/
theorem save_of_buffered (hopens : medium.opens = true) (hbuffered : medium.handedOver = 0) :
    (save toml medium files cfg path).1 = true := by
  simp only [save, if_pos hopens, hbuffered, Nat.zero_min, Nat.zero_le, decide_true]

/-- Once all of the text has reached the file, the configuration is read back. -/
theorem load_save_whole (htoml : toml.Documented)
    (hparse : toml.parse (toml.print (toToml toml cfg)) = some (toToml toml cfg))
    (hopens : medium.opens = true)
    (hroom : (toml.print (toToml toml cfg)).length ≤ medium.room) :
    load toml (save toml medium files cfg path).2 path = some cfg.truncated := by
  rw [load_save hopens, List.take_of_length_le hroom, hparse, Option.bind_some,
    ofToml_toToml htoml]

/-- An empty file has no `[video]` table. -/
theorem load_save_nothing (htoml : toml.Documented) (hopens : medium.opens = true)
    (hroom : medium.room = 0) :
    load toml (save toml medium files cfg path).2 path = none := by
  rw [load_save hopens, hroom, List.take_zero, htoml.parse_nil, Option.bind_some, ofToml,
    htoml.get_empty]
  rfl

/-- **Saving and loading.** A configuration that `save` reports as saved is loaded again, if all of
its text has reached the file, exactly when no zero byte cuts one of its strings off. If nothing of
the text has, nothing is loaded. -/
theorem load_save_iff (htoml : toml.Documented)
    (hparse : toml.parse (toml.print (toToml toml cfg)) = some (toToml toml cfg))
    (hsave : (save toml medium files cfg path).1 = true) :
    ((toml.print (toToml toml cfg)).length ≤ medium.room →
      (load toml (save toml medium files cfg path).2 path = some cfg ↔ cfg.NulFree)) ∧
    (medium.room = 0 → load toml (save toml medium files cfg path).2 path = none) := by
  have hopens := opens_of_save hsave
  refine ⟨fun hroom => ?_, load_save_nothing htoml hopens⟩
  rw [load_save_whole htoml hparse hopens hroom, Option.some.injEq]
  exact cfg.truncated_eq_iff

end SaveLoad

/-! ### Two documents -/

/-- What is printed of a configuration and parsed again, as far as it goes for one text. -/
def onText (cfg : EncoderConfig) (text : Bytes) : Toml.Api (List (String × Value)) Value :=
  let root := toToml (plain (fun _ => []) fun _ => none) cfg
  plain (fun _ => text) fun t => if t = text then some root else if t = [] then some [] else none

theorem documented_onText (cfg : EncoderConfig) {text : Bytes} (h : text ≠ []) :
    (onText cfg text).Documented := by
  refine documented_plain ?_
  rw [if_neg h.symm, if_pos rfl]

theorem parse_print_onText (cfg : EncoderConfig) (text : Bytes) :
    (onText cfg text).parse ((onText cfg text).print (toToml (onText cfg text) cfg)) =
      some (toToml (onText cfg text) cfg) := if_pos rfl

/-- A configuration without encoders. -/
def sourceOnly (defaultSource : Bytes) : EncoderConfig where
  video := ⟨defaultSource, none, ascii "appsink", [], [], []⟩
  audio := ⟨ascii "steam-stream", ascii "pulsesrc", ascii "opusenc", 96000, 256000, 450000⟩
  ints := ⟨by decide, by decide, by decide⟩

/-- It is printed with its source as a quoted string. -/
def sourceOnlyText (quotedSource : String) : Bytes := ascii <|
  "[audio]\nbitrate_51 = 256000\nbitrate_71 = 450000\nbitrate_stereo = 96000\n" ++
  "default_opus_encoder = 'opusenc'\ndefault_source = 'pulsesrc'\nsink_name = 'steam-stream'\n\n" ++
  "[video]\nav1_encoders = []\ndefault_sink = 'appsink'\ndefault_source = " ++ quotedSource ++
  "\nh264_encoders = []\nhevc_encoders = []"

/-- `a`, a zero byte, `b`. -/
def cutSource : Bytes := [97, 0, 98]

/-- A configuration that is loaded again: the text stays in the buffer, and there is room for it. -/
theorem load_save_iff_waylanddisplaysrc :
    let source := ascii "waylanddisplaysrc"
    let text := sourceOnlyText "'waylanddisplaysrc'"
    let toml := onText (sourceOnly source) text
    load toml (save toml ⟨true, 0, text.length⟩ ∅ (sourceOnly source) (ascii "encoders.toml")).2
      (ascii "encoders.toml") = some (sourceOnly source) := by
  intro source text toml
  have hsave := @save_of_buffered _ _ toml ⟨true, 0, text.length⟩ ∅ (sourceOnly source)
    (ascii "encoders.toml") rfl rfl
  refine ((load_save_iff (documented_onText _ (by decide)) (parse_print_onText ..) hsave).1
    le_rfl).mpr ?_
  exact ⟨by decide, by decide, by simp [sourceOnly], by simp [sourceOnly], by simp [sourceOnly]⟩

/-- `save` reports success and `load` gives something else, though the library does all that is
documented and the document parses. -/
def Loses {Table Node : Type} (toml : Toml.Api Table Node) (medium : Medium) (cfg : EncoderConfig) :
    Prop :=
  let path := ascii "encoders.toml"
  toml.Documented ∧ toml.parse (toml.print (toToml toml cfg)) = some (toToml toml cfg) ∧
    (save toml medium ∅ cfg path).1 = true ∧
    load toml (save toml medium ∅ cfg path).2 path ≠ some cfg

/-- A zero byte in a string, with room for all of the text; and a full disk. -/
theorem loses_zeroByte_and_fullDisk :
    Loses (onText (sourceOnly cutSource) (sourceOnlyText "\"a\\u0000b\""))
      ⟨true, 0, (sourceOnlyText "\"a\\u0000b\"").length⟩ (sourceOnly cutSource) ∧
    Loses (onText (sourceOnly []) (sourceOnlyText "''")) ⟨true, 0, 0⟩ (sourceOnly []) := by
  have hcut := documented_onText (sourceOnly cutSource)
    (show sourceOnlyText "\"a\\u0000b\"" ≠ [] by decide)
  have hfull := documented_onText (sourceOnly []) (show sourceOnlyText "''" ≠ [] by decide)
  refine ⟨⟨hcut, parse_print_onText .., save_of_buffered rfl rfl, ?_⟩,
    hfull, parse_print_onText .., save_of_buffered rfl rfl, ?_⟩
  · rw [load_save_whole hcut (parse_print_onText ..) rfl le_rfl]
    intro h
    have hfree := (EncoderConfig.truncated_eq_iff _).mp (Option.some.inj h)
    exact hfree.defaultSource (by decide)
  · rw [load_save_nothing hfull rfl rfl]
    exact (Option.some_ne_none _).symm

end SteamStream.Media
