import SteamStream.Library.Fmt
import SteamStream.Media.Encoders

/-!
# The description of the video pipeline

`build_video_pipeline` puts the configured parts of the pipeline together to one format string and
fills in the parameters the client has negotiated, and whatever the client sends for them ends up
in the text GStreamer makes the pipeline from. It is numbers and the names of colours: as long as
the render node is one word as well, the elements of the pipeline and their properties are those of
the format string, with the values filled in (`forall₂_chain_buildVideoPipeline`).

The elements of the compiled-in configuration that the server looks up by their names are there
under these names, each once, whatever has been negotiated and whatever encoders there are
(`names_buildVideoPipeline`).
-/

namespace SteamStream.Media

open Wire CText QuotedWords Session

/-! ### The description -/

def colorRangeStr (r : ColorRange) : Bytes :=
  if r = .jpeg then ascii "jpeg" else ascii "mpeg2"

def colorSpaceStr (s : ColorSpace) : Bytes :=
  if s = .bt709 then ascii "bt709" else if s = .bt2020 then ascii "bt2020" else ascii "bt601"

/-- `atol`. -/
def atol (s : Bytes) : ℤ :=
  match scanDecimal (cString s) with
  | none => 0
  | some (v, _) => max (-2 ^ 63) (min v (2 ^ 63 - 1))

/-- The window of `encoder_vbv_kbit`, in milliseconds. -/
def vbvMs (env : Environment) : ℤ :=
  match env "STEAM_STREAM_VBV_MS" with
  | some e => if 0 < atol e then atol e else 500
  | none => 500

/-- The values of type `long`. -/
def FitsLong (n : ℤ) : Prop := -2 ^ 63 ≤ n ∧ n < 2 ^ 63

instance (n : ℤ) : Decidable (FitsLong n) := inferInstanceAs (Decidable (_ ∧ _))

/-- `encoder_vbv_kbit`; the rate of the frames has no part in it. It is `none` where the product
overflows. -/
def encoderVbvKbit (env : Environment) (bitrateKbps _fps : ℤ) : Option ℤ :=
  let product := bitrateKbps * vbvMs env
  if FitsLong product then
    let vbv := product.tdiv 1000
    some (if 0 < vbv then vbv else bitrateKbps)
  else none

/-- The buffer is never unbounded. -/
theorem encoderVbvKbit_pos {env : Environment} {bitrateKbps fps vbv : ℤ} (hpos : 0 < bitrateKbps)
    (h : encoderVbvKbit env bitrateKbps fps = some vbv) : 0 < vbv := by
  simp only [encoderVbvKbit] at h
  split_ifs at h with hfits hvbv
  · exact Option.some.inj h ▸ hvbv
  · exact Option.some.inj h ▸ hpos

/-- `zero_copy_env`. -/
def zeroCopyEnv (env : Environment) : Bool :=
  match env "WOLF_USE_ZERO_COPY" with
  | none => false
  | some v => v ≠ ascii "FALSE" ∧ v ≠ ascii "false"

/-- `tmpl`: with or without zero copy, which the source and the encoder have to agree on. -/
def videoTemplate (env : Environment) (v : GstVideoCfg) (encoder : GstEncoder) : Bytes :=
  let (source, videoParams) :=
    match zeroCopyEnv env, v.defaultSourceZeroCopy, encoder.videoParamsZeroCopy with
    | true, some source, some params => (source, params)
    | _, _, _ => (v.defaultSource, encoder.videoParams)
  source ++ ascii " ! " ++ videoParams ++ ascii " ! " ++ encoder.encoderPipeline ++ ascii " ! " ++
    v.defaultSink

/-- The arguments the template is filled with. -/
def videoArgs (s : StreamSession) (renderNode : Bytes) (vbv : ℤ) : List (String × FmtArg) :=
  let v := s.video
  [("node", .text renderNode), ("width", .int v.width), ("height", .int v.height),
    ("fps", .int v.fps), ("color_range", .text (colorRangeStr v.colorRange)),
    ("color_space", .text (colorSpaceStr v.colorSpace)), ("bitrate", .int v.bitrateKbps),
    ("vbv_buffer_size", .int vbv), ("slices_per_frame", .int v.slicesPerFrame),
    ("payload_size", .int v.packetSize), ("fec_percentage", .int v.fecPercentage),
    ("min_required_fec_packets", .int v.minRequiredFecPackets)]

/-- `build_video_pipeline`: empty without an encoder, `none` if the size of the buffer overflows or
`fmt::format` throws. -/
def buildVideoPipeline (format : RuntimeFormat) (env : Environment) (instantiable : Bytes → Bool)
    (cfg : EncoderConfig) (s : StreamSession) (renderNode : Bytes) : Option Bytes :=
  match selectEncoder instantiable cfg s.video.format with
  | none => some []
  | some encoder => do
    let vbv ← encoderVbvKbit env s.video.bitrateKbps s.video.fps
    format (videoTemplate env cfg.video encoder) (videoArgs s renderNode vbv)

/-! ### Filling in -/

/-- An argument as it is printed without a format specification. -/
def FmtArg.print : FmtArg → Bytes
  | .text value => value
  | .int value => formatInt value

/-- The argument with a name. -/
def argValue (args : List (String × FmtArg)) (content : Bytes) : Option Bytes :=
  (args.find? fun arg => ascii arg.1 = content).map fun arg => arg.2.print

/-- A field that holds nothing but the name of an argument stands for that argument. -/
def FillsNames (format : RuntimeFormat) : Prop :=
  ∀ text args ps, Fmt.parse text = some ps →
    (∀ content, .field content ∈ ps → (argValue args content).isSome = true) →
    format text args = Fmt.renderPieces (argValue args) ps

/-- The names of the arguments. -/
def argNames : List Bytes :=
  [ascii "node", ascii "width", ascii "height", ascii "fps", ascii "color_range",
    ascii "color_space", ascii "bitrate", ascii "vbv_buffer_size", ascii "slices_per_frame",
    ascii "payload_size", ascii "fec_percentage", ascii "min_required_fec_packets"]

section Filling

variable {format : RuntimeFormat} {env : Environment} {instantiable : Bytes → Bool}
  {cfg : EncoderConfig} {encoder : GstEncoder} {s : StreamSession} {renderNode : Bytes} {vbv : ℤ}
  {ps : List Fmt.Piece} {content : Bytes}

theorem isWordByte_of_isDigit {c : UInt8} (h : isDigit c = true) :
    isWordByte c = true ∧ c ≠ 92 := by
  simp only [isDigit, decide_eq_true_eq, UInt8.le_iff_toNat_le, UInt8.reduceToNat] at h
  simp only [isWordByte, isSpace, ← UInt8.toNat_inj, UInt8.le_iff_toNat_le, UInt8.reduceToNat,
    Bool.not_eq_true', Bool.or_eq_false_iff, decide_eq_false_iff_not, ne_eq]
  omega

theorem isWord_formatInt (n : ℤ) : Fmt.IsWord (formatInt n) := by
  refine ⟨List.append_ne_nil_of_right_ne_nil _ (toDecimal_ne_nil _), fun c hc => ?_⟩
  rcases List.mem_append.mp hc with hsign | hdigit
  · rw [sign] at hsign
    split_ifs at hsign
    · rw [List.mem_singleton.mp hsign]
      decide
    · cases hsign
  · exact isWordByte_of_isDigit (isDigit_of_mem_toDecimal hdigit)

theorem isWord_colorRangeStr (r : ColorRange) : Fmt.IsWord (colorRangeStr r) := by
  rw [colorRangeStr]
  split_ifs <;> decide +kernel

theorem isWord_colorSpaceStr (c : ColorSpace) : Fmt.IsWord (colorSpaceStr c) := by
  rw [colorSpaceStr]
  split_ifs <;> decide +kernel

/-- No argument can end the word it is filled into. -/
theorem isWord_print (hnode : Fmt.IsWord renderNode) :
    ∀ arg ∈ videoArgs s renderNode vbv, Fmt.IsWord arg.2.print := by
  simp only [videoArgs, List.forall_mem_cons]
  exact ⟨hnode, isWord_formatInt _, isWord_formatInt _, isWord_formatInt _,
    isWord_colorRangeStr _, isWord_colorSpaceStr _, isWord_formatInt _, isWord_formatInt _,
    isWord_formatInt _, isWord_formatInt _, isWord_formatInt _, isWord_formatInt _,
    List.forall_mem_nil _⟩

theorem exists_argValue (h : content ∈ argNames) :
    ∃ text, argValue (videoArgs s renderNode vbv) content = some text := by
  have hnames : (videoArgs s renderNode vbv).map (fun arg => ascii arg.1) = argNames := rfl
  rw [← hnames] at h
  obtain ⟨arg, harg, rfl⟩ := List.mem_map.mp h
  have hfind : ((videoArgs s renderNode vbv).find? fun arg' => ascii arg'.1 = ascii arg.1).isSome =
      true := List.find?_isSome.mpr ⟨arg, harg, decide_eq_true rfl⟩
  obtain ⟨arg', hfind⟩ := Option.isSome_iff_exists.mp hfind
  refine ⟨arg'.2.print, ?_⟩
  rw [argValue, hfind, Option.map_some]

theorem fillsWords_videoArgs (hnode : Fmt.IsWord renderNode)
    (hfields : ∀ content, .field content ∈ ps → content ∈ argNames) :
    Fmt.FillsWords (argValue (videoArgs s renderNode vbv)) ps := by
  intro content hcontent
  obtain ⟨text, htext⟩ := @exists_argValue s renderNode vbv content (hfields content hcontent)
  refine ⟨text, htext, ?_⟩
  obtain ⟨arg, harg, rfl⟩ := Option.map_eq_some_iff.mp htext
  exact isWord_print hnode arg (List.mem_of_find?_eq_some harg)

/-- **The shape of the video pipeline is that of its template.** Its elements and their words are
those of the format string, each with the values filled into it. -/
theorem forall₂_chain_buildVideoPipeline (hformat : FillsNames format)
    (hencoder : selectEncoder instantiable cfg s.video.format = some encoder)
    (hparse : Fmt.parse (videoTemplate env cfg.video encoder) = some ps)
    (hfields : ∀ content, .field content ∈ ps → content ∈ argNames)
    (hvbv : FitsLong (s.video.bitrateKbps * vbvMs env)) (hnode : Fmt.IsWord renderNode)
    (escapes : Bool) :
    ∃ vbv text, encoderVbvKbit env s.video.bitrateKbps s.video.fps = some vbv ∧
      buildVideoPipeline format env instantiable cfg s renderNode = some text ∧
      List.Forall₂ (List.Forall₂ (Fmt.Fills (argValue (videoArgs s renderNode vbv))))
        (Fmt.pieceChain escapes ps) (chain escapes text) := by
  obtain ⟨vbv, hvbv⟩ : ∃ vbv, encoderVbvKbit env s.video.bitrateKbps s.video.fps = some vbv :=
    ⟨_, if_pos hvbv⟩
  have hwords := @fillsWords_videoArgs s renderNode vbv ps hnode hfields
  have hsome : (Fmt.renderPieces (argValue (videoArgs s renderNode vbv)) ps).isSome = true := by
    refine Fmt.isSome_renderPieces.mpr fun p hp => ?_
    cases p with
    | byte c => rfl
    | field content =>
      obtain ⟨text, htext, -⟩ := hwords content hp
      exact Option.isSome_iff_exists.mpr ⟨text, htext⟩
  obtain ⟨text, htext⟩ := Option.isSome_iff_exists.mp hsome
  refine ⟨vbv, text, hvbv, ?_, Fmt.forall₂_chain hwords htext⟩
  rw [buildVideoPipeline, hencoder]
  dsimp only
  rw [hvbv]
  change format _ _ = _
  rw [hformat _ _ ps hparse, htext]
  intro content hcontent
  obtain ⟨value, hvalue, -⟩ := hwords content hcontent
  exact Option.isSome_iff_exists.mpr ⟨value, hvalue⟩

end Filling

/-! ### The names of the elements -/

/-- The name a word gives to its element. -/
def nameOf (word : Bytes) : Option Bytes :=
  if ascii "name=" <+: word then some (word.drop 5) else none

/-- The names of the elements of a description. -/
def elementNames (elements : List (List Bytes)) : List Bytes := elements.flatten.filterMap nameOf

/-- The elements the pipeline is made of, as far as they have names. The server takes three of them
from it by these names. -/
def videoNames : List Bytes :=
  [ascii "wolf_wayland_source", ascii "video_encoder", ascii "moonlight_pay", ascii "video_sink"]

/-- Whether a word names its element does not depend on what is filled in. -/
def NameDecided (w : List Fmt.Piece) : Prop :=
  Fmt.IsLiteral w ∨ 5 ≤ (Fmt.lead w).length ∧ ¬ ascii "name=" <+: Fmt.lead w

instance (w : List Fmt.Piece) : Decidable (NameDecided w) := inferInstanceAs (Decidable (_ ∨ _))

/-- The format string fixes the names of the elements. -/
structure FixesNames (names : List Bytes) (ps : List Fmt.Piece) : Prop where
  fields : ∀ content, .field content ∈ ps → content ∈ argNames
  decided : ∀ escapes, ∀ w ∈ (Fmt.pieceChain escapes ps).flatten, NameDecided w
  names : ∀ escapes, ((Fmt.pieceChain escapes ps).flatten.map Fmt.lead).filterMap nameOf = names

/-- No backslash, and no field that is not known. -/
def isPlainPiece : Fmt.Piece → Bool
  | .byte c => c ≠ 92
  | .field content => argNames.contains content

/-- The same, to be evaluated. -/
def checkNames (names : List Bytes) (text : Bytes) : Bool :=
  match Fmt.parse text with
  | none => false
  | some ps =>
    ps.all isPlainPiece && (Fmt.pieceChain true ps).flatten.all (NameDecided ·) &&
      ((Fmt.pieceChain true ps).flatten.map Fmt.lead).filterMap nameOf = names

theorem exists_of_checkNames {names : List Bytes} {text : Bytes}
    (h : checkNames names text = true) :
    ∃ ps, Fmt.parse text = some ps ∧ FixesNames names ps := by
  unfold checkNames at h
  split at h
  · cases h
  · rename_i ps hps
    simp only [Bool.and_eq_true, List.all_eq_true, decide_eq_true_eq] at h
    obtain ⟨⟨hplain, hdecided⟩, hnames⟩ := h
    have hslash : .byte 92 ∉ ps := fun hmem => absurd (hplain _ hmem) (by decide)
    have hchain : ∀ escapes, Fmt.pieceChain escapes ps = Fmt.pieceChain true ps :=
      fun _ => Fmt.pieceChain_congr hslash
    refine ⟨ps, hps, fun content hcontent => List.contains_iff_mem.mp (hplain _ hcontent),
      fun escapes => ?_, fun escapes => ?_⟩
    · rw [hchain]
      exact hdecided
    · rw [hchain, hnames]

section Names

variable {value : Bytes → Option Bytes} {w : List Fmt.Piece} {text : Bytes}

theorem nameOf_fills (hw : NameDecided w) (h : Fmt.Fills value w text) :
    nameOf text = nameOf (Fmt.lead w) := by
  obtain hliteral | ⟨hlength, hname⟩ := hw
  · rw [Fmt.eq_lead hliteral h.render]
  · have hbegins : ascii "name=" <+: text ↔ ascii "name=" <+: Fmt.lead w :=
      Fmt.beginsWith_iff_of_lead hlength h.render
    rw [nameOf, nameOf, if_neg (mt hbegins.mp hname), if_neg hname]

/-- What has been filled in names no element, and takes no name from one. -/
theorem elementNames_fills {chain : List (List (List Fmt.Piece))} {chain' : List (List Bytes)}
    (hdecided : ∀ w ∈ chain.flatten, NameDecided w)
    (h : List.Forall₂ (List.Forall₂ (Fmt.Fills value)) chain chain') :
    elementNames chain' = (chain.flatten.map Fmt.lead).filterMap nameOf := by
  have hflat : List.Forall₂ (Fmt.Fills value) chain.flatten chain'.flatten := by
    induction h with
    | nil => exact .nil
    | cons hab _ ih =>
      rw [List.flatten_cons, List.flatten_cons]
      exact List.rel_append hab (ih fun w hw => hdecided w (List.mem_append_right _ hw))
  rw [elementNames]
  generalize chain.flatten = words at hflat hdecided
  generalize chain'.flatten = words' at hflat
  induction hflat with
  | nil => rfl
  | cons hwt _ ih =>
    obtain ⟨hw, hwords⟩ := List.forall_mem_cons.mp hdecided
    rw [List.map_cons, List.filterMap_cons, List.filterMap_cons, nameOf_fills hw hwt, ih hwords]

end Names

section Defaults

variable {format : RuntimeFormat} {env : Environment} {instantiable : Bytes → Bool}
  {cfg : EncoderConfig} {encoder : GstEncoder} {s : StreamSession} {renderNode : Bytes}

/-- What a format string fixes is fixed in every pipeline that is made from it. -/
theorem elementNames_buildVideoPipeline {names : List Bytes} (hformat : FillsNames format)
    (hencoder : selectEncoder instantiable cfg s.video.format = some encoder)
    (hnames : checkNames names (videoTemplate env cfg.video encoder) = true)
    (hvbv : FitsLong (s.video.bitrateKbps * vbvMs env)) (hnode : Fmt.IsWord renderNode) :
    ∃ text, buildVideoPipeline format env instantiable cfg s renderNode = some text ∧
      ∀ escapes, elementNames (chain escapes text) = names := by
  obtain ⟨ps, hparse, hfixes⟩ := exists_of_checkNames hnames
  have hshape := forall₂_chain_buildVideoPipeline hformat hencoder hparse hfixes.fields hvbv hnode
  obtain ⟨-, text, -, htext, -⟩ := hshape true
  refine ⟨text, htext, fun escapes => ?_⟩
  obtain ⟨vbv, text', -, htext', hchain⟩ := hshape escapes
  obtain rfl := Option.some.inj (htext.symm.trans htext')
  exact (elementNames_fills (hfixes.decided escapes) hchain).trans (hfixes.names escapes)

theorem selectEncoder_mem (h : selectEncoder instantiable cfg s.video.format = some encoder) :
    encoder ∈ cfg.video.h264Encoders ++ cfg.video.hevcEncoders ++ cfg.video.av1Encoders := by
  have hlist : ∀ fmt, encoder ∈ cfg.video.encoders fmt →
      encoder ∈ cfg.video.h264Encoders ++ cfg.video.hevcEncoders ++ cfg.video.av1Encoders := by
    intro fmt hmem
    cases fmt with
    | h264 => exact List.mem_append_left _ (List.mem_append_left _ hmem)
    | hevc => exact List.mem_append_left _ (List.mem_append_right _ hmem)
    | av1 => exact List.mem_append_right _ hmem
  rw [@selectEncoder_advertise _ _ {}] at h
  exact hlist _ (List.mem_of_find?_eq_some h)

set_option maxRecDepth 10000 in
/-- Every encoder of the compiled-in configuration, with and without zero copy. -/
theorem checkNames_defaults
    (h : encoder ∈ defaults.video.h264Encoders ++ defaults.video.hevcEncoders ++
      defaults.video.av1Encoders) :
    checkNames videoNames (videoTemplate env defaults.video encoder) = true := by
  have hall : ∀ e ∈ defaults.video.h264Encoders ++ defaults.video.hevcEncoders ++
      defaults.video.av1Encoders,
      checkNames videoNames (videoTemplate (fun _ => none) defaults.video e) = true ∧
      checkNames videoNames
        (videoTemplate (fun _ => some (ascii "TRUE")) defaults.video e) = true := by
    decide +kernel
  have htemplate : videoTemplate env defaults.video encoder =
      videoTemplate (fun _ => if zeroCopyEnv env then some (ascii "TRUE") else none)
        defaults.video encoder := by
    rw [videoTemplate, videoTemplate]
    cases zeroCopyEnv env <;> rfl
  rw [htemplate]
  cases zeroCopyEnv env with
  | false => exact (hall encoder h).1
  | true => exact (hall encoder h).2

/-- **The elements the server looks for are in the pipeline, each once.** Whatever a client has
negotiated and whatever encoders there are, the pipeline of the compiled-in configuration has
the elements with these names, in this order, and no others with names. -/
theorem names_buildVideoPipeline (hformat : FillsNames format) (hnode : Fmt.IsWord renderNode)
    (hvbv : FitsLong (s.video.bitrateKbps * vbvMs env))
    (hencoder : (selectEncoder instantiable defaults s.video.format).isSome = true) :
    ∃ text, buildVideoPipeline format env instantiable defaults s renderNode = some text ∧
      ∀ escapes, elementNames (chain escapes text) = videoNames := by
  obtain ⟨encoder, hencoder⟩ := Option.isSome_iff_exists.mp hencoder
  exact elementNames_buildVideoPipeline hformat hencoder
    (checkNames_defaults (selectEncoder_mem hencoder)) hvbv hnode

end Defaults

/-! ### A pipeline on a server with VA-API -/

/-- `fmt::format` on fields without format specifications. -/
def plainFormat : RuntimeFormat := fun text args => Fmt.render (argValue args) text

theorem fillsNames_plainFormat : FillsNames plainFormat := by
  intro text args ps hps _
  rw [plainFormat, Fmt.render, hps, Option.bind_some]

theorem selectEncoder_vaHost : selectEncoder vaHost defaults .h264 = some swH264 := by
  decide +kernel

theorem isWord_renderD129 : Fmt.IsWord (ascii "/dev/dri/renderD129") := by decide +kernel

theorem names_buildVideoPipeline_vaHost :
    ∃ text, buildVideoPipeline plainFormat (fun _ => none) vaHost defaults {}
        (ascii "/dev/dri/renderD129") = some text ∧
      ∀ escapes, elementNames (chain escapes text) = videoNames :=
  names_buildVideoPipeline fillsNames_plainFormat isWord_renderD129 (by decide)
    (Option.isSome_iff_exists.mpr ⟨swH264, selectEncoder_vaHost⟩)

theorem forall₂_chain_buildVideoPipeline_vaHost :
    ∃ ps vbv text, Fmt.parse (videoTemplate (fun _ => none) defaults.video swH264) = some ps ∧
      encoderVbvKbit (fun _ => none) 15500 0 = some vbv ∧
      buildVideoPipeline plainFormat (fun _ => none) vaHost defaults {}
        (ascii "/dev/dri/renderD129") = some text ∧
      List.Forall₂ (List.Forall₂ (Fmt.Fills
          (argValue (videoArgs {} (ascii "/dev/dri/renderD129") vbv))))
        (Fmt.pieceChain true ps) (chain true text) := by
  have hmem : swH264 ∈ defaults.video.h264Encoders ++ defaults.video.hevcEncoders ++
      defaults.video.av1Encoders := @selectEncoder_mem vaHost defaults _ {} selectEncoder_vaHost
  obtain ⟨ps, hparse, hfixes⟩ := exists_of_checkNames
    (@checkNames_defaults (fun _ => none) swH264 hmem)
  obtain ⟨vbv, text, hvbv, htext, hchain⟩ := @forall₂_chain_buildVideoPipeline plainFormat
    (fun _ => none) vaHost defaults swH264 {} _ ps fillsNames_plainFormat selectEncoder_vaHost hparse
    hfixes.fields (by decide) isWord_renderD129 true
  exact ⟨ps, vbv, text, hparse, hvbv, htext, hchain⟩

end SteamStream.Media
