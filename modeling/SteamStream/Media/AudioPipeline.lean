import SteamStream.Library.QuotedWords
import SteamStream.Session.Registry

/-!
# The description of the audio pipeline

`build_audio_pipeline` writes the key and the initialisation vector of the client into the text
that GStreamer makes the pipeline from, between double quotes and otherwise as they are. Nothing
has looked at them before: `/launch` and `/resume` take any text that is not empty.

They stay what they are, two values, exactly if neither holds a quote and the configured parts of
the text before them leave no quote open (`audioKeysInert_iff`); where a backslash takes the next
byte with it, a quote after one does no harm, but a backslash at the end does.
-/

namespace SteamStream.Media

open QuotedWords Session Wire CText

/-! ### The description -/

/-- `GstAudioCfg`. -/
structure GstAudioCfg where
  sinkName : Bytes
  defaultSource : Bytes
  defaultOpusEncoder : Bytes
  bitrateStereo : ℤ := 96000
  bitrate51 : ℤ := 256000
  bitrate71 : ℤ := 450000

def GstAudioCfg.bitrateForChannels (a : GstAudioCfg) (channels : ℤ) : ℤ :=
  if channels = 6 then a.bitrate51 else if channels = 8 then a.bitrate71 else a.bitrateStereo

/-- `channel_mask`. -/
def channelMask (ch : ℤ) : Bytes :=
  if ch = 2 then ascii "0x3" else if ch = 6 then ascii "0x3f" else if ch = 8 then ascii "0xc3f"
  else ascii "0x3"

/-- An argument of `fmt::format`. -/
inductive FmtArg
  | text (value : Bytes)
  | int (value : ℤ)

/-- `fmt::format` with a format string of the configuration; it throws on one that is malformed. -/
abbrev RuntimeFormat := Bytes → List (String × FmtArg) → Option Bytes

/-- An `int` in decimal. -/
def formatInt (n : ℤ) : Bytes := sign (n < 0) ++ toDecimal n.natAbs

section Description

variable (format : RuntimeFormat) (a : GstAudioCfg) (pulseServer : Option Bytes)
  (useTestSrc : Bool) (src enc : Bytes) (s : StreamSession)

/-- `src`. -/
def audioSource : Option Bytes :=
  if useTestSrc then
    some (ascii "audiotestsrc is-live=true wave=sine ! audiorate ! audioconvert ! audioresample")
  else
    format a.defaultSource
      [("sink_name", .text a.sinkName), ("server", .text (pulseServer.getD []))]

/-- `enc`. -/
def opusEncoder : Option Bytes :=
  format a.defaultOpusEncoder [("bitrate", .int (a.bitrateForChannels s.audio.channels)),
    ("packet_duration", .int s.audio.packetDuration)]

/-- The elements up to the encoder. -/
def captureText : Bytes :=
  src ++ ascii " ! audio/x-raw,channels=" ++ formatInt s.audio.channels ++
    ascii ",channel-mask=(bitmask)" ++ channelMask s.audio.channels ++ ascii ",rate=48000 ! " ++ enc

/-- The payloader, up to its key. -/
def payloaderText : Bytes :=
  ascii " ! rtpmoonlightpay_audio name=moonlight_pay packet_duration=" ++
    formatInt s.audio.packetDuration ++ ascii " encrypt=" ++
    (if s.audio.encrypt then ascii "true" else ascii "false")

/-- The description up to the opening quote of the key, and of the initialisation vector. -/
def upToKey : Bytes := captureText src enc s ++ payloaderText s ++ ascii " aes_key=\""

def upToIv : Bytes := upToKey src enc s ++ s.aesKey ++ ascii "\" aes_iv=\""

/-- The description, from its two configured parts. -/
def describeAudio : Bytes :=
  upToIv src enc s ++ s.aesIv ++ ascii "\" ! appsink name=audio_sink sync=false"

/-- `build_audio_pipeline`. -/
def buildAudioPipeline : Option Bytes := do
  let src ← audioSource format a pulseServer useTestSrc
  let enc ← opusEncoder format a s
  return describeAudio src enc s

end Description

/-! ### Keys as values -/

/-- The two properties, as they stand in the description. -/
def keyWords (key iv : Bytes) : List Bytes :=
  [ascii "aes_key=\"" ++ key ++ [34], ascii "aes_iv=\"" ++ iv ++ [34]]

def isHexDigit (c : UInt8) : Bool := isDigit c || (65 ≤ c && c ≤ 70) || (97 ≤ c && c ≤ 102)

/-- The keys of the session are two values of the description, which is otherwise the one that
hexadecimal keys give. -/
structure KeysInert (escapes : Bool) (src enc : Bytes) (s : StreamSession) : Prop where
  key : EndsWithin escapes (upToKey src enc s) s.aesKey
  iv : EndsWithin escapes (upToIv src enc s) s.aesIv
  chain : ∃ before words after,
    (∀ key iv, key.all isHexDigit → iv.all isHexDigit →
      chain escapes (describeAudio src enc { s with aesKey := key, aesIv := iv }) =
        before ++ (words ++ keyWords key iv) :: after) ∧
    chain escapes (describeAudio src enc s) =
      before ++ (words ++ keyWords s.aesKey s.aesIv) :: after

/-- The configured parts of the description leave no quote open. -/
def ClosesQuotes (escapes : Bool) (src enc : Bytes) (s : StreamSession) : Prop :=
  Mode.after escapes .plain (captureText src enc s) = .plain

section Quotes

variable {escapes : Bool} {src enc : Bytes} {s : StreamSession}

private theorem not_special_formatInt {n : ℤ} : ∀ c ∈ formatInt n, c ≠ 34 ∧ c ≠ 92 := by
  intro c hc
  rcases List.mem_append.mp hc with hsign | hdigit
  · rw [sign] at hsign
    split_ifs at hsign
    · rw [List.mem_singleton.mp hsign]
      decide
    · cases hsign
  · have hdigit := isDigit_of_mem_toDecimal hdigit
    exact ⟨fun h => absurd (h ▸ hdigit) (by decide), fun h => absurd (h ▸ hdigit) (by decide)⟩

/-- The payloader has neither quotes nor backslashes, its numbers being in decimal. -/
theorem not_special_payloaderText : ∀ c ∈ payloaderText s, c ≠ 34 ∧ c ≠ 92 := by
  have hname : ∀ c ∈ ascii " ! rtpmoonlightpay_audio name=moonlight_pay packet_duration=",
      c ≠ 34 ∧ c ≠ 92 := by decide +kernel
  have hencrypt : ∀ c ∈ ascii " encrypt=", c ≠ 34 ∧ c ≠ 92 := by decide +kernel
  have hflag : ∀ c ∈ (if s.audio.encrypt then ascii "true" else ascii "false"),
      c ≠ 34 ∧ c ≠ 92 := by
    split_ifs <;> decide +kernel
  intro c hc
  simp only [payloaderText, List.mem_append] at hc
  rcases hc with ((hc | hc) | hc) | hc
  · exact hname c hc
  · exact not_special_formatInt c hc
  · exact hencrypt c hc
  · exact hflag c hc

/-- The quote in front of the key opens a quoted part if none is open there, and closes one
otherwise. -/
theorem after_upToKey :
    Mode.after escapes .plain (upToKey src enc s) =
      if Mode.after escapes .plain (captureText src enc s) = .plain then .quoted else .plain := by
  rw [upToKey, Mode.after_append, Mode.after_append]
  generalize Mode.after escapes .plain (captureText src enc s) = m
  have hkeep : ∀ m : Mode, m ≠ .escaped → m.after escapes (payloaderText s) = m :=
    fun m hm => Mode.after_eq_of_forall hm not_special_payloaderText
  cases m with
  | plain =>
    rw [hkeep .plain Mode.noConfusion]
    rfl
  | quoted =>
    rw [hkeep .quoted Mode.noConfusion]
    cases escapes <;> rfl
  | escaped =>
    -- the blank in front of the payloader is what the backslash takes
    have hblank : payloaderText s = 32 :: (payloaderText s).tail := rfl
    have htail : ∀ c ∈ (payloaderText s).tail, c ≠ 34 ∧ c ≠ 92 :=
      fun c hc => not_special_payloaderText c (List.mem_of_mem_tail hc)
    rw [hblank, Mode.after_cons, Mode.next, Mode.after_eq_of_forall Mode.noConfusion htail]
    cases escapes <;> rfl

theorem after_upToIv (h : ClosesQuotes escapes src enc s) (hkey : IsBody escapes s.aesKey = true) :
    Mode.after escapes .plain (upToIv src enc s) = .quoted := by
  rw [ClosesQuotes] at h
  rw [upToIv, Mode.after_append, Mode.after_append, after_upToKey, if_pos h,
    (isBody_iff.mp hkey).2]
  rfl

/-- The values end where the keys do exactly if they can be put between quotes. -/
theorem endsWithin_keys_iff :
    EndsWithin escapes (upToKey src enc s) s.aesKey ∧
        EndsWithin escapes (upToIv src enc s) s.aesIv ↔
      ClosesQuotes escapes src enc s ∧ IsBody escapes s.aesKey = true ∧
        IsBody escapes s.aesIv = true := by
  have hmode : Mode.after escapes .plain (upToKey src enc s) = .quoted ↔
      ClosesQuotes escapes src enc s := by
    rw [after_upToKey, ClosesQuotes]
    split_ifs with h
    · exact iff_of_true rfl h
    · exact iff_of_false not_false h
  have hkey : EndsWithin escapes (upToKey src enc s) s.aesKey ↔
      ClosesQuotes escapes src enc s ∧ IsBody escapes s.aesKey = true := by
    rw [endsWithin_iff, hmode]
    rw [after_upToKey]
    split_ifs <;> exact Mode.noConfusion
  rw [hkey, and_assoc]
  refine and_congr_right fun hcloses => and_congr_right fun hbody => ?_
  have hafter := after_upToIv hcloses hbody
  rw [endsWithin_iff (by rw [hafter]; exact Mode.noConfusion)]
  exact and_iff_right hafter

end Quotes

/-! ### Reading the description -/

section Chain

variable {escapes : Bool} {src enc : Bytes} {s : StreamSession} {st : Scan}

/-- The name of a property and the quote that opens its value. -/
theorem read_open {name : Bytes} (h : st.mode = .plain) (hword : st.word = [])
    (hname : name.all isWordByte = true) :
    st.read escapes (name ++ [34]) = { st with mode := .quoted, word := name ++ [34] } := by
  have hplain : ({ st with word := name } : Scan).mode = .plain := h
  rw [Scan.read_append, Scan.read_plain h hname, hword, List.nil_append, Scan.read_cons,
    Scan.feed_quote hplain]
  rfl

/-- The closing quote ends the value, and the blank after it the word. -/
theorem read_close (h : st.mode = .quoted) :
    st.read escapes [34, 32] = ⟨.plain, [], st.element ++ [st.word ++ [34]], st.elements⟩ := by
  have hopen : st.mode ≠ .plain := by
    rw [h]
    exact Mode.noConfusion
  have hplain : st.mode.next escapes 34 = .plain := by
    rw [h]
    rfl
  have hword : st.word ++ [34] ≠ [] := List.append_ne_nil_of_right_ne_nil _ (List.cons_ne_nil 34 [])
  rw [Scan.read_cons, Scan.feed_of_ne_plain hopen, Scan.read_cons, Scan.feed_space hplain,
    Scan.endWord, if_neg hword, hplain]
  rfl

/-- The last element of the description, read after the blank in front of its separator. -/
theorem endElement_read_appsink (h : st.mode = .plain) (hword : st.word = []) :
    ((st.read escapes (ascii "! appsink name=audio_sink sync=false")).endElement).elements =
      st.elements ++ [st.element, [ascii "appsink", ascii "name=audio_sink", ascii "sync=false"]] := by
  have htext : ascii "! appsink name=audio_sink sync=false" =
      33 :: 32 :: (ascii "appsink" ++ [32] ++ (ascii "name=audio_sink" ++ [32] ++
        ascii "sync=false")) := rfl
  obtain ⟨mode, word, element, elements⟩ := st
  obtain rfl : mode = .plain := h
  obtain rfl : word = [] := hword
  have hbang : Scan.endElement ⟨.plain, [], element, elements⟩ =
      ⟨.plain, [], [], elements ++ [element]⟩ := rfl
  rw [htext, Scan.read_cons, Scan.feed_bang rfl, hbang, Scan.read_cons, Scan.feed_space rfl]
  rw [Scan.read_append, Scan.read_word rfl rfl (by decide) rfl, Scan.read_append,
    Scan.read_word rfl rfl (by decide) rfl, Scan.read_plain rfl rfl]
  simp [Scan.endElement, Scan.endWord, show ascii "sync=false" ≠ [] by decide]

/-- What has been read when the first of the two properties begins. -/
def beforeKeys (escapes : Bool) (src enc : Bytes) (s : StreamSession) : Scan :=
  (({} : Scan).read escapes (captureText src enc s ++ payloaderText s)).endWord

/-- The elements of a description whose keys can be put between quotes. -/
theorem chain_describeAudio (hcloses : ClosesQuotes escapes src enc s)
    (hkey : IsBody escapes s.aesKey = true) (hiv : IsBody escapes s.aesIv = true) :
    chain escapes (describeAudio src enc s) =
      (beforeKeys escapes src enc s).elements ++
        ((beforeKeys escapes src enc s).element ++ keyWords s.aesKey s.aesIv) ::
          [[ascii "appsink", ascii "name=audio_sink", ascii "sync=false"]] := by
  have hplain : (({} : Scan).read escapes (captureText src enc s ++ payloaderText s)).mode =
      .plain := by
    rw [Scan.mode_read, Mode.after_append]
    exact (congrArg (Mode.after escapes · (payloaderText s)) hcloses).trans
      (Mode.after_eq_of_forall Mode.noConfusion not_special_payloaderText)
  have hpieces : describeAudio src enc s = captureText src enc s ++ payloaderText s ++
      32 :: (ascii "aes_key=" ++ [34] ++ (s.aesKey ++ ([34, 32] ++ (ascii "aes_iv=" ++ [34] ++
        (s.aesIv ++ ([34, 32] ++ ascii "! appsink name=audio_sink sync=false")))))) := by
    have hkey : ascii " aes_key=\"" = 32 :: (ascii "aes_key=" ++ [34]) := rfl
    have hiv : ascii "\" aes_iv=\"" = [34, 32] ++ (ascii "aes_iv=" ++ [34]) := rfl
    have hend : ascii "\" ! appsink name=audio_sink sync=false" =
        [34, 32] ++ ascii "! appsink name=audio_sink sync=false" := rfl
    simp only [describeAudio, upToIv, upToKey, hkey, hiv, hend, List.append_assoc,
      List.cons_append]
  obtain ⟨element, elements, hbefore⟩ : ∃ element elements,
      beforeKeys escapes src enc s = ⟨.plain, [], element, elements⟩ :=
    ⟨_, _, Scan.ext (Scan.mode_endWord.trans hplain) Scan.word_endWord rfl rfl⟩
  rw [chain, hpieces, Scan.read_append, Scan.read_cons, Scan.feed_space hplain]
  change (Scan.endElement (Scan.read escapes (beforeKeys escapes src enc s) _)).elements = _
  rw [hbefore, Scan.read_append, read_open rfl rfl rfl, Scan.read_append,
    Scan.read_body rfl hkey, Scan.read_append, read_close rfl, Scan.read_append,
    read_open rfl rfl rfl, Scan.read_append, Scan.read_body rfl hiv, Scan.read_append,
    read_close rfl, endElement_read_appsink rfl rfl]
  have hkeyName : ascii "aes_key=\"" = ascii "aes_key=" ++ [34] := rfl
  have hivName : ascii "aes_iv=\"" = ascii "aes_iv=" ++ [34] := rfl
  simp only [keyWords, hkeyName, hivName, List.append_assoc, List.cons_append, List.nil_append]

end Chain

/-- The keys stay what they are in a description exactly if its configured parts leave no quote
open and both keys can be put between quotes. -/
theorem keysInert_iff {escapes : Bool} {src enc : Bytes} {s : StreamSession} :
    KeysInert escapes src enc s ↔
      ClosesQuotes escapes src enc s ∧ IsBody escapes s.aesKey = true ∧
        IsBody escapes s.aesIv = true := by
  constructor
  · intro h
    exact endsWithin_keys_iff.mp ⟨h.key, h.iv⟩
  · rintro ⟨hcloses, hkey, hiv⟩
    have hhex : ∀ text : Bytes, text.all isHexDigit = true → IsBody escapes text = true := by
      intro text htext
      refine isBody_of_forall fun c hc => ?_
      have hc := List.all_eq_true.mp htext c hc
      exact ⟨fun h => absurd (h ▸ hc) (by decide), fun h => absurd (h ▸ hc) (by decide)⟩
    obtain ⟨hkeyEnds, hivEnds⟩ := endsWithin_keys_iff.mpr ⟨hcloses, hkey, hiv⟩
    refine ⟨hkeyEnds, hivEnds, _, _, _, fun key iv hkey' hiv' => ?_,
      chain_describeAudio hcloses hkey hiv⟩
    exact @chain_describeAudio escapes src enc { s with aesKey := key, aesIv := iv } hcloses
      (hhex key hkey') (hhex iv hiv')

section Pipeline

variable (escapes : Bool) (format : RuntimeFormat) (a : GstAudioCfg) (pulseServer : Option Bytes)
  (useTestSrc : Bool) (s : StreamSession)

/-- The keys of the session stay what they are in the description of its audio pipeline. -/
def AudioKeysInert : Prop :=
  ∀ src enc, audioSource format a pulseServer useTestSrc = some src →
    opusEncoder format a s = some enc →
    buildAudioPipeline format a pulseServer useTestSrc s = some (describeAudio src enc s) ∧
      KeysInert escapes src enc s

/-- **Session keys cannot alter the audio pipeline** exactly if they can be put between quotes and
the configured parts of the pipeline leave none open. -/
theorem audioKeysInert_iff :
    AudioKeysInert escapes format a pulseServer useTestSrc s ↔
      ∀ src enc, audioSource format a pulseServer useTestSrc = some src →
        opusEncoder format a s = some enc →
        ClosesQuotes escapes src enc s ∧ IsBody escapes s.aesKey = true ∧
          IsBody escapes s.aesIv = true := by
  refine forall₂_congr fun src enc => forall₂_congr fun hsrc henc => ?_
  rw [keysInert_iff, buildAudioPipeline, hsrc, henc]
  exact and_iff_right rfl

end Pipeline

/-- A configuration whose encoder has nothing to fill in. -/
def plainAudioCfg : GstAudioCfg where
  sinkName := ascii "steam-stream"
  defaultSource := []
  defaultOpusEncoder := ascii "opusenc"

/-- `x" encrypt=false y="` as the key of a client. -/
def quotingSession : StreamSession where
  aesKey := ascii "x\" encrypt=false y=\""
  aesIv := ascii "1"

/-- The value of the key ends at the quote, and what follows is a property of the client's. -/
theorem not_audioKeysInert_quotingSession :
    ¬ AudioKeysInert true (fun text _ => some text) plainAudioCfg none true quotingSession := by
  intro h
  have hkey := (h _ _ rfl rfl).2.key.1 2 (by decide)
  exact hkey (by decide +kernel)

end SteamStream.Media
