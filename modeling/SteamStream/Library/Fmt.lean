import SteamStream.Library.QuotedWords
import Mathlib.Data.List.Forall2

/-!
# Format strings

A format string holds replacement fields between braces, and doubled braces that stand for single
ones. `parse` cuts it into pieces, and `render` puts a text in the place of each field; whatever
braces that text holds, nobody looks at them again.

A format string may be the text of a little language itself. Where the texts put into it are words
without quotes, reading the words of the result is the same as reading those of the format string
and filling them in one by one (`forall₂_chain`): how many there are, and where they end, does not
depend on what is filled in.
-/

namespace Fmt

open Wire CText QuotedWords

/-! ### Pieces -/

/-- A piece of a format string. -/
inductive Piece
  | byte (c : UInt8)
  /-- A replacement field, by what stands between its braces. -/
  | field (content : Bytes)
  deriving DecidableEq, Repr

/-- Where in a format string one is. -/
inductive Place
  | text
  /-- After a brace that may be one of two, or open a field. -/
  | opened
  /-- After a brace that has to be one of two. -/
  | closed
  /-- In a field, after some of its content, in which a number of braces are open. -/
  | field (depth : ℕ) (content : Bytes)
  deriving DecidableEq, Repr

/-- Read one byte. -/
def Place.next : Place → UInt8 → Option (List Piece × Place)
  | text, c =>
    if c = 123 then some ([], opened)
    else if c = 125 then some ([], closed)
    else some ([.byte c], text)
  | opened, c =>
    if c = 123 then some ([.byte 123], text)
    else if c = 125 then some ([.field []], text)
    else some ([], field 0 [c])
  | closed, c => if c = 125 then some ([.byte 125], text) else none
  | field depth content, c =>
    if c = 123 then some ([], field (depth + 1) (content ++ [c]))
    else if c = 125 then
      match depth with
      | 0 => some ([.field content], text)
      | depth + 1 => some ([], field depth (content ++ [c]))
    else some ([], field depth (content ++ [c]))

/-- The pieces of what is left of a format string; `none` where braces do not match. -/
def parseFrom : Place → Bytes → Option (List Piece)
  | place, [] => if place = .text then some [] else none
  | place, c :: rest => (place.next c).bind fun r => (parseFrom r.2 rest).map (r.1 ++ ·)

/-- The pieces of a format string. -/
def parse (text : Bytes) : Option (List Piece) := parseFrom .text text

/-- The text of a piece. -/
def Piece.render (value : Bytes → Option Bytes) : Piece → Option Bytes
  | .byte c => some [c]
  | .field content => value content

/-- The text of some pieces, one after another. -/
def renderPieces (value : Bytes → Option Bytes) : List Piece → Option Bytes
  | [] => some []
  | p :: ps => (p.render value).bind fun text => (renderPieces value ps).map (text ++ ·)

/-- `fmt::format`: `value` says what stands for a field, and `none` that there is nothing. -/
def render (value : Bytes → Option Bytes) (text : Bytes) : Option Bytes :=
  (parse text).bind (renderPieces value)

section Pieces

variable {value : Bytes → Option Bytes} {p : Piece} {ps qs : List Piece} {a b : Bytes}

theorem renderPieces_cons_eq_some :
    renderPieces value (p :: ps) = some a ↔
      ∃ t rest, p.render value = some t ∧ renderPieces value ps = some rest ∧ t ++ rest = a := by
  simp only [renderPieces, Option.bind_eq_some_iff, Option.map_eq_some_iff]
  exact ⟨fun ⟨t, ht, rest, hrest, hsum⟩ => ⟨t, rest, ht, hrest, hsum⟩,
    fun ⟨t, rest, ht, hrest, hsum⟩ => ⟨t, ht, rest, hrest, hsum⟩⟩

theorem renderPieces_append (ha : renderPieces value ps = some a)
    (hb : renderPieces value qs = some b) : renderPieces value (ps ++ qs) = some (a ++ b) := by
  induction ps generalizing a with
  | nil =>
    obtain rfl : [] = a := Option.some.inj ha
    exact hb
  | cons p ps ih =>
    obtain ⟨t, rest, ht, hrest, rfl⟩ := renderPieces_cons_eq_some.mp ha
    rw [List.cons_append, List.append_assoc]
    exact renderPieces_cons_eq_some.mpr ⟨t, rest ++ b, ht, ih hrest, rfl⟩

theorem renderPieces_singleton (h : p.render value = some a) :
    renderPieces value [p] = some a :=
  renderPieces_cons_eq_some.mpr ⟨a, [], h, rfl, List.append_nil a⟩

/-- Some pieces have a text exactly if each of them has one. -/
theorem isSome_renderPieces :
    (renderPieces value ps).isSome = true ↔ ∀ p ∈ ps, (p.render value).isSome = true := by
  induction ps with
  | nil => exact iff_of_true rfl (fun _ h => absurd h List.not_mem_nil)
  | cons p ps ih =>
    rw [renderPieces, List.forall_mem_cons, ← ih]
    cases p.render value <;> cases renderPieces value ps <;> simp

end Pieces

/-! ### Words of format strings -/

/-- What has been read of some pieces, as `Scan`. -/
structure PieceScan where
  mode : Mode := .plain
  word : List Piece := []
  element : List (List Piece) := []
  elements : List (List (List Piece)) := []
  deriving DecidableEq, Repr

namespace PieceScan

def endWord (s : PieceScan) : PieceScan :=
  if s.word = [] then s else { s with word := [], element := s.element ++ [s.word] }

def endElement (s : PieceScan) : PieceScan :=
  { s.endWord with element := [], elements := s.endWord.elements ++ [s.endWord.element] }

/-- Read one piece. A field is part of a word. -/
def feed (escapes : Bool) (s : PieceScan) : Piece → PieceScan
  | .byte c =>
    if s.mode = .plain ∧ c = 33 then s.endElement
    else if s.mode = .plain ∧ isSpace c then s.endWord
    else { s with mode := s.mode.next escapes c, word := s.word ++ [.byte c] }
  | .field content =>
    { s with
      mode := if s.mode = .escaped then .quoted else s.mode
      word := s.word ++ [.field content] }

def read (escapes : Bool) (s : PieceScan) (ps : List Piece) : PieceScan := ps.foldl (feed escapes) s

end PieceScan

/-- The elements of some pieces, each as its words. -/
def pieceChain (escapes : Bool) (ps : List Piece) : List (List (List Piece)) :=
  ((({} : PieceScan).read escapes ps).endElement).elements

/-- The text is a word that neither ends nor begins anything. -/
def IsWord (text : Bytes) : Prop := text ≠ [] ∧ ∀ c ∈ text, isWordByte c = true ∧ c ≠ 92

instance (text : Bytes) : Decidable (IsWord text) := inferInstanceAs (Decidable (_ ∧ _))

/-- A word of a format string and what it has become. -/
structure Fills (value : Bytes → Option Bytes) (w : List Piece) (text : Bytes) : Prop where
  render : renderPieces value w = some text
  nil : w = [] ↔ text = []

/-- Every field is filled in with a word. -/
def FillsWords (value : Bytes → Option Bytes) (ps : List Piece) : Prop :=
  ∀ content, .field content ∈ ps → ∃ text, value content = some text ∧ IsWord text

/-- What has been read of the pieces, and of the text they have become. -/
structure Matches (value : Bytes → Option Bytes) (s : PieceScan) (t : Scan) : Prop where
  mode : s.mode = t.mode
  word : Fills value s.word t.word
  element : List.Forall₂ (Fills value) s.element t.element
  elements : List.Forall₂ (List.Forall₂ (Fills value)) s.elements t.elements

section Words

variable {escapes : Bool} {value : Bytes → Option Bytes} {s : PieceScan} {t : Scan}
  {w : List Piece} {p : Piece} {ps : List Piece} {text v : Bytes}

theorem fills_nil : Fills value [] [] := ⟨rfl, iff_of_true rfl rfl⟩

theorem Fills.concat (h : Fills value w text) (hp : p.render value = some v) (hv : v ≠ []) :
    Fills value (w ++ [p]) (text ++ v) where
  render := renderPieces_append h.render (renderPieces_singleton hp)
  nil := iff_of_false (List.append_ne_nil_of_right_ne_nil _ (List.cons_ne_nil p []))
    (List.append_ne_nil_of_right_ne_nil _ hv)

theorem Matches.endWord (h : Matches value s t) : Matches value s.endWord t.endWord := by
  rw [PieceScan.endWord, Scan.endWord]
  by_cases hw : s.word = []
  · rw [if_pos hw, if_pos (h.word.nil.mp hw)]
    exact h
  · rw [if_neg hw, if_neg (mt h.word.nil.mpr hw)]
    exact ⟨h.mode, fills_nil, List.rel_append h.element (.cons h.word .nil), h.elements⟩

theorem Matches.endElement (h : Matches value s t) : Matches value s.endElement t.endElement :=
  ⟨h.endWord.mode, h.endWord.word, .nil,
    List.rel_append h.endWord.elements (.cons h.endWord.element .nil)⟩

/-- A word is taken in whole, wherever it stands. -/
theorem Scan.read_isWord (hv : IsWord v) : t.read escapes v =
    { t with mode := if t.mode = .escaped then .quoted else t.mode, word := t.word ++ v } := by
  obtain ⟨hne, hbytes⟩ := hv
  have hbody : ∀ c ∈ v, c ≠ 34 ∧ c ≠ 92 := by
    intro c hc
    obtain ⟨hword, hslash⟩ := hbytes c hc
    refine ⟨?_, hslash⟩
    rintro rfl
    exact absurd hword (by decide)
  obtain ⟨mode, word, element, elements⟩ := t
  cases mode with
  | plain =>
    exact Scan.read_plain rfl (List.all_eq_true.mpr fun c hc => (hbytes c hc).1)
  | quoted => exact Scan.read_body rfl (isBody_of_forall hbody)
  | escaped =>
    obtain ⟨c, v, rfl⟩ := List.exists_cons_of_ne_nil hne
    rw [Scan.read_cons, Scan.feed_of_ne_plain Mode.noConfusion,
      Scan.read_body rfl (isBody_of_forall (List.forall_mem_cons.mp hbody).2), List.append_assoc]
    rfl

theorem Matches.feed (h : Matches value s t) (hp : p.render value = some v)
    (hword : ∀ content, p = .field content → IsWord v) :
    Matches value (s.feed escapes p) (t.read escapes v) := by
  cases p with
  | byte c =>
    obtain rfl : [c] = v := Option.some.inj hp
    rw [Scan.read_cons, PieceScan.feed, Scan.feed, h.mode]
    split_ifs
    · exact h.endElement
    · exact h.endWord
    · exact ⟨rfl, h.word.concat rfl (List.cons_ne_nil c []), h.element, h.elements⟩
  | field content =>
    have hv := hword content rfl
    rw [Scan.read_isWord hv, PieceScan.feed, h.mode]
    exact ⟨rfl, h.word.concat hp hv.1, h.element, h.elements⟩

theorem Matches.read (h : Matches value s t) (hfills : FillsWords value ps)
    (hps : renderPieces value ps = some text) :
    Matches value (s.read escapes ps) (t.read escapes text) := by
  induction ps generalizing s t text with
  | nil =>
    obtain rfl : [] = text := Option.some.inj hps
    exact h
  | cons p ps ih =>
    obtain ⟨v, rest, hv, hrest, rfl⟩ := renderPieces_cons_eq_some.mp hps
    rw [Scan.read_append]
    refine ih (h.feed hv ?_) (fun content hmem => hfills content (List.mem_cons_of_mem _ hmem))
      hrest
    rintro content rfl
    obtain ⟨v', hv', hword⟩ := hfills content List.mem_cons_self
    rwa [Option.some.inj (hv.symm.trans hv')]

/-- **Filling in and reading commute.** -/
theorem forall₂_chain (hfills : FillsWords value ps) (hps : renderPieces value ps = some text) :
    List.Forall₂ (List.Forall₂ (Fills value)) (pieceChain escapes ps) (chain escapes text) := by
  have hstart : Matches value {} {} := ⟨rfl, fills_nil, .nil, .nil⟩
  exact (hstart.read hfills hps).endElement.elements

/-- Where there is no backslash, it does not matter what one would do. -/
theorem pieceChain_congr {escapes' : Bool} (h : .byte 92 ∉ ps) :
    pieceChain escapes ps = pieceChain escapes' ps := by
  have hnext : ∀ (m : Mode) (c : UInt8), c ≠ 92 → m.next escapes c = m.next escapes' c := by
    intro m c hc
    cases m <;> simp [Mode.next, hc]
  have hfeed : ∀ (s : PieceScan) (p : Piece), p ≠ .byte 92 →
      s.feed escapes p = s.feed escapes' p := by
    intro s p hp
    cases p with
    | byte c => rw [PieceScan.feed, PieceScan.feed, hnext s.mode c fun hc => hp (hc ▸ rfl)]
    | field content => rfl
  have hread : ∀ s : PieceScan, s.read escapes ps = s.read escapes' ps := by
    induction ps with
    | nil => exact fun s => rfl
    | cons p ps ih =>
      intro s
      obtain ⟨hp, hps⟩ := not_or.mp (mt List.mem_cons.mpr h)
      change (s.feed escapes p).read escapes ps = (s.feed escapes' p).read escapes' ps
      rw [hfeed s p (Ne.symm hp), ih hps]
  rw [pieceChain, pieceChain, hread]

/-! ### Beginnings -/

/-- What a word begins with, whatever is filled in. -/
def lead : List Piece → Bytes
  | .byte c :: w => c :: lead w
  | _ => []

/-- The word has no field. -/
def IsLiteral (w : List Piece) : Prop := w = (lead w).map .byte

instance (w : List Piece) : Decidable (IsLiteral w) := inferInstanceAs (Decidable (_ = _))

theorem lead_prefix_render (h : renderPieces value w = some text) : lead w <+: text := by
  induction w generalizing text with
  | nil => exact List.nil_prefix
  | cons p w ih =>
    obtain ⟨t, rest, ht, hrest, rfl⟩ := renderPieces_cons_eq_some.mp h
    cases p with
    | byte c =>
      obtain rfl : [c] = t := Option.some.inj ht
      exact (List.prefix_cons_inj c).mpr (ih hrest)
    | field content => exact List.nil_prefix

theorem renderPieces_map_byte : renderPieces value (text.map .byte) = some text := by
  induction text with
  | nil => rfl
  | cons c text ih => exact renderPieces_cons_eq_some.mpr ⟨[c], text, rfl, ih, rfl⟩

theorem eq_lead (hw : IsLiteral w) (h : renderPieces value w = some text) : text = lead w := by
  rw [hw, renderPieces_map_byte] at h
  exact (Option.some.inj h).symm

/-- What is long enough decides whether a word begins with it. -/
theorem beginsWith_iff_of_lead {before : Bytes} (hlength : before.length ≤ (lead w).length)
    (h : renderPieces value w = some text) : before <+: text ↔ before <+: lead w := by
  constructor
  · intro hbefore
    exact List.prefix_of_prefix_length_le hbefore (lead_prefix_render h) hlength
  · intro hbefore
    exact hbefore.trans (lead_prefix_render h)

end Words

end Fmt
