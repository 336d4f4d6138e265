import SteamStream.Library.CText

/-!
# Words with quoted parts

A little language of command lines: elements are separated by `!`, their words by blanks, and
between double quotes neither separates anything. In some of these languages a backslash between
quotes takes the next byte with it, so that a quote can stand in a quoted part; `escapes` says
whether it does.

Reading a text is a fold over its bytes (`Scan.read`), so that a text can be cut anywhere. A text
that can be put between quotes as it is (`IsBody`) is taken into the word whole (`read_body`), and
no other text ends where the quotes end (`endsWithin_iff`).
-/

namespace QuotedWords

open Wire CText

/-- Whether the bytes read so far leave a quoted part open. -/
inductive Mode
  | plain
  | quoted
  /-- After a backslash in a quoted part. -/
  | escaped
  deriving DecidableEq, Repr

variable (escapes : Bool)

def Mode.next : Mode → UInt8 → Mode
  | plain, c => if c = 34 then quoted else plain
  | quoted, c => if c = 34 then plain else if escapes && c = 92 then escaped else quoted
  | escaped, _ => quoted

/-- The mode after a text. -/
def Mode.after (m : Mode) (text : Bytes) : Mode := text.foldl (Mode.next escapes) m

/-! ### Reading -/

/-- What has been read: the word and the element begun, and the elements before. -/
@[ext]
structure Scan where
  mode : Mode := .plain
  word : Bytes := []
  element : List Bytes := []
  elements : List (List Bytes) := []
  deriving DecidableEq, Repr

namespace Scan

def endWord (s : Scan) : Scan :=
  if s.word = [] then s else { s with word := [], element := s.element ++ [s.word] }

def endElement (s : Scan) : Scan :=
  { s.endWord with element := [], elements := s.endWord.elements ++ [s.endWord.element] }

/-- Read one byte. -/
def feed (s : Scan) (c : UInt8) : Scan :=
  if s.mode = .plain ∧ c = 33 then s.endElement
  else if s.mode = .plain ∧ isSpace c then s.endWord
  else { s with mode := s.mode.next escapes c, word := s.word ++ [c] }

def read (s : Scan) (text : Bytes) : Scan := text.foldl (feed escapes) s

end Scan

/-- The elements of a text, each as its words. -/
def chain (text : Bytes) : List (List Bytes) := ((({} : Scan).read escapes text).endElement).elements

/-- The byte is neither a separator nor a quote. -/
def isWordByte (c : UInt8) : Bool := !(c = 33 || isSpace c || c = 34)

/-- A text that can be put between quotes: it holds no quote that a backslash does not take with
it, and its last backslash takes a byte of its own. -/
def IsBody : Bytes → Bool
  | [] => true
  | c :: text =>
    if c = 34 then false
    else if escapes && c = 92 then
      match text with
      | [] => false
      | _ :: text => IsBody text
    else IsBody text

/-- The text never leaves the quoted part it is in. -/
def StaysOpen (m : Mode) (text : Bytes) : Prop :=
  ∀ n ≤ text.length, m.after escapes (text.take n) ≠ .plain

/-- A quoted value, put after a text that ends with its opening quote, ends where the value does
and not before. -/
def EndsWithin (before value : Bytes) : Prop :=
  StaysOpen escapes (Mode.after escapes .plain before) value ∧
    Mode.after escapes .plain (before ++ value ++ [34]) = .plain

variable {escapes}

/-! ### Modes -/

section Modes

variable {m : Mode} {c : UInt8} {text text' : Bytes}

theorem Mode.after_append :
    m.after escapes (text ++ text') = (m.after escapes text).after escapes text' :=
  List.foldl_append

theorem Mode.after_cons : m.after escapes (c :: text) = (m.next escapes c).after escapes text := rfl

theorem Mode.next_quoted_slash (h : (escapes && decide (c = 92)) = true) :
    Mode.next escapes .quoted c = .escaped := by
  have hc : c = 92 := of_decide_eq_true (Bool.and_eq_true_iff.mp h).2
  rw [Mode.next, if_pos h, hc]
  rfl

/-- A text without quotes and backslashes does not change the mode. -/
theorem Mode.after_eq_of_forall (hm : m ≠ .escaped) (h : ∀ c ∈ text, c ≠ 34 ∧ c ≠ 92) :
    m.after escapes text = m := by
  induction text with
  | nil => rfl
  | cons c text ih =>
    obtain ⟨⟨hquote, hslash⟩, htext⟩ := List.forall_mem_cons.mp h
    have hnext : m.next escapes c = m := by
      cases m with
      | plain => exact if_neg hquote
      | quoted => simp [Mode.next, hquote, hslash]
      | escaped => exact absurd rfl hm
    rw [Mode.after_cons, hnext, ih htext]

theorem staysOpen_nil : StaysOpen escapes m [] ↔ m ≠ .plain := by
  constructor
  · intro h
    exact h 0 le_rfl
  · intro h n _
    rwa [List.take_nil]

theorem staysOpen_cons :
    StaysOpen escapes m (c :: text) ↔ m ≠ .plain ∧ StaysOpen escapes (m.next escapes c) text := by
  constructor
  · intro h
    exact ⟨h 0 (Nat.zero_le _), fun n hn => h (n + 1) (Nat.succ_le_succ hn)⟩
  · rintro ⟨hm, htext⟩ n hn
    cases n with
    | zero => exact hm
    | succ n => exact htext n (Nat.le_of_succ_le_succ hn)

theorem StaysOpen.ne_plain (h : StaysOpen escapes m text) : m ≠ .plain :=
  h 0 (Nat.zero_le _)

/-- The bodies are the texts that leave the quotes open, all along and at the end. -/
theorem isBody_iff :
    IsBody escapes text = true ↔
      StaysOpen escapes .quoted text ∧ Mode.after escapes .quoted text = .quoted := by
  fun_induction IsBody escapes text with
  | case1 => exact iff_of_true rfl ⟨staysOpen_nil.mpr Mode.noConfusion, rfl⟩
  | case2 text =>
    refine iff_of_false Bool.false_ne_true fun h => ?_
    exact (staysOpen_cons.mp h.1).2.ne_plain rfl
  | case3 c hquote hslash =>
    refine iff_of_false Bool.false_ne_true fun h => ?_
    rw [Mode.after_cons, Mode.next_quoted_slash hslash] at h
    exact Mode.noConfusion h.2
  | case4 c hquote hslash d text ih =>
    rw [ih, staysOpen_cons, staysOpen_cons, Mode.after_cons, Mode.after_cons,
      Mode.next_quoted_slash hslash]
    simp [Mode.next]
  | case5 c text hquote hslash ih =>
    have hnext : Mode.next escapes .quoted c = .quoted := by simp [Mode.next, hquote, hslash]
    rw [ih, staysOpen_cons, Mode.after_cons, hnext]
    simp

/-- Only a body ends where the quotes around it end. -/
theorem endsWithin_iff {before value : Bytes}
    (hbefore : Mode.after escapes .plain before ≠ .escaped) :
    EndsWithin escapes before value ↔
      Mode.after escapes .plain before = .quoted ∧ IsBody escapes value = true := by
  have hclose : ∀ m : Mode, m ≠ .plain → (m.next escapes 34 = .plain ↔ m = .quoted) := by
    intro m hm
    cases m with
    | plain => exact absurd rfl hm
    | quoted => exact iff_of_true rfl rfl
    | escaped => exact iff_of_false Mode.noConfusion Mode.noConfusion
  rw [EndsWithin, Mode.after_append, Mode.after_append, Mode.after_cons]
  generalize Mode.after escapes .plain before = m at hbefore ⊢
  constructor
  · rintro ⟨hopen, hend⟩
    have hm : m = .quoted := by
      cases m with
      | plain => exact absurd rfl hopen.ne_plain
      | quoted => rfl
      | escaped => exact absurd rfl hbefore
    subst hm
    have hlast := hopen value.length le_rfl
    rw [List.take_length] at hlast
    exact ⟨rfl, isBody_iff.mpr ⟨hopen, (hclose _ hlast).mp hend⟩⟩
  · rintro ⟨rfl, hbody⟩
    obtain ⟨hopen, hend⟩ := isBody_iff.mp hbody
    refine ⟨hopen, ?_⟩
    rw [hend]
    rfl

/-- A text without quotes and backslashes is a body. -/
theorem isBody_of_forall (h : ∀ c ∈ text, c ≠ 34 ∧ c ≠ 92) : IsBody escapes text = true := by
  have hafter : ∀ n, Mode.after escapes .quoted (text.take n) = .quoted := fun n =>
    Mode.after_eq_of_forall Mode.noConfusion fun c hc => h c (List.mem_of_mem_take hc)
  refine isBody_iff.mpr ⟨fun n _ => ?_, Mode.after_eq_of_forall Mode.noConfusion h⟩
  rw [hafter]
  exact Mode.noConfusion

end Modes

/-! ### Words -/

section Words

variable {s : Scan} {c : UInt8} {text text' : Bytes}

theorem Scan.read_append :
    s.read escapes (text ++ text') = (s.read escapes text).read escapes text' :=
  List.foldl_append

theorem Scan.read_cons : s.read escapes (c :: text) = (s.feed escapes c).read escapes text := rfl

theorem Scan.feed_of_ne_plain (h : s.mode ≠ .plain) :
    s.feed escapes c = { s with mode := s.mode.next escapes c, word := s.word ++ [c] } := by
  rw [feed, if_neg fun hc => h hc.1, if_neg fun hc => h hc.1]

@[simp]
theorem Scan.mode_endWord : s.endWord.mode = s.mode := by
  rw [endWord]
  split_ifs <;> rfl

@[simp]
theorem Scan.word_endWord : s.endWord.word = [] := by
  rw [endWord]
  split_ifs with hword
  · exact hword
  · rfl

/-- Reading keeps track of the mode, which the separators do not change. -/
theorem Scan.mode_read : (s.read escapes text).mode = s.mode.after escapes text := by
  induction text generalizing s with
  | nil => rfl
  | cons c text ih =>
    have hfeed : (s.feed escapes c).mode = s.mode.next escapes c := by
      rw [feed]
      split_ifs with hbang hspace
      · obtain ⟨hplain, rfl⟩ := hbang
        rw [hplain]
        exact mode_endWord.trans hplain
      · obtain ⟨hplain, hc⟩ := hspace
        have hquote : c ≠ 34 := fun h => absurd (h ▸ hc) (by decide)
        rw [hplain]
        exact (mode_endWord.trans hplain).trans (if_neg hquote).symm
      · rfl
    rw [read_cons, ih, hfeed, Mode.after_cons]

/-- What leaves a quoted part open is taken into the word. -/
theorem Scan.read_of_staysOpen (h : StaysOpen escapes s.mode text) :
    s.read escapes text =
      { s with mode := s.mode.after escapes text, word := s.word ++ text } := by
  induction text generalizing s with
  | nil => rw [List.append_nil]; rfl
  | cons c text ih =>
    obtain ⟨hmode, htext⟩ := staysOpen_cons.mp h
    rw [read_cons, feed_of_ne_plain hmode, ih htext, List.append_assoc, List.singleton_append]
    rfl

/-- A body is taken into the word. -/
theorem Scan.read_body (hs : s.mode = .quoted) (h : IsBody escapes text = true) :
    s.read escapes text = { s with word := s.word ++ text } := by
  obtain ⟨hopen, hend⟩ := isBody_iff.mp h
  rw [read_of_staysOpen (by rwa [hs]), hs, hend, ← hs]

theorem Scan.feed_quote (h : s.mode = .plain) :
    s.feed escapes 34 = { s with mode := .quoted, word := s.word ++ [34] } := by
  have hspace : ¬ isSpace 34 = true := by decide
  rw [feed, if_neg fun hc => absurd hc.2 (by decide), if_neg fun hc => hspace hc.2, h]
  rfl

theorem Scan.feed_bang (h : s.mode = .plain) : s.feed escapes 33 = s.endElement := by
  rw [feed, if_pos ⟨h, rfl⟩]

theorem Scan.feed_space (h : s.mode = .plain) : s.feed escapes 32 = s.endWord := by
  rw [feed, if_neg fun hc => absurd hc.2 (by decide), if_pos ⟨h, rfl⟩]

/-- What holds neither separators nor quotes is taken into the word as well. -/
theorem Scan.read_plain (h : s.mode = .plain)
    (htext : text.all isWordByte = true) :
    s.read escapes text = { s with word := s.word ++ text } := by
  induction text generalizing s with
  | nil => rw [List.append_nil]; rfl
  | cons c text ih =>
    rw [List.all_cons, Bool.and_eq_true_iff] at htext
    obtain ⟨hc, htext⟩ := htext
    simp only [isWordByte, Bool.not_eq_true', Bool.or_eq_false_iff, decide_eq_false_iff_not] at hc
    obtain ⟨⟨hbang, hspace⟩, hquote⟩ := hc
    have hfeed : s.feed escapes c = { s with word := s.word ++ [c] } := by
      have hspace' : ¬ (s.mode = .plain ∧ isSpace c = true) := by simp [hspace]
      rw [feed, if_neg fun hc => hbang hc.2, if_neg hspace', h, Mode.next, if_neg hquote, ← h]
    have hrest := @ih { s with word := s.word ++ [c] } h htext
    rw [read_cons, hfeed, hrest, List.append_assoc, List.singleton_append]

/-- A word that is followed by a blank. -/
theorem Scan.read_word (h : s.mode = .plain) (hword : s.word = []) (hne : text ≠ [])
    (htext : text.all isWordByte = true) :
    s.read escapes (text ++ [32]) = { s with element := s.element ++ [text] } := by
  have hplain : ({ s with word := text } : Scan).mode = .plain := h
  rw [read_append, read_plain h htext, hword, List.nil_append, read_cons, feed_space hplain,
    endWord, if_neg hne]
  rfl

end Words

end QuotedWords
