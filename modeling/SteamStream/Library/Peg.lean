import SteamStream.Library.Wire

/-!
# Parsing expressions

Parsing expression grammars over byte strings, with ordered choice, greedy repetition, automatic
skipping of white space, and actions. A rule is a function of the text left and of a state `σ` that
its actions change. An action runs when its rule has matched, and what it has done stays done when
the match is given up later: a failing expression gives back the text, not the state.

White space is a class of bytes: any run of them is skipped at the start of the text, after every
literal and after every token.

`wp p Q E s st` is the weakest precondition: `p` at the text `s` and the state `st` either matches
and ends in `Q`, or fails and leaves a state in `E`. There is a rule for every construct, so a
grammar is verified rule by rule, and never unfolded below its rules.
-/

namespace Peg

open Wire

/-- A parsing expression: what it matched and the text left, or a failure; and the state. -/
def Expr (σ α : Type) : Type := Bytes → σ → Option (α × Bytes) × σ

namespace Expr

variable {σ α β : Type}

/-- Sequencing. -/
instance : Monad (Expr σ) where
  pure a := fun s st => (some (a, s), st)
  bind p f := fun s st =>
    match p s st with
    | (some (a, s'), st') => f a s' st'
    | (none, st') => (none, st')

/-- `p / q`. -/
def orElse (p q : Expr σ α) : Expr σ α := fun s st =>
  match p s st with
  | (some r, st') => (some r, st')
  | (none, st') => q s st'

/-- `p?`. -/
def opt (p : Expr σ α) : Expr σ Unit := fun s st =>
  match p s st with
  | (some (_, s'), st') => (some ((), s'), st')
  | (none, st') => (some ((), s), st')

/-- At most so many rounds of `p*`. -/
def rounds (p : Expr σ α) : ℕ → Expr σ Unit
  | 0 => pure ()
  | n + 1 => fun s st =>
    match p s st with
    | (some (_, s'), st') => rounds p n s' st'
    | (none, st') => (some ((), s), st')

/-- `p*`, for a `p` that consumes something whenever it matches: the text bounds the rounds. -/
def star (p : Expr σ α) : Expr σ Unit := fun s st => p.rounds (s.length + 1) s st

/-- `p+`. -/
def plus (p : Expr σ α) : Expr σ Unit := do
  let _ ← p
  p.star

/-- `[...]+`, for a class of bytes. -/
def chars (c : UInt8 → Bool) : Expr σ Unit := fun s st =>
  if s.takeWhile c = [] then (none, st) else (some ((), s.dropWhile c), st)

/-- The bytes of a UTF-8 character, as its first one tells; `0` if none does. -/
def charWidth (b : UInt8) : ℕ :=
  if b < 0x80 then 1 else if b &&& 0xe0 = 0xc0 then 2 else if b &&& 0xf0 = 0xe0 then 3
  else if b &&& 0xf8 = 0xf0 then 4 else 0

/-- `.`: one character. -/
def anyChar : Expr σ Unit := fun s st =>
  match s with
  | [] => (none, st)
  | b :: _ =>
    if 0 < charWidth b ∧ charWidth b ≤ s.length then (some ((), s.drop (charWidth b)), st)
    else (none, st)

/-- The text an expression matches. -/
def matched (p : Expr σ α) : Expr σ Bytes := fun s st =>
  match p s st with
  | (some (_, s'), st') => (some (s.take (s.length - s'.length), s'), st')
  | (none, st') => (none, st')

/-- A rule with an action. -/
def onMatch (p : Expr σ α) (action : α → σ → σ) : Expr σ α := fun s st =>
  match p s st with
  | (some (a, s'), st') => (some (a, s'), action a st')
  | (none, st') => (none, st')

section Whitespace

variable (ws : UInt8 → Bool)

/-- White space. -/
def skip : Expr σ Unit := fun s st => (some ((), s.dropWhile ws), st)

/-- A literal, and the white space after it. -/
def lit (text : Bytes) : Expr σ Unit := fun s st =>
  if text <+: s then (some ((), (s.drop text.length).dropWhile ws), st) else (none, st)

/-- `< p >`: the text of a token, without the white space after it. -/
def token (p : Expr σ α) : Expr σ Bytes := do
  let text ← p.matched
  skip ws
  return text

/-- The state after parsing all of a text, if it can be parsed. -/
def parse (p : Expr σ α) (st : σ) (text : Bytes) : Option σ :=
  match p (text.dropWhile ws) st with
  | (some (_, []), st') => some st'
  | _ => none

end Whitespace

/-! ### Weakest preconditions -/

/-- `p` matches and `Q` holds of what it matched, the text left and the state, or it fails and `E`
holds of the state. -/
def wp (p : Expr σ α) (Q : α → Bytes → σ → Prop) (E : σ → Prop) (s : Bytes) (st : σ) : Prop :=
  match p s st with
  | (some (a, s'), st') => Q a s' st'
  | (none, st') => E st'

section Rules

variable {p q : Expr σ α} {f : α → Expr σ β} {Q : α → Bytes → σ → Prop}
  {R : β → Bytes → σ → Prop} {U : Unit → Bytes → σ → Prop} {T : Bytes → Bytes → σ → Prop}
  {E F : σ → Prop} {s : Bytes} {st : σ}

@[simp]
theorem wp_pure {a : α} : wp (pure a) Q E s st ↔ Q a s st := Iff.rfl

@[simp]
theorem wp_bind : wp (p >>= f) R E s st ↔ wp p (fun a s' st' => wp (f a) R E s' st') E s st := by
  simp only [wp, bind]
  rcases p s st with ⟨_ | ⟨a, s'⟩, st'⟩ <;> rfl

@[simp]
theorem wp_orElse : wp (p.orElse q) Q E s st ↔ wp p Q (fun st' => wp q Q E s st') s st := by
  simp only [wp, orElse]
  rcases p s st with ⟨_ | ⟨a, s'⟩, st'⟩ <;> rfl

@[simp]
theorem wp_opt : wp p.opt U E s st ↔
    wp p (fun _ s' st' => U () s' st') (fun st' => U () s st') s st := by
  simp only [wp, opt]
  rcases p s st with ⟨_ | ⟨a, s'⟩, st'⟩ <;> rfl

@[simp]
theorem wp_onMatch {action : α → σ → σ} : wp (p.onMatch action) Q E s st ↔
    wp p (fun a s' st' => Q a s' (action a st')) E s st := by
  simp only [wp, onMatch]
  rcases p s st with ⟨_ | ⟨a, s'⟩, st'⟩ <;> rfl

@[simp]
theorem wp_chars {c : UInt8 → Bool} : wp (chars c) U E s st ↔
    if s.takeWhile c = [] then E st else U () (s.dropWhile c) st := by
  simp only [wp, chars]
  split_ifs <;> rfl

@[simp]
theorem wp_anyChar_nil : wp anyChar U E [] st ↔ E st := Iff.rfl

@[simp]
theorem wp_skip {ws : UInt8 → Bool} : wp (skip ws) U E s st ↔ U () (s.dropWhile ws) st := Iff.rfl

@[simp]
theorem wp_lit {ws : UInt8 → Bool} {text : Bytes} : wp (lit ws text) U E s st ↔
    if text <+: s then U () ((s.drop text.length).dropWhile ws) st else E st := by
  simp only [wp, lit]
  split_ifs <;> rfl

@[simp]
theorem wp_matched : wp p.matched T E s st ↔
    wp p (fun _ s' st' => T (s.take (s.length - s'.length)) s' st') E s st := by
  simp only [wp, matched]
  rcases p s st with ⟨_ | ⟨a, s'⟩, st'⟩ <;> rfl

/-- A token over a class of bytes. -/
@[simp]
theorem wp_token_chars {ws c : UInt8 → Bool} : wp (token ws (chars c)) T E s st ↔
    if s.takeWhile c = [] then E st
    else T (s.takeWhile c) ((s.dropWhile c).dropWhile ws) st := by
  have htext : s.take (s.length - (s.dropWhile c).length) = s.takeWhile c := by
    have hlength := congrArg List.length (@List.takeWhile_append_dropWhile _ c s)
    rw [List.length_append] at hlength
    rw [show s.length - (s.dropWhile c).length = (s.takeWhile c).length by omega]
    exact (List.prefix_iff_eq_take.mp (List.takeWhile_prefix c)).symm
  simp only [token, wp_bind, wp_matched, wp_chars, wp_skip, wp_pure, htext]

/-- A character is there, or not. -/
theorem wp_anyChar_of_forall (h : ∀ rest, U () rest st) (hE : E st) : wp anyChar U E s st := by
  unfold wp anyChar
  cases s with
  | nil => exact hE
  | cons b s =>
    dsimp only
    split_ifs
    · exact h _
    · exact hE

/-- A token of any characters. -/
theorem wp_token_plus_nil {ws : UInt8 → Bool} :
    wp (token ws (plus anyChar)) T E [] st ↔ E st := by
  simp only [token, plus, wp_bind, wp_matched, wp_anyChar_nil]

/-- A repetition, from what one round keeps. -/
theorem wp_star {I : Bytes → σ → Prop} (hs : I s st)
    (hround : ∀ s st, I s st → wp p (fun _ s' st' => I s' st') (fun st' => U () s st') s st)
    (hend : ∀ s st, I s st → U () s st) : wp p.star U E s st := by
  -- the bound on the rounds plays no part
  have hrounds : ∀ n s st, I s st → wp (p.rounds n) U E s st := by
    intro n
    induction n with
    | zero => exact fun s st hs => hend s st hs
    | succ n ih =>
      intro s st hs
      have hp := hround s st hs
      simp only [wp, rounds] at hp ⊢
      split at hp
      · exact ih _ _ hp
      · exact hp
  exact hrounds _ s st hs

/-- Where matching all of the text is sure, parsing succeeds. -/
theorem exists_parse_of_wp {ws : UInt8 → Bool} {text : Bytes}
    (h : wp p (fun _ s' st' => s' = [] ∧ E st') (fun _ => False) (text.dropWhile ws) st) :
    ∃ st', parse ws p st text = some st' ∧ E st' := by
  simp only [wp, parse] at h ⊢
  split at h
  · rename_i a s' st' heq
    obtain ⟨rfl, hE⟩ := h
    exact ⟨st', by rw [heq], hE⟩
  · exact h.elim

/-- What holds whenever all of the text is matched holds of the result. -/
theorem of_parse_eq_some {ws : UInt8 → Bool} {text : Bytes} {st' : σ}
    (hparse : parse ws p st text = some st')
    (h : wp p (fun _ s' st' => s' = [] → E st') (fun _ => True) (text.dropWhile ws) st) :
    E st' := by
  simp only [wp, parse] at h hparse
  split at hparse
  · rename_i a st₁ heq
    rw [heq] at h
    exact Option.some.inj hparse ▸ h rfl
  · cases hparse

theorem wp_plus : wp p.plus U E s st ↔ wp p (fun _ s' st' => wp p.star U E s' st') E s st := by
  simp only [plus, wp_bind]

end Rules

/-! ### Matching printed text -/

/-- The text does not go on with a byte of the class. -/
def Delimits (c : UInt8 → Bool) (s : Bytes) : Prop := ∀ b ∈ s.head?, c b = false

instance {c : UInt8 → Bool} {s : Bytes} : Decidable (Delimits c s) :=
  inferInstanceAs (Decidable (∀ b ∈ s.head?, c b = false))

theorem delimits_nil {c : UInt8 → Bool} : Delimits c [] := fun b hb =>
  absurd hb (Option.not_mem_none b)

/-- No byte is in both classes. -/
def Apart (c d : UInt8 → Bool) : Prop :=
  ∀ n : Fin 256, c (UInt8.ofNat n) = true → d (UInt8.ofNat n) = false

instance {c d : UInt8 → Bool} : Decidable (Apart c d) :=
  inferInstanceAs
    (Decidable (∀ n : Fin 256, c (UInt8.ofNat n) = true → d (UInt8.ofNat n) = false))

theorem Apart.eq_false {c d : UInt8 → Bool} (h : Apart c d) {b : UInt8} (hb : c b = true) :
    d b = false := by
  simpa using h ⟨b.toNat, b.toNat_lt⟩ (by simpa using hb)

section Printed

variable {ws c : UInt8 → Bool} {text rest s : Bytes} {α ι : Type} {p : Expr σ α}
  {U : Unit → Bytes → σ → Prop} {T : Bytes → Bytes → σ → Prop} {E : σ → Prop} {st : σ}

theorem takeWhile_of_delimits (h : Delimits c s) : s.takeWhile c = [] := by
  cases s with
  | nil => rfl
  | cons b s => rw [List.takeWhile_cons, h b rfl, if_neg Bool.false_ne_true]

theorem dropWhile_of_delimits (h : Delimits c s) : s.dropWhile c = s := by
  cases s with
  | nil => rfl
  | cons b s => rw [List.dropWhile_cons, h b rfl, if_neg Bool.false_ne_true]

/-- What is left after the bytes of a class does not go on with one. -/
theorem delimits_dropWhile : Delimits c (s.dropWhile c) := by
  intro b hb
  have hhead := List.head?_dropWhile_not c s
  rw [Option.mem_def.mp hb] at hhead
  exact hhead

/-- Only the first byte counts. -/
theorem Delimits.append (hne : text ≠ []) (h : Delimits c text) : Delimits c (text ++ rest) := by
  obtain ⟨b, text, rfl⟩ := List.exists_cons_of_ne_nil hne
  exact h

/-- A printed token is read back. -/
theorem wp_token_append (hne : text ≠ []) (htext : ∀ b ∈ text, c b = true) (hrest : Delimits c rest)
    (h : T text (rest.dropWhile ws) st) : wp (token ws (chars c)) T E (text ++ rest) st := by
  rw [wp_token_chars, List.takeWhile_append_of_pos htext, List.dropWhile_append_of_pos htext,
    takeWhile_of_delimits hrest, dropWhile_of_delimits hrest, List.append_nil, if_neg hne]
  exact h

/-- There is no token where the text does not go on with the class. -/
theorem wp_token_of_delimits (hs : Delimits c s) (h : E st) : wp (token ws (chars c)) T E s st := by
  rw [wp_token_chars, takeWhile_of_delimits hs, if_pos rfl]
  exact h

/-- The same without skipping white space. -/
theorem wp_chars_append (hne : text ≠ []) (htext : ∀ b ∈ text, c b = true) (hrest : Delimits c rest)
    (h : U () rest st) : wp (chars c) U E (text ++ rest) st := by
  rw [wp_chars, List.takeWhile_append_of_pos htext, List.dropWhile_append_of_pos htext,
    takeWhile_of_delimits hrest, dropWhile_of_delimits hrest, List.append_nil, if_neg hne]
  exact h

theorem wp_chars_of_delimits (hs : Delimits c s) (h : E st) : wp (chars c) U E s st := by
  rw [wp_chars, takeWhile_of_delimits hs, if_pos rfl]
  exact h

/-- A literal is not there where the text goes on with another byte. -/
theorem wp_lit_of_head_ne {b : UInt8} (hs : s.head? ≠ some b) (h : E st) :
    wp (lit ws (b :: text)) U E s st := by
  have hnot : ¬ (b :: text) <+: s := by
    rintro ⟨tail, rfl⟩
    exact hs rfl
  rw [wp_lit, if_neg hnot]
  exact h

theorem wp_lit_append (text : Bytes) (h : U () (rest.dropWhile ws) st) :
    wp (lit ws text) U E (text ++ rest) st := by
  rw [wp_lit, if_pos (List.prefix_append ..), List.drop_left]
  exact h

/-- Items that print something are no more than what they print. -/
private theorem length_le_length_flatMap {print : ι → Bytes} {items : List ι}
    (h : ∀ i ∈ items, print i ≠ []) : items.length ≤ (items.flatMap print).length := by
  induction items with
  | nil => exact le_rfl
  | cons i items ih =>
    obtain ⟨hi, hitems⟩ := List.forall_mem_cons.mp h
    rw [List.flatMap_cons, List.length_append, List.length_cons, Nat.add_comm]
    exact Nat.add_le_add (List.length_pos_of_ne_nil hi) (ih hitems)

/-- What an item keeps of the text behind it, all items keep. -/
theorem follows_flatMap {Follows : Bytes → Prop} {print : ι → Bytes} {items : List ι}
    (hrest : Follows rest)
    (hprint : ∀ i ∈ items, ∀ rest, Follows rest → Follows (print i ++ rest)) :
    Follows (items.flatMap print ++ rest) := by
  induction items with
  | nil => exact hrest
  | cons i items ih =>
    obtain ⟨hi, hitems⟩ := List.forall_mem_cons.mp hprint
    rw [List.flatMap_cons, List.append_assoc]
    exact hi _ (ih hitems)

/-- A repetition reads back what has been printed item by item, if each item is read back in front
of the others and of the rest. -/
theorem wp_star_flatMap (Follows : Bytes → Prop) (update : ι → σ → σ) {print : ι → Bytes}
    {items : List ι} (hrest : Follows rest)
    (hprint : ∀ i ∈ items, print i ≠ [] ∧ ∀ rest, Follows rest → Follows (print i ++ rest))
    (hround : ∀ i ∈ items, ∀ rest st, Follows rest →
      wp p (fun _ s' st' => s' = rest ∧ st' = update i st) (fun _ => False) (print i ++ rest) st)
    (hstop : ∀ st, wp p (fun _ _ _ => False) (fun st' => st' = st) rest st)
    (h : U () rest (items.foldl (fun st i => update i st) st)) :
    wp p.star U E (items.flatMap print ++ rest) st := by
  -- any bound will do that leaves a round for each item and one to see that none is left
  have hrounds : ∀ n, items.length < n →
      wp (p.rounds n) U E (items.flatMap print ++ rest) st := by
    induction items generalizing st with
    | nil =>
      intro n hn
      obtain ⟨n, rfl⟩ := Nat.exists_eq_succ_of_ne_zero (Nat.ne_of_gt hn)
      have hp := hstop st
      rw [List.flatMap_nil, List.nil_append]
      simp only [wp, rounds] at hp ⊢
      split at hp
      · exact hp.elim
      · exact hp ▸ h
    | cons i items ih =>
      intro n hn
      obtain ⟨n, rfl⟩ := Nat.exists_eq_succ_of_ne_zero (Nat.ne_of_gt (Nat.zero_lt_of_lt hn))
      obtain ⟨-, htail⟩ := List.forall_mem_cons.mp hprint
      obtain ⟨hhead, hrounds⟩ := List.forall_mem_cons.mp hround
      have hfollows : Follows (items.flatMap print ++ rest) :=
        follows_flatMap hrest fun i hi => (htail i hi).2
      have hp := hhead (items.flatMap print ++ rest) st hfollows
      rw [List.flatMap_cons, List.append_assoc]
      simp only [wp, rounds] at hp ⊢
      split at hp
      · rename_i heq
        obtain ⟨rfl, rfl⟩ := hp
        rw [heq]
        exact ih htail hrounds h n (Nat.lt_of_succ_lt_succ hn)
      · exact hp.elim
  refine hrounds _ (Nat.lt_succ_of_le ?_)
  rw [List.length_append]
  exact (length_le_length_flatMap fun i hi => (hprint i hi).1).trans (Nat.le_add_right ..)

end Printed

-- a goal about `wp` is a goal for the rules: unfolded, it would run the grammar
attribute [irreducible] wp

end Expr

end Peg
