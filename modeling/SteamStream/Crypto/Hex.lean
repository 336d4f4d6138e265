import SteamStream.Rest.Helpers
import Mathlib.Data.List.Induction

/-!
# The hexadecimal codec

`hex_to_str` reads its digits from the end, skipping whatever is neither a digit nor a letter,
and fills a buffer of half as many bytes as there are digits. Every byte takes two backward
scans; `scanBytes` returns `none` when one of them would run past the first character, and
`scanBytes_isSome` says that the size of the buffer prevents it.

What is read depends on the values of the digits alone (`hexToStr_congr`), so a text may be
written in either case and with anything in between that is neither a digit nor a letter: these
are the texts `Spelled` relates to it.
-/

namespace SteamStream.Crypto

open Wire CText

/-- The upper-case digits of a byte. -/
def hexDigit (n : UInt8) : UInt8 := if n < 10 then 48 + n else 55 + n

/-- `str_to_hex`. -/
def strToHex (input : Bytes) : Bytes :=
  input.flatMap fun c : UInt8 => [hexDigit (c >>> 4), hexDigit (c &&& 15)]

/-- A character `hex_to_str` reads: a digit, or any ASCII letter. -/
def isConvertable (ch : UInt8) : Bool := isDigit ch || (97 ≤ ch ||| 32 && ch ||| 32 ≤ 122)

/-- The value of a digit; letters past `f` go on counting. -/
def convert (ch : UInt8) : UInt8 := if isDigit ch then ch - 48 else (ch ||| 32) - 97 + 10

/-- `n` bytes, read from the reversed text: the right digit of a byte comes first. -/
def scanBytes : ℕ → Bytes → Option Bytes
  | 0, _ => some []
  | n + 1, data =>
    match data.dropWhile fun ch => !isConvertable ch with
    | [] => none
    | r :: data =>
      match data.dropWhile fun ch => !isConvertable ch with
      | [] => none
      | l :: data => (scanBytes n data).map ((convert l <<< 4 ||| convert r) :: ·)

/-- `hex_to_str`. -/
def hexToStr (hex : Bytes) (reverse : Bool) : Bytes :=
  let bufSize := hex.countP isConvertable / 2
  let buf := (scanBytes bufSize hex.reverse).getD []
  if reverse then buf.reverse else buf

/-- Skipping what is not a digit leaves a digit in front, if there is one. -/
private theorem exists_cons_dropWhile {data : Bytes} (h : 0 < data.countP isConvertable) :
    ∃ ch rest, data.dropWhile (fun ch => !isConvertable ch) = ch :: rest ∧
      rest.countP isConvertable + 1 = data.countP isConvertable := by
  induction data with
  | nil => simp at h
  | cons ch data ih =>
    by_cases hch : isConvertable ch
    · exact ⟨ch, data, by simp [hch], by simp [hch]⟩
    · obtain ⟨ch', rest, hdrop, hcount⟩ := ih (by simpa [hch] using h)
      exact ⟨ch', rest, by simpa [hch] using hdrop, by simpa [hch] using hcount⟩

/-- The scans never run past the first character: two digits are left for every byte. -/
theorem scanBytes_isSome {n : ℕ} {data : Bytes} (h : 2 * n ≤ data.countP isConvertable) :
    ∃ buf, scanBytes n data = some buf ∧ buf.length = n := by
  induction n generalizing data with
  | zero => exact ⟨[], rfl, rfl⟩
  | succ n ih =>
    have hright : 0 < data.countP isConvertable := by omega
    obtain ⟨r, data₁, hr, hcount₁⟩ := exists_cons_dropWhile hright
    have hleft : 0 < data₁.countP isConvertable := by omega
    obtain ⟨l, data₂, hl, hcount₂⟩ := exists_cons_dropWhile hleft
    have hrest : 2 * n ≤ data₂.countP isConvertable := by omega
    obtain ⟨buf, hbuf, hlen⟩ := ih hrest
    exact ⟨(convert l <<< 4 ||| convert r) :: buf,
      by simp only [scanBytes, hr, hl, hbuf, Option.map_some], by simp [hlen]⟩

/-- The size `hex_to_str` gives its buffer is one the scans can fill. -/
theorem exists_scanBytes (hex : Bytes) : ∃ buf,
    scanBytes (hex.countP isConvertable / 2) hex.reverse = some buf ∧
      buf.length = hex.countP isConvertable / 2 := by
  have hcount : 2 * (hex.countP isConvertable / 2) ≤ hex.reverse.countP isConvertable := by
    rw [List.countP_reverse]
    omega
  exact scanBytes_isSome hcount

/-- The result has one byte for every two digits. -/
theorem length_hexToStr (hex : Bytes) (reverse : Bool) :
    (hexToStr hex reverse).length = hex.countP isConvertable / 2 := by
  obtain ⟨buf, hbuf, hlen⟩ := exists_scanBytes hex
  unfold hexToStr
  simp only [hbuf, Option.getD_some]
  split_ifs <;> simp [hlen]

@[simp]
theorem hexToStr_nil (reverse : Bool) : hexToStr [] reverse = [] :=
  List.eq_nil_of_length_eq_zero (length_hexToStr [] reverse)

/-! ### Reading back what was encoded -/

private theorem forall_byte {p : UInt8 → Prop} (h : ∀ n : Fin 256, p (UInt8.ofNat n))
    (ch : UInt8) : p ch := by
  simpa using h ⟨ch.toNat, ch.toNat_lt⟩

/-- The two digits of a byte are read, and give the byte. -/
private theorem convert_hexDigit (x : UInt8) :
    isConvertable (hexDigit (x >>> 4)) = true ∧ isConvertable (hexDigit (x &&& 15)) = true ∧
      (convert (hexDigit (x >>> 4)) <<< 4 ||| convert (hexDigit (x &&& 15))) = x := by
  revert x
  exact forall_byte (by decide +kernel)

/-- The bytes come out from the last one on. -/
private theorem scanBytes_strToHex (s : Bytes) :
    scanBytes s.length (strToHex s).reverse = some s.reverse := by
  induction s using List.reverseRecOn with
  | nil => rfl
  | append_singleton s x ih =>
    obtain ⟨hleft, hright, hbyte⟩ := convert_hexDigit x
    have hreverse : (strToHex (s ++ [x])).reverse =
        hexDigit (x &&& 15) :: hexDigit (x >>> 4) :: (strToHex s).reverse := by
      simp [strToHex]
    rw [List.length_append, List.length_singleton, hreverse, List.reverse_append]
    simp only [scanBytes, List.dropWhile_cons, hright, hleft, Bool.not_true, Bool.false_eq_true,
      if_false, ih, Option.map_some, hbyte]
    rfl

private theorem countP_strToHex (s : Bytes) :
    (strToHex s).countP isConvertable = 2 * s.length := by
  induction s with
  | nil => rfl
  | cons x s ih =>
    obtain ⟨hleft, hright, -⟩ := convert_hexDigit x
    simp only [strToHex, List.flatMap_cons, List.countP_append] at ih ⊢
    simp only [List.countP_cons, hleft, hright, ih, List.countP_nil, if_true, List.length_cons]
    omega

/-- What `str_to_hex` writes, `hex_to_str` reads back. -/
theorem hexToStr_strToHex (s : Bytes) : hexToStr (strToHex s) true = s := by
  have hsize : (strToHex s).countP isConvertable / 2 = s.length := by
    rw [countP_strToHex]
    omega
  simp only [hexToStr, hsize, scanBytes_strToHex, Option.getD_some, if_true, List.reverse_reverse]

/-! ### Other spellings -/

open Rest (toLower)

/-- A decimal digit or an ASCII letter. -/
def isAlnum (ch : UInt8) : Bool := isDigit ch || (65 ≤ ch && ch ≤ 90) || (97 ≤ ch && ch ≤ 122)

/-- `text` is `digits`, some of them in lower case, with bytes in between that are neither digits
nor letters. -/
inductive Spelled : Bytes → Bytes → Prop
  | nil : Spelled [] []
  | digit (ch : UInt8) {digits text : Bytes} (h : Spelled digits text) :
      Spelled (ch :: digits) (ch :: text)
  | lower (ch : UInt8) {digits text : Bytes} (h : Spelled digits text) :
      Spelled (ch :: digits) (toLower ch :: text)
  | insert {ch : UInt8} {digits text : Bytes} (hch : isAlnum ch = false)
      (h : Spelled digits text) : Spelled digits (ch :: text)

/-- The values of the digits of a text. -/
def values (data : Bytes) : Bytes := (data.filter isConvertable).map convert

/-- With the case bit set, the letters and nothing else are lower-case letters. -/
theorem isConvertable_eq : isConvertable = isAlnum := by
  funext ch
  revert ch
  exact forall_byte (by decide +kernel)

/-- A digit means the same in lower case. -/
private theorem convert_toLower (ch : UInt8) :
    isConvertable (toLower ch) = isConvertable ch ∧ convert (toLower ch) = convert ch := by
  revert ch
  exact forall_byte (by decide +kernel)

theorem values_reverse (data : Bytes) : values data.reverse = (values data).reverse := by
  rw [values, List.filter_reverse, List.map_reverse, values]

theorem length_values (data : Bytes) : (values data).length = data.countP isConvertable := by
  rw [values, List.length_map, List.countP_eq_length_filter]

/-- A scan stops at the next of the values. -/
private theorem values_eq_cons {data rest : Bytes} {ch : UInt8}
    (h : data.dropWhile (fun ch => !isConvertable ch) = ch :: rest) :
    values data = convert ch :: values rest := by
  induction data with
  | nil => cases h
  | cons d data ih =>
    by_cases hd : isConvertable d
    · rw [List.dropWhile_cons_of_neg (by simp [hd])] at h
      obtain ⟨rfl, rfl⟩ := List.cons.inj h
      simp [values, hd]
    · rw [List.dropWhile_cons_of_pos (by simp [hd])] at h
      rw [← ih h]
      simp [values, hd]

private theorem values_eq_nil {data : Bytes}
    (h : data.dropWhile (fun ch => !isConvertable ch) = []) : values data = [] := by
  have hnone : ∀ ch ∈ data, ¬ isConvertable ch = true := by
    simpa using List.dropWhile_eq_nil_iff.mp h
  rw [values, List.filter_eq_nil_iff.mpr hnone]
  rfl

/-- The bytes, read from the values of the digits. -/
private def pairs : ℕ → Bytes → Option Bytes
  | 0, _ => some []
  | n + 1, r :: l :: ds => (pairs n ds).map ((l <<< 4 ||| r) :: ·)
  | _ + 1, _ => none

/-- What the scans read depends on the values of the digits alone. -/
private theorem scanBytes_eq_pairs (n : ℕ) (data : Bytes) :
    scanBytes n data = pairs n (values data) := by
  induction n generalizing data with
  | zero => rfl
  | succ n ih =>
    rw [scanBytes]
    cases hright : data.dropWhile fun ch => !isConvertable ch with
    | nil => rw [values_eq_nil hright]; rfl
    | cons r data₁ =>
      rw [values_eq_cons hright]
      dsimp only
      cases hleft : data₁.dropWhile fun ch => !isConvertable ch with
      | nil => rw [values_eq_nil hleft]; rfl
      | cons l data₂ =>
        rw [values_eq_cons hleft]
        exact congrArg (Option.map _) (ih data₂)

/-- Texts with the same digits are read alike. -/
theorem hexToStr_congr {hex hex' : Bytes} (h : values hex = values hex') :
    hexToStr hex = hexToStr hex' := by
  funext reverse
  simp only [hexToStr, scanBytes_eq_pairs, values_reverse, ← length_values, h]

/-- The spelling does not change the digits. -/
theorem Spelled.values {digits text : Bytes} (h : Spelled digits text) :
    values text = values digits := by
  induction h with
  | nil => rfl
  | digit ch _ ih =>
    simp only [Crypto.values, List.filter_cons] at ih ⊢
    split_ifs <;> simp [ih]
  | lower ch _ ih =>
    obtain ⟨hread, hvalue⟩ := convert_toLower ch
    simp only [Crypto.values, List.filter_cons, hread] at ih ⊢
    split_ifs <;> simp [ih, hvalue]
  | @insert ch _ _ hch _ ih =>
    have hskip : ¬ isConvertable ch = true := by simp [isConvertable_eq, hch]
    rw [← ih, Crypto.values, List.filter_cons_of_neg hskip, Crypto.values]

/-- What `str_to_hex` writes is read back in every spelling; and of every text whatsoever, the
scans read within the text and give a byte for every two digits or letters. -/
theorem hexToStr_codec :
    (∀ s text, Spelled (strToHex s) text → hexToStr text true = s) ∧
    ∀ hex : Bytes, ∃ buf,
      scanBytes (hex.countP isConvertable / 2) hex.reverse = some buf ∧
      buf.length = hex.countP isAlnum / 2 ∧
      ∀ reverse, hexToStr hex reverse = if reverse then buf.reverse else buf := by
  refine ⟨fun s text h => ?_, fun hex => ?_⟩
  · rw [hexToStr_congr h.values, hexToStr_strToHex]
  · obtain ⟨buf, hbuf, hlen⟩ := exists_scanBytes hex
    refine ⟨buf, hbuf, by rw [hlen, isConvertable_eq], fun reverse => ?_⟩
    simp only [hexToStr, hbuf, Option.getD_some]

/-- `4A6b` in a spelling with separators and in lower case. -/
theorem hexToStr_codec_separated : Spelled (strToHex [0x4a, 0x6b]) (ascii ":4a-6 b\n") ∧
    hexToStr (ascii ":4a-6 b\n") true = [0x4a, 0x6b] := by
  have hspelled : Spelled (strToHex [0x4a, 0x6b]) (ascii ":4a-6 b\n") :=
    .insert rfl <| .digit 0x34 <| .lower 0x41 <| .insert rfl <| .digit 0x36 <| .insert rfl <|
      .lower 0x42 <| .insert rfl .nil
  exact ⟨hspelled, hexToStr_codec.1 _ _ hspelled⟩

end SteamStream.Crypto
