import SteamStream.Library.Wire
import Mathlib.Data.List.Nodup
import Mathlib.Order.Defs.Unbundled

/-!
# Maps in the order of their keys

What `std::map` is to the code that uses it: assigning to a key replaces its value or puts the key
at its place, and a loop over the map meets the keys in increasing order. The entries are a list,
and a map is that list with the proof that its keys increase.

A map is rebuilt by assigning its entries one after another (`foldl_insert_entries`), which is what
reading back a printed map does, and assignments to distinct keys may come in any order
(`foldl_insert_perm`). Assigning to a key or erasing it (`erase`) changes what is found there and
nowhere else.
-/

/-- A map with its entries in the order of their keys. -/
structure SortedMap (κ ν : Type*) [LT κ] where
  entries : List (κ × ν)
  sorted : entries.Pairwise fun a b => a.1 < b.1

namespace SortedMap

variable {κ ν : Type*} [LT κ]

@[ext]
theorem ext {m m' : SortedMap κ ν} (h : m.entries = m'.entries) : m = m' := by
  cases m
  cases m'
  congr

instance [DecidableEq κ] [DecidableEq ν] : DecidableEq (SortedMap κ ν) := fun m m' =>
  decidable_of_iff (m.entries = m'.entries) ⟨ext, fun h => h ▸ rfl⟩

/-- The map without entries. -/
def empty : SortedMap κ ν := ⟨[], List.Pairwise.nil⟩

instance : EmptyCollection (SortedMap κ ν) := ⟨empty⟩

@[simp]
theorem entries_empty : (∅ : SortedMap κ ν).entries = [] := rfl

variable [DecidableLT κ]

/-- The value assigned to a key. -/
def find? (m : SortedMap κ ν) (k : κ) : Option ν :=
  (m.entries.find? fun e => ¬ e.1 < k ∧ ¬ k < e.1).map Prod.snd

@[simp]
theorem find?_empty (k : κ) : (∅ : SortedMap κ ν).find? k = none := rfl

/-- `m.erase(k)`. -/
def erase (m : SortedMap κ ν) (k : κ) : SortedMap κ ν :=
  ⟨m.entries.filter fun e => e.1 < k ∨ k < e.1, m.sorted.filter _⟩

theorem find?_erase_self (m : SortedMap κ ν) (k : κ) : (m.erase k).find? k = none := by
  rw [find?, Option.map_eq_none_iff, List.find?_eq_none]
  intro e he
  have hne := of_decide_eq_true (List.mem_filter.mp he).2
  simpa [imp_iff_not_or] using hne

/-- Assigning to a key in a list of entries. -/
def insertEntry (k : κ) (v : ν) : List (κ × ν) → List (κ × ν)
  | [] => [(k, v)]
  | e :: es =>
    if k < e.1 then (k, v) :: e :: es
    else if e.1 < k then e :: insertEntry k v es
    else (e.1, v) :: es

/-- An entry after an assignment is an old one, or holds the new value under an old key or the new
one. -/
theorem mem_insertEntry {k : κ} {v : ν} {es : List (κ × ν)} {e : κ × ν}
    (h : e ∈ insertEntry k v es) :
    e ∈ es ∨ e = (k, v) ∨ ∃ e' ∈ es, ¬ k < e'.1 ∧ ¬ e'.1 < k ∧ e = (e'.1, v) := by
  induction es with
  | nil => exact .inr (.inl (List.mem_singleton.mp h))
  | cons e' es ih =>
    rw [insertEntry] at h
    split_ifs at h with hlt hgt
    · rcases List.mem_cons.mp h with rfl | h
      · exact .inr (.inl rfl)
      · exact .inl h
    · rcases List.mem_cons.mp h with rfl | h
      · exact .inl (List.mem_cons_self ..)
      · rcases ih h with h | h | ⟨old, hold, h⟩
        · exact .inl (List.mem_cons_of_mem _ h)
        · exact .inr (.inl h)
        · exact .inr (.inr ⟨old, List.mem_cons_of_mem _ hold, h⟩)
    · rcases List.mem_cons.mp h with rfl | h
      · exact .inr (.inr ⟨e', List.mem_cons_self .., hlt, hgt, rfl⟩)
      · exact .inl (List.mem_cons_of_mem _ h)

variable [IsStrictOrder κ (· < ·)]

theorem pairwise_insertEntry (k : κ) (v : ν) {es : List (κ × ν)}
    (h : es.Pairwise fun a b => a.1 < b.1) :
    (insertEntry k v es).Pairwise fun a b => a.1 < b.1 := by
  induction es with
  | nil => exact List.pairwise_singleton _ _
  | cons e es ih =>
    obtain ⟨hhead, htail⟩ := List.pairwise_cons.mp h
    rw [insertEntry]
    split_ifs with hlt hgt
    · refine List.pairwise_cons.mpr ⟨fun e' he' => ?_, h⟩
      rcases List.mem_cons.mp he' with rfl | he'
      · exact hlt
      · exact IsTrans.trans _ _ _ hlt (hhead e' he')
    · refine List.pairwise_cons.mpr ⟨fun e' he' => ?_, ih htail⟩
      rcases mem_insertEntry he' with he' | rfl | ⟨old, hold, -, -, rfl⟩
      · exact hhead e' he'
      · exact hgt
      · exact hhead old hold
    · exact List.pairwise_cons.mpr ⟨hhead, htail⟩

/-- `m[k] = v`. -/
def insert (m : SortedMap κ ν) (k : κ) (v : ν) : SortedMap κ ν :=
  ⟨insertEntry k v m.entries, pairwise_insertEntry k v m.sorted⟩

/-- Conditions on the keys and on the values are kept by assigning what meets them. -/
theorem forall_mem_insert {m : SortedMap κ ν} {k : κ} {v : ν} {K : κ → Prop} {V : ν → Prop}
    (hm : ∀ e ∈ m.entries, K e.1 ∧ V e.2) (hk : K k) (hv : V v) :
    ∀ e ∈ (m.insert k v).entries, K e.1 ∧ V e.2 := by
  intro e he
  rcases mem_insertEntry he with he | rfl | ⟨old, hold, -, -, rfl⟩
  · exact hm e he
  · exact ⟨hk, hv⟩
  · exact ⟨(hm old hold).1, hv⟩

theorem forall_mem_foldl_insert {l : List (κ × ν)} {K : κ → Prop} {V : ν → Prop}
    (hl : ∀ e ∈ l, K e.1 ∧ V e.2) {m : SortedMap κ ν} (hm : ∀ e ∈ m.entries, K e.1 ∧ V e.2) :
    ∀ e ∈ (l.foldl (fun acc e => acc.insert e.1 e.2) m).entries, K e.1 ∧ V e.2 := by
  induction l generalizing m with
  | nil => exact hm
  | cons e l ih =>
    obtain ⟨he, hl⟩ := List.forall_mem_cons.mp hl
    exact ih hl (forall_mem_insert hm he.1 he.2)

/-- A key above all others goes to the end. -/
theorem insertEntry_of_forall_lt {k : κ} {v : ν} {es : List (κ × ν)} (h : ∀ e ∈ es, e.1 < k) :
    insertEntry k v es = es ++ [(k, v)] := by
  induction es with
  | nil => rfl
  | cons e es ih =>
    obtain ⟨he, hes⟩ := List.forall_mem_cons.mp h
    rw [insertEntry, if_neg (asymm he), if_pos he, ih hes, List.cons_append]

/-- Assigning the entries of a map in their order builds the map. -/
theorem foldl_insert_entries (m : SortedMap κ ν) :
    m.entries.foldl (fun acc e => acc.insert e.1 e.2) ∅ = m := by
  have hfold : ∀ (es : List (κ × ν)) (acc : SortedMap κ ν),
      (acc.entries ++ es).Pairwise (fun a b => a.1 < b.1) →
      (es.foldl (fun acc e => acc.insert e.1 e.2) acc).entries = acc.entries ++ es := by
    intro es
    induction es with
    | nil => exact fun acc _ => (List.append_nil _).symm
    | cons e es ih =>
      intro acc hsorted
      have hlast : (acc.insert e.1 e.2).entries = acc.entries ++ [e] :=
        insertEntry_of_forall_lt fun e' he' =>
          (List.pairwise_append.mp hsorted).2.2 e' he' e (List.mem_cons_self ..)
      rw [List.foldl_cons, ih _ (by rwa [hlast, List.append_assoc, List.singleton_append]), hlast,
        List.append_assoc, List.singleton_append]
  exact ext (hfold m.entries ∅ m.sorted)

/-! ### The order of assignments -/

section Commute

variable [Std.Trichotomous (· < · : κ → κ → Prop)]

private theorem insertEntry_comm_of_lt {k k' : κ} (h : k < k') (v v' : ν) (es : List (κ × ν)) :
    insertEntry k v (insertEntry k' v' es) = insertEntry k' v' (insertEntry k v es) := by
  have hnot : ¬ k' < k := asymm h
  induction es with
  | nil => simp only [insertEntry, if_pos h, if_neg hnot]
  | cons e es ih =>
    rcases trichotomous_of (· < ·) k e.1 with hk | rfl | hk
    · -- both keys meet the head: `k` goes in front of it
      have hke : ¬ e.1 < k := asymm hk
      rw [show insertEntry k v (e :: es) = (k, v) :: e :: es from if_pos hk]
      rw [insertEntry]
      split_ifs <;> simp only [insertEntry, if_pos hk, if_pos h, if_neg hnot] <;> simp [*]
    · have hirr : ¬ e.1 < e.1 := irrefl _
      simp only [insertEntry, if_neg hnot, if_pos h, if_neg hirr]
    · have hke : ¬ k < e.1 := asymm hk
      have hk' : e.1 < k' := IsTrans.trans _ _ _ hk h
      simp only [insertEntry, if_neg (asymm hk'), if_pos hk', if_neg hke, if_pos hk, ih]

/-- Assignments to different keys commute. -/
theorem insert_comm {k k' : κ} (h : k ≠ k') (m : SortedMap κ ν) (v v' : ν) :
    (m.insert k v).insert k' v' = (m.insert k' v').insert k v := by
  refine ext ?_
  rcases trichotomous_of (· < ·) k k' with hlt | heq | hgt
  · exact (insertEntry_comm_of_lt hlt v v' m.entries).symm
  · exact absurd heq h
  · exact insertEntry_comm_of_lt hgt v' v m.entries

/-- Assignments to pairwise distinct keys can be made in any order. -/
theorem foldl_insert_perm {l l' : List (κ × ν)} (hperm : l.Perm l')
    (hnodup : (l.map Prod.fst).Nodup) (m : SortedMap κ ν) :
    l.foldl (fun acc e => acc.insert e.1 e.2) m = l'.foldl (fun acc e => acc.insert e.1 e.2) m := by
  refine hperm.foldl_eq' (fun x hx y hy acc => ?_) m
  by_cases hxy : x = y
  · rw [hxy]
  · exact insert_comm (fun hkey => hxy (List.inj_on_of_nodup_map hnodup hx hy hkey)) acc x.2 y.2

end Commute

/-! ### What is assigned to a key -/

section Find

theorem find?_insert_self (m : SortedMap κ ν) (k : κ) (v : ν) : (m.insert k v).find? k = some v := by
  have hirr : ¬ k < k := irrefl k
  have hfind : ∀ es : List (κ × ν),
      ((insertEntry k v es).find? fun e => ¬ e.1 < k ∧ ¬ k < e.1).map Prod.snd = some v := by
    intro es
    induction es with
    | nil => simp [insertEntry, hirr]
    | cons e es ih =>
      rw [insertEntry]
      split_ifs with hlt hgt
      · simp [hirr]
      · rwa [List.find?_cons_of_neg (by simp [hgt])]
      · simp [hlt, hgt]
  exact hfind m.entries

variable [Std.Trichotomous (· < · : κ → κ → Prop)]

omit [IsStrictOrder κ (· < ·)] in
/-- An entry of one key is not found under another. -/
private theorem not_found_of_ne {k k' : κ} (h : k' ≠ k) :
    decide (¬ k < k' ∧ ¬ k' < k) = false := by
  refine decide_eq_false fun hsame => ?_
  exact h (Std.Trichotomous.trichotomous k k' hsame.1 hsame.2).symm

/-- An assignment changes nothing at the other keys. -/
theorem find?_insert_of_ne {k k' : κ} (h : k' ≠ k) (m : SortedMap κ ν) (v : ν) :
    (m.insert k v).find? k' = m.find? k' := by
  have hskip := not_found_of_ne h
  have hfind : ∀ es : List (κ × ν), (insertEntry k v es).find? (fun e => ¬ e.1 < k' ∧ ¬ k' < e.1) =
      es.find? fun e => ¬ e.1 < k' ∧ ¬ k' < e.1 := by
    intro es
    induction es with
    | nil => rw [insertEntry, List.find?_cons, hskip]
    | cons e es ih =>
      rw [insertEntry]
      split_ifs with hlt hgt
      · rw [List.find?_cons, hskip]
      · rw [List.find?_cons, List.find?_cons, ih]
      · obtain ⟨key, v'⟩ := e
        obtain rfl : k = key := Std.Trichotomous.trichotomous k key hlt hgt
        simp only [List.find?_cons, hskip]
  exact congrArg (Option.map Prod.snd) (hfind m.entries)

omit [IsStrictOrder κ (· < ·)] in
/-- Erasing a key changes nothing at the others. -/
theorem find?_erase_of_ne {k k' : κ} (h : k' ≠ k) (m : SortedMap κ ν) :
    (m.erase k).find? k' = m.find? k' := by
  refine congrArg (Option.map Prod.snd) ?_
  rw [erase, List.find?_filter]
  refine congrArg (fun p => m.entries.find? p) (funext fun e => Bool.eq_iff_iff.mpr ?_)
  simp only [decide_eq_true_iff, and_iff_right_iff_imp]
  intro hsame
  by_contra hkey
  obtain ⟨hlt, hgt⟩ := not_or.mp hkey
  obtain rfl : e.1 = k := Std.Trichotomous.trichotomous e.1 k hlt hgt
  exact absurd (decide_eq_true hsame) (Bool.eq_false_iff.mp (not_found_of_ne h))

/-- A key is looked up in the entries. -/
theorem lookup_entries [BEq κ] [LawfulBEq κ] (m : SortedMap κ ν) (k : κ) :
    m.entries.lookup k = m.find? k := by
  rw [find?]
  induction m.entries with
  | nil => rfl
  | cons e es ih =>
    obtain ⟨key, value⟩ := e
    by_cases hk : k = key
    · subst hk
      have hirr : ¬ k < k := irrefl k
      rw [List.lookup_cons_self, List.find?_cons_of_pos (by simp [hirr])]
      rfl
    · rw [List.lookup_cons, beq_false_of_ne hk, List.find?_cons, not_found_of_ne hk]
      exact ih

/-- Assignments to other keys. -/
theorem find?_foldl_insert_of_not_mem {l : List (κ × ν)} {k : κ} (h : k ∉ l.map Prod.fst)
    (m : SortedMap κ ν) : (l.foldl (fun acc e => acc.insert e.1 e.2) m).find? k = m.find? k := by
  induction l generalizing m with
  | nil => rfl
  | cons e l ih =>
    rw [List.map_cons, List.mem_cons, not_or] at h
    rw [List.foldl_cons, ih h.2, find?_insert_of_ne h.1]

/-- Of assignments to distinct keys, each is found. -/
theorem find?_foldl_insert {l : List (κ × ν)} (hnodup : (l.map Prod.fst).Nodup) {e : κ × ν}
    (he : e ∈ l) (m : SortedMap κ ν) :
    (l.foldl (fun acc e => acc.insert e.1 e.2) m).find? e.1 = some e.2 := by
  induction l generalizing m with
  | nil => exact absurd he List.not_mem_nil
  | cons e' l ih =>
    rw [List.map_cons, List.nodup_cons] at hnodup
    rw [List.foldl_cons]
    rcases List.mem_cons.mp he with rfl | he
    · rw [find?_foldl_insert_of_not_mem hnodup.1, find?_insert_self]
    · exact ih hnodup.2 he _

end Find

end SortedMap

/-- Byte strings, compared byte by byte. -/
instance : IsStrictOrder Wire.Bytes (· < ·) where
  irrefl := List.lt_irrefl
  trans _ _ _ := List.lt_trans
