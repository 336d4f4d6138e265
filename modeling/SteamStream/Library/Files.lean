import Mathlib.Data.List.AList

/-!
# Files, and what a crash leaves of them

A directory maps names to contents, and a program that changes it is a list of operations.
Renames and removals are atomic. A write is not: cut off in the middle, it leaves a prefix of
the content. `Cut ops d d'` says that a run of `ops` from `d`, cut off anywhere, may leave `d'`.

Replacing a file through a temporary (`install`) is atomic up to the temporary
(`lookup_of_cut_install`).
-/

namespace Files

variable {ν α : Type*}

/-- The files of a directory. -/
abbrev Directory (ν α : Type*) := AList fun _ : ν => List α

/-- One change of a directory. -/
inductive FileOp (ν α : Type*)
  | write (name : ν) (content : List α)
  | rename (source target : ν)
  | remove (name : ν)
  deriving DecidableEq, Repr

variable [DecidableEq ν] {d d' : Directory ν α} {op : FileOp ν α} {ops : List (FileOp ν α)}

/-- The directory after the change. A rename without a source changes nothing. -/
def FileOp.apply (d : Directory ν α) : FileOp ν α → Directory ν α
  | .write name content => d.insert name content
  | .rename source target =>
    match d.lookup source with
    | none => d
    | some content => (d.erase source).insert target content
  | .remove name => d.erase name

/-- The directory after all changes. -/
def perform (d : Directory ν α) (ops : List (FileOp ν α)) : Directory ν α :=
  ops.foldl FileOp.apply d

/-- What a run of the operations leaves that is cut off before, between or inside of them, or
that ends. -/
inductive Cut : List (FileOp ν α) → Directory ν α → Directory ν α → Prop
  | stop {ops : List (FileOp ν α)} {d : Directory ν α} : Cut ops d d
  | torn {name : ν} {content part : List α} {ops : List (FileOp ν α)} {d : Directory ν α}
      (h : part <+: content) : Cut (.write name content :: ops) d (d.insert name part)
  | next {op : FileOp ν α} {ops : List (FileOp ν α)} {d d' : Directory ν α}
      (h : Cut ops (op.apply d) d') : Cut (op :: ops) d d'

theorem perform_nil : perform d [] = d := rfl

theorem perform_cons : perform d (op :: ops) = perform (op.apply d) ops := rfl

theorem perform_append {ops' : List (FileOp ν α)} :
    perform d (ops ++ ops') = perform (perform d ops) ops' := List.foldl_append ..

theorem cut_nil_iff : Cut [] d d' ↔ d' = d := by
  constructor
  · rintro ⟨⟩
    rfl
  · rintro rfl
    exact .stop

theorem cut_write_cons_iff {name : ν} {content : List α} :
    Cut (.write name content :: ops) d d' ↔
      d' = d ∨ (∃ part, part <+: content ∧ d' = d.insert name part) ∨
        Cut ops (d.insert name content) d' := by
  constructor
  · rintro (_ | h | h)
    · exact .inl rfl
    · exact .inr (.inl ⟨_, h, rfl⟩)
    · exact .inr (.inr h)
  · rintro (rfl | ⟨part, h, rfl⟩ | h)
    · exact .stop
    · exact .torn h
    · exact .next h

theorem cut_rename_cons_iff {source target : ν} :
    Cut (.rename source target :: ops) d d' ↔
      d' = d ∨ Cut ops (FileOp.apply d (.rename source target)) d' := by
  constructor
  · rintro (_ | _ | h)
    · exact .inl rfl
    · exact .inr h
  · rintro (rfl | h)
    · exact .stop
    · exact .next h

theorem cut_remove_cons_iff {name : ν} :
    Cut (.remove name :: ops) d d' ↔ d' = d ∨ Cut ops (d.erase name) d' := by
  constructor
  · rintro (_ | _ | h)
    · exact .inl rfl
    · exact .inr h
  · rintro (rfl | h)
    · exact .stop
    · exact .next h

/-- Cut off after that many whole operations; a write that comes next may have got some bytes
further. -/
def cutOff (d : Directory ν α) : List (FileOp ν α) → ℕ → Option ℕ → Directory ν α
  | .write name content :: _, 0, some part => d.insert name (content.take part)
  | op :: ops, steps + 1, part => cutOff (op.apply d) ops steps part
  | _, _, _ => d

/-- The places a run can be cut off at. -/
theorem cut_iff_cutOff : Cut ops d d' ↔ ∃ steps part, d' = cutOff d ops steps part := by
  constructor
  · intro h
    induction h with
    | stop => exact ⟨0, none, by cases ‹List (FileOp ν α)› <;> simp only [cutOff]⟩
    | @torn name content part ops d h =>
      refine ⟨0, some part.length, ?_⟩
      rw [cutOff, ← List.prefix_iff_eq_take.mp h]
    | next h ih =>
      obtain ⟨steps, part, rfl⟩ := ih
      exact ⟨steps + 1, part, by simp only [cutOff]⟩
  · rintro ⟨steps, part, rfl⟩
    induction ops generalizing d steps with
    | nil => exact .stop
    | cons op ops ih =>
      cases steps with
      | succ steps =>
        simp only [cutOff]
        exact .next (ih steps)
      | zero =>
        cases op with
        | write name content =>
          cases part with
          | none => exact .stop
          | some part => exact .torn (List.take_prefix ..)
        | rename source target => exact .stop
        | remove name => exact .stop

/-- Past the end of a program the cut is in the next one. -/
theorem cutOff_append {ops' : List (FileOp ν α)} {steps : ℕ} {part : Option ℕ} :
    cutOff d (ops ++ ops') (ops.length + steps) part = cutOff (perform d ops) ops' steps part := by
  induction ops generalizing d with
  | nil => rw [List.nil_append, List.length_nil, Nat.zero_add, perform_nil]
  | cons op ops ih =>
    rw [List.length_cons, Nat.add_right_comm, perform_cons, ← ih]
    simp only [List.cons_append, cutOff]

theorem cutOff_nil {steps : ℕ} {part : Option ℕ} : cutOff d [] steps part = d := by
  simp only [cutOff]

/-! ### Looking a file up afterwards -/

theorem lookup_insert_eq {name n : ν} {content : List α} :
    (d.insert name content).lookup n = if n = name then some content else d.lookup n := by
  split_ifs with h
  · rw [h, AList.lookup_insert]
  · exact AList.lookup_insert_ne h

theorem lookup_erase_eq {name n : ν} :
    (d.erase name).lookup n = if n = name then none else d.lookup n := by
  split_ifs with h
  · rw [h, AList.lookup_erase]
  · exact AList.lookup_erase_ne h

/-- A rename of a file that is there. -/
theorem lookup_rename_eq {source target n : ν} {content : List α}
    (h : d.lookup source = some content) :
    (FileOp.apply d (.rename source target)).lookup n =
      if n = target then some content else if n = source then none else d.lookup n := by
  simp only [FileOp.apply, h, lookup_insert_eq, lookup_erase_eq]

/-! ### Write, then rename -/

/-- A file is written under a temporary name and renamed. -/
def install (tmp name : ν) (content : List α) : List (FileOp ν α) :=
  [.write tmp content, .rename tmp name]

variable {tmp name n : ν} {content : List α}

theorem lookup_perform_install :
    (perform d (install tmp name content)).lookup n =
      if n = name then some content else if n = tmp then none else d.lookup n := by
  have htmp : (d.insert tmp content).lookup tmp = some content := AList.lookup_insert d
  rw [install, perform_cons, perform_cons, perform_nil, FileOp.apply, lookup_rename_eq htmp,
    lookup_insert_eq]
  split_ifs <;> rfl

/-- Cut off anywhere, it has changed nothing but the temporary, or everything is done. -/
theorem lookup_of_cut_install (h : Cut (install tmp name content) d d') :
    (∀ n, n ≠ tmp → d'.lookup n = d.lookup n) ∨ d' = perform d (install tmp name content) := by
  rw [install, cut_write_cons_iff, cut_rename_cons_iff, cut_nil_iff] at h
  rcases h with rfl | ⟨part, -, rfl⟩ | rfl | rfl
  · exact .inl fun _ _ => rfl
  · exact .inl fun n hn => AList.lookup_insert_ne hn
  · exact .inl fun n hn => AList.lookup_insert_ne hn
  · exact .inr rfl

end Files
