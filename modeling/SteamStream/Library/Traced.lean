import Mathlib.Data.List.Basic

/-!
# Traced computations

A computation that leaves a log of events and ends with a value or a fault. The log is kept
when the computation fails, so a property of everything that happened — every byte read lies in
its buffer, no callback was run — is `All P`, and it is proved along the binds of the program:
`all_bind` splits it into what the first part does and what the rest does on its result.
-/

/-- A computation with a log of events, ending in a value or a fault. -/
def Traced (ε φ α : Type) := List ε × Except φ α

namespace Traced

variable {ε φ α β : Type}

-- These two are definitions and not fields of a structure: the kernel unfolds a projection
-- before it compares its argument, and would run the whole computation.

/-- The events of a computation. -/
def log (x : Traced ε φ α) : List ε := x.1

/-- How a computation ends. -/
def result (x : Traced ε φ α) : Except φ α := x.2

/-- A computation, from its events and its end. -/
def mk (events : List ε) (outcome : Except φ α) : Traced ε φ α := (events, outcome)

@[simp]
theorem log_mk {events : List ε} {outcome : Except φ α} : (mk events outcome).log = events := rfl

@[simp]
theorem result_mk {events : List ε} {outcome : Except φ α} :
    (mk events outcome).result = outcome := rfl

/-- Log one event. -/
def emit (e : ε) : Traced ε φ Unit := mk [e] (.ok ())

/-- End with a fault. -/
def fault (f : φ) : Traced ε φ α := mk [] (.error f)

instance : Monad (Traced ε φ) where
  pure a := mk [] (.ok a)
  bind x f :=
    match x.result with
    | .error e => mk x.log (.error e)
    | .ok a => mk (x.log ++ (f a).log) (f a).result

/-- Run a handler on the faults it takes. -/
def handle (x : Traced ε φ α) (h : φ → Option (Traced ε φ α)) : Traced ε φ α :=
  match x.result with
  | .ok _ => x
  | .error e =>
    match h e with
    | none => x
    | some y => mk (x.log ++ y.log) y.result

/-- Every event of the log meets `P`. -/
def All (P : ε → Prop) (x : Traced ε φ α) : Prop := ∀ e ∈ x.log, P e

variable {P : ε → Prop} {x : Traced ε φ α} {f : α → Traced ε φ β}

/-! ### Results -/

@[simp]
theorem result_pure {a : α} : (pure a : Traced ε φ α).result = .ok a := rfl

@[simp]
theorem result_emit {e : ε} : (emit e : Traced ε φ Unit).result = .ok () := rfl

@[simp]
theorem result_fault {e : φ} : (fault e : Traced ε φ α).result = .error e := rfl

theorem result_bind_ok {a : α} (h : x.result = .ok a) : (x >>= f).result = (f a).result := by
  simp only [bind, h, result_mk]

/-! ### Events -/

theorem log_bind_ok {a : α} (h : x.result = .ok a) :
    (x >>= f).log = x.log ++ (f a).log := by
  simp only [bind, h, log_mk]

@[simp]
theorem all_pure {a : α} : (pure a : Traced ε φ α).All P := fun _ h => nomatch h

@[simp]
theorem all_emit {e : ε} : (emit e : Traced ε φ Unit).All P ↔ P e := by
  simp [All, emit]

@[simp]
theorem all_fault {e : φ} : (fault e : Traced ε φ α).All P := fun _ h => nomatch h

theorem all_bind_ok {a : α} (h : x.result = .ok a) :
    (x >>= f).All P ↔ x.All P ∧ (f a).All P := by
  simp only [All, bind, h, log_mk, List.mem_append, or_imp, forall_and]

theorem all_bind_error {e : φ} (h : x.result = .error e) :
    (x >>= f).All P ↔ x.All P := by
  simp only [All, bind, h, log_mk]

/-- What happened in a sequence happened in its first part, or in the rest on its result. -/
theorem all_bind : (x >>= f).All P ↔ x.All P ∧ ∀ a, x.result = .ok a → (f a).All P := by
  cases h : x.result with
  | error e =>
    rw [all_bind_error h]
    exact ⟨fun hx => ⟨hx, fun a ha => nomatch ha⟩, And.left⟩
  | ok a =>
    rw [all_bind_ok h]
    refine and_congr_right fun _ => ⟨?_, fun hf => hf a rfl⟩
    intro hf b hb
    obtain rfl := Except.ok.inj hb
    exact hf

/-- Without a fault a handler does nothing. -/
theorem handle_of_ok {h : φ → Option (Traced ε φ α)} {a : α} (hx : x.result = .ok a) :
    x.handle h = x := by
  unfold handle
  rw [hx]

/-- A handler for which every fault is taken as it is only adds its own events. -/
theorem all_handle {h : φ → Option (Traced ε φ α)} :
    (x.handle h).All P ↔
      x.All P ∧ ∀ e y, x.result = .error e → h e = some y → y.All P := by
  unfold handle
  split
  · rename_i hx
    exact ⟨fun hall => ⟨hall, fun e y he => by rw [hx] at he; cases he⟩, And.left⟩
  · rename_i e hx
    split
    · rename_i hnone
      refine ⟨fun hall => ⟨hall, fun e' y he' hy => ?_⟩, And.left⟩
      rw [hx] at he'
      obtain rfl := Except.error.inj he'
      rw [hnone] at hy
      cases hy
    · rename_i y hy
      simp only [All, log_mk, List.mem_append, or_imp, forall_and]
      refine and_congr_right fun _ => ⟨fun hall e' y' he' hy' => ?_, fun hall => hall e y hx hy⟩
      rw [hx] at he'
      obtain rfl := Except.error.inj he'
      rw [hy] at hy'
      obtain rfl := Option.some.inj hy'
      exact hall

end Traced
