import Mathlib.Data.Nat.Notation
import Mathlib.Logic.Basic

/-!
# Runs of a deterministic labelled system

A `System` is an initial state and a partial step: `step s i = none` says the event `i` is not
enabled in `s`. Nondeterminism — which thread moves, what the network delivers, what a random
source returns — is the choice of the events, so a property of every interleaving is a
property of every list of events.

* `Along P` is "every step of the run meets `P`", and `run_of_along` the induction: what the steps
  that meet `P` keep, such a run keeps.
* `IsInvariant` is the induction rule: an invariant holds in every reachable state; `run_countP`
  is its form for what holds after a number of steps.
* `Erases` relates a system to one with less detail, and carries runs and invariants over.
* `IsInvariantUnder` is the induction rule for runs whose steps all meet a condition,
  `IsInvariantUnder.along` carries a fact the invariant gives about one step to every step of the
  run, and `run_until` is for what holds up to the first step of a kind.
* `outputs` collects what the steps of a run put out.
* `Since p q` says of a list of events that `p` has been met and `q` not after it, and
  `since_concat` is its induction step.
-/

namespace Runs

/-- A deterministic labelled transition system. -/
structure System (σ ι : Type*) where
  /-- The state a run starts in. -/
  init : σ
  /-- The state after an event, `none` when the event is not enabled. -/
  step : σ → ι → Option σ

namespace System

variable {σ ι : Type*} (S : System σ ι)

/-- The state a list of events leads to. -/
def run : σ → List ι → Option σ
  | s, [] => some s
  | s, i :: is => (S.step s i).bind fun s' => run s' is

/-- A state some run from the initial one ends in. -/
def Reachable (s : σ) : Prop := ∃ is, S.run S.init is = some s

variable {S}

@[simp]
theorem run_nil {s : σ} : S.run s [] = some s := rfl

theorem run_cons {s : σ} {i : ι} {is : List ι} :
    S.run s (i :: is) = (S.step s i).bind fun s' => S.run s' is := rfl

theorem run_cons_of_step {s t : σ} {i : ι} {is : List ι} (h : S.step s i = some t) :
    S.run s (i :: is) = S.run t is := by
  rw [run_cons, h]
  rfl

/-- A run may be cut anywhere. -/
theorem run_append {s : σ} {is js : List ι} :
    S.run s (is ++ js) = (S.run s is).bind fun s' => S.run s' js := by
  induction is generalizing s with
  | nil => rfl
  | cons i is ih =>
    rw [List.cons_append, run_cons, run_cons, Option.bind_assoc]
    exact congrArg _ (funext fun s' => ih)

/-- The last step of a run. -/
theorem run_concat_eq_some {s t : σ} {is : List ι} {i : ι} :
    S.run s (is ++ [i]) = some t ↔ ∃ s', S.run s is = some s' ∧ S.step s' i = some t := by
  have hstep : ∀ s', S.run s' [i] = S.step s' i := fun s' => Option.bind_fun_some _
  simp only [run_append, Option.bind_eq_some_iff, hstep]

theorem Reachable.init : S.Reachable S.init := ⟨[], rfl⟩

theorem Reachable.step {s s' : σ} {i : ι} (h : S.Reachable s) (hs : S.step s i = some s') :
    S.Reachable s' := by
  obtain ⟨is, his⟩ := h
  exact ⟨is ++ [i], run_concat_eq_some.mpr ⟨s, his, hs⟩⟩

/-- A step that is taken if it can be. -/
theorem exists_run_getD (s : σ) (i : ι) : ∃ is, S.run s is = some ((S.step s i).getD s) := by
  cases h : S.step s i with
  | none => exact ⟨[], rfl⟩
  | some t => exact ⟨[i], run_cons_of_step h⟩

/-- Events that are enabled in every state are a run. -/
theorem exists_run_of_forall {is : List ι} (h : ∀ i ∈ is, ∀ s, ∃ s', S.step s i = some s') (s : σ) :
    ∃ s', S.run s is = some s' := by
  induction is generalizing s with
  | nil => exact ⟨s, rfl⟩
  | cons i is ih =>
    obtain ⟨hi, his⟩ := List.forall_mem_cons.mp h
    obtain ⟨t, ht⟩ := hi s
    rw [run_cons_of_step ht]
    exact ih his t

/-- Where every event is always enabled, every list of events is a run. -/
theorem exists_run (h : ∀ s i, ∃ s', S.step s i = some s') (s : σ) (is : List ι) :
    ∃ s', S.run s is = some s' :=
  exists_run_of_forall (fun i _ s => h s i) s

/-- Of the events of a kind there is a last one. -/
theorem exists_last_event {p : ι → Prop} {is : List ι} (h : ∃ i ∈ is, p i) :
    ∃ before i after, is = before ++ i :: after ∧ p i ∧ ∀ j ∈ after, ¬ p j := by
  induction is with
  | nil =>
    obtain ⟨i, hi, -⟩ := h
    cases hi
  | cons i is ih =>
    by_cases htail : ∃ j ∈ is, p j
    · obtain ⟨before, j, after, rfl, hj, hafter⟩ := ih htail
      exact ⟨i :: before, j, after, rfl, hj, hafter⟩
    · obtain ⟨j, hj, hp⟩ := h
      obtain rfl | hj := List.mem_cons.mp hj
      · exact ⟨[], j, is, rfl, hp, fun k hk hpk => htail ⟨k, hk, hpk⟩⟩
      · exact absurd ⟨j, hj, hp⟩ htail

/-! ### Conditions on every step of a run -/

/-- Every step of the run from `s` meets `P`, read as a condition on the state before the step
and the event. -/
def Along (S : System σ ι) (P : σ → ι → Prop) : σ → List ι → Prop
  | _, [] => True
  | s, i :: is => P s i ∧ ∀ s', S.step s i = some s' → Along S P s' is

instance decidableAlong {P : σ → ι → Prop} [∀ s i, Decidable (P s i)] :
    (s : σ) → (is : List ι) → Decidable (Along S P s is)
  | _, [] => isTrue trivial
  | s, i :: is =>
    letI : DecidablePred fun s' => Along S P s' is := fun s' => decidableAlong s' is
    inferInstanceAs (Decidable (P s i ∧ ∀ s' ∈ S.step s i, Along S P s' is))

/-- Events that meet `P` in every state. -/
theorem along_of_forall {P : σ → ι → Prop} {s : σ} {is : List ι} (h : ∀ i ∈ is, ∀ t, P t i) :
    Along S P s is := by
  induction is generalizing s with
  | nil => trivial
  | cons i is ih =>
    obtain ⟨hi, his⟩ := List.forall_mem_cons.mp h
    exact ⟨hi s, fun _ _ => ih his⟩

/-- What every step that meets `P` keeps, a run of such steps keeps. -/
theorem run_of_along {I : σ → Prop} {P : σ → ι → Prop}
    (hstep : ∀ {s i s'}, I s → P s i → S.step s i = some s' → I s') {s s' : σ} {is : List ι}
    (hs : I s) (h : Along S P s is) (hrun : S.run s is = some s') : I s' := by
  induction is generalizing s with
  | nil =>
    rw [run_nil, Option.some.injEq] at hrun
    exact hrun ▸ hs
  | cons i is ih =>
    obtain ⟨t, ht, hrest⟩ := Option.bind_eq_some_iff.mp hrun
    exact ih (hstep hs h.1 ht) (h.2 t ht) hrest

/-! ### Invariants -/

/-- `I` holds initially and every step keeps it. -/
structure IsInvariant (S : System σ ι) (I : σ → Prop) : Prop where
  init : I S.init
  step : ∀ {s s' : σ} {i : ι}, I s → S.step s i = some s' → I s'

/-- What every step keeps, a whole run keeps. -/
theorem IsInvariant.run {I : σ → Prop} (hI : IsInvariant S I) {s s' : σ} {is : List ι}
    (hs : I s) (h : S.run s is = some s') : I s' :=
  run_of_along (P := fun _ _ => True) (fun hs _ hstep => hI.step hs hstep) hs
    (along_of_forall fun _ _ _ => trivial) h

/-- An invariant holds in every reachable state. -/
theorem IsInvariant.reachable {I : σ → Prop} (hI : IsInvariant S I) {s : σ}
    (h : S.Reachable s) : I s := by
  obtain ⟨is, his⟩ := h
  exact hI.run hI.init his

/-- What holds after a number of steps, where only the events `p` singles out are counted, a
whole run carries on. -/
theorem run_countP {I : ℕ → σ → Prop} {p : ι → Bool}
    (hstep : ∀ {n s i s'}, I n s → S.step s i = some s' → I (n + if p i then 1 else 0) s')
    {n : ℕ} {s s' : σ} {is : List ι} (hs : I n s) (h : S.run s is = some s') :
    I (n + is.countP p) s' := by
  induction is generalizing n s with
  | nil =>
    rw [run_nil, Option.some.injEq] at h
    exact h ▸ hs
  | cons i is ih =>
    obtain ⟨t, ht, hrun⟩ := Option.bind_eq_some_iff.mp h
    have htail := ih (hstep hs ht) hrun
    rwa [Nat.add_assoc, Nat.add_comm (if p i then 1 else 0), ← List.countP_cons] at htail

/-! ### Erasing detail -/

/-- Seen through `state`, every step of `S` is a step of `T`, or changes nothing. -/
structure Erases {σ' ι' : Type*} (S : System σ ι) (T : System σ' ι') (state : σ → σ')
    (event : ι → Option ι') : Prop where
  init : state S.init = T.init
  step : ∀ {s s' : σ} {i : ι}, S.step s i = some s' →
    (event i = none ∧ state s' = state s) ∨
      ∃ j, event i = some j ∧ T.step (state s) j = some (state s')

section Erases

variable {σ' ι' : Type*} {T : System σ' ι'} {state : σ → σ'} {event : ι → Option ι'}

/-- A run of `S` is one of `T`, without the events that are not seen there. -/
theorem Erases.run (hST : Erases S T state event) {s s' : σ} {is : List ι}
    (h : S.run s is = some s') : T.run (state s) (is.filterMap event) = some (state s') := by
  induction is generalizing s with
  | nil =>
    rw [run_nil, Option.some.injEq] at h
    rw [h]
    rfl
  | cons i is ih =>
    obtain ⟨t, ht, hrun⟩ := Option.bind_eq_some_iff.mp h
    rcases hST.step ht with ⟨hnone, hsame⟩ | ⟨j, hj, hstep⟩
    · rw [List.filterMap_cons_none hnone, ← hsame]
      exact ih hrun
    · rw [List.filterMap_cons_some hj, run_cons, hstep]
      exact ih hrun

theorem Erases.reachable (hST : Erases S T state event) {s : σ} (h : S.Reachable s) :
    T.Reachable (state s) := by
  obtain ⟨is, his⟩ := h
  exact ⟨is.filterMap event, hST.init ▸ hST.run his⟩

/-- An invariant of `T` is one of `S`. -/
theorem Erases.isInvariant {I : σ' → Prop} (hST : Erases S T state event)
    (hI : IsInvariant T I) : IsInvariant S fun s => I (state s) where
  init := hST.init.symm ▸ hI.init
  step hs h := by
    rcases hST.step h with ⟨-, hsame⟩ | ⟨j, -, hstep⟩
    · exact hsame.symm ▸ hs
    · exact hI.step hs hstep

end Erases

/-! ### Runs whose steps meet a condition -/

theorem along_append_iff {P : σ → ι → Prop} {s : σ} {is js : List ι} :
    Along S P s (is ++ js) ↔ Along S P s is ∧ ∀ s', S.run s is = some s' → Along S P s' js := by
  induction is generalizing s with
  | nil =>
    constructor
    · intro h
      refine ⟨trivial, fun s' hs' => ?_⟩
      obtain rfl := Option.some.inj hs'
      exact h
    · exact fun h => h.2 s rfl
  | cons i is ih =>
    constructor
    · rintro ⟨hi, hrest⟩
      refine ⟨⟨hi, fun t ht => (ih.mp (hrest t ht)).1⟩, fun s' hs' => ?_⟩
      obtain ⟨t, ht, hrun⟩ := Option.bind_eq_some_iff.mp hs'
      exact (ih.mp (hrest t ht)).2 s' hrun
    · rintro ⟨⟨hi, hrest⟩, hjs⟩
      refine ⟨hi, fun t ht => ih.mpr ⟨hrest t ht, fun s' hs' => hjs s' ?_⟩⟩
      rw [run_cons, ht]
      exact hs'

/-- What every step that meets `P` keeps unless it is one of those `Q` singles out, a run of such
steps keeps, or there is a first one that `Q` singles out. -/
theorem run_until {I : σ → Prop} {P Q : σ → ι → Prop}
    (hstep : ∀ {s i s'}, I s → P s i → ¬ Q s i → S.step s i = some s' → I s') {s s' : σ}
    {is : List ι} (hs : I s) (halong : Along S P s is) (h : S.run s is = some s') :
    I s' ∨ ∃ before t i after, is = before ++ i :: after ∧ S.run s before = some t ∧ I t ∧
      Q t i ∧ Along S (fun u j => I u ∧ ¬ Q u j) s before := by
  induction is generalizing s with
  | nil =>
    rw [run_nil, Option.some.injEq] at h
    exact .inl (h ▸ hs)
  | cons i is ih =>
    by_cases hQ : Q s i
    · exact .inr ⟨[], s, i, is, rfl, rfl, hs, hQ, trivial⟩
    · obtain ⟨t, ht, hrun⟩ := Option.bind_eq_some_iff.mp h
      refine (ih (hstep hs halong.1 hQ ht) (halong.2 t ht) hrun).imp_right ?_
      rintro ⟨before, u, j, after, rfl, hu, hI, hQ', hbefore⟩
      refine ⟨i :: before, u, j, after, rfl, (run_cons_of_step ht).trans hu, hI, hQ',
        ⟨hs, hQ⟩, fun t' ht' => ?_⟩
      rw [ht] at ht'
      exact Option.some.inj ht' ▸ hbefore

/-- `I` holds initially and every step that meets `P` keeps it. -/
structure IsInvariantUnder (S : System σ ι) (P : σ → ι → Prop) (I : σ → Prop) : Prop where
  init : I S.init
  step : ∀ {s s' : σ} {i : ι}, I s → P s i → S.step s i = some s' → I s'

/-- In a run whose steps all meet `P`, every step meets whatever `P` and the invariant give. -/
theorem IsInvariantUnder.along {P Q : σ → ι → Prop} {I : σ → Prop}
    (hI : IsInvariantUnder S P I) (hQ : ∀ s i, I s → P s i → Q s i) {s : σ} {is : List ι}
    (hs : I s) (h : Along S P s is) : Along S Q s is := by
  induction is generalizing s with
  | nil => trivial
  | cons i is ih => exact ⟨hQ s i hs h.1, fun s' hs' => ih (hI.step hs h.1 hs') (h.2 s' hs')⟩

/-- What an invariant gives for every step holds along every run. -/
theorem IsInvariant.along {Q : σ → ι → Prop} {I : σ → Prop} (hI : IsInvariant S I)
    (hQ : ∀ s i, I s → Q s i) {s : σ} {is : List ι} (hs : I s) : Along S Q s is := by
  induction is generalizing s with
  | nil => trivial
  | cons i is ih => exact ⟨hQ s i hs, fun s' hs' => ih (hI.step hs hs')⟩

/-- Where the invariant makes two conditions on a step the same, they agree along every run, as
long as the invariant is kept by the steps that meet them. -/
theorem IsInvariantUnder.along_iff {P Q : σ → ι → Prop} {I : σ → Prop}
    (hI : IsInvariantUnder S P I) (hPQ : ∀ s i, I s → (P s i ↔ Q s i)) {s : σ} {is : List ι}
    (hs : I s) : Along S P s is ↔ Along S Q s is := by
  induction is generalizing s with
  | nil => exact Iff.rfl
  | cons i is ih =>
    constructor
    · rintro ⟨hP, hrest⟩
      exact ⟨(hPQ s i hs).mp hP, fun s' hs' => (ih (hI.step hs hP hs')).mp (hrest s' hs')⟩
    · rintro ⟨hQ, hrest⟩
      have hP := (hPQ s i hs).mpr hQ
      exact ⟨hP, fun s' hs' => (ih (hI.step hs hP hs')).mpr (hrest s' hs')⟩

/-- In a run whose steps all meet `P`, the invariant holds at the end. -/
theorem IsInvariantUnder.run {P : σ → ι → Prop} {I : σ → Prop} (hI : IsInvariantUnder S P I)
    {s s' : σ} {is : List ι} (hs : I s) (h : Along S P s is) (hrun : S.run s is = some s') :
    I s' :=
  run_of_along hI.step hs h hrun

/-- A property of every state a step of the run leads to holds at its end. -/
theorem Along.run {J : σ → Prop} {s s' : σ} {is : List ι}
    (h : Along S (fun t i => ∀ t', S.step t i = some t' → J t') s is) (hs : J s)
    (hrun : S.run s is = some s') : J s' :=
  run_of_along (fun _ hJ hstep => hJ _ hstep) hs h hrun

/-- A condition that implies another one. -/
theorem Along.mono {P Q : σ → ι → Prop} (hPQ : ∀ s i, P s i → Q s i) {s : σ} {is : List ι}
    (h : Along S P s is) : Along S Q s is := by
  induction is generalizing s with
  | nil => trivial
  | cons i is ih => exact ⟨hPQ s i h.1, fun s' hs' => ih (h.2 s' hs')⟩

/-- Conditions that agree on every step agree along every run. -/
theorem along_congr {P Q : σ → ι → Prop} (h : ∀ s i, P s i ↔ Q s i) (s : σ) (is : List ι) :
    Along S P s is ↔ Along S Q s is := by
  induction is generalizing s with
  | nil => exact Iff.rfl
  | cons i is ih => exact and_congr (h s i) (forall₂_congr fun s' _ => ih s')

/-! ### What a run puts out -/

/-- The outputs of the steps of a run, in order. -/
def outputs {ω : Type*} (S : System σ ι) (out : σ → ι → List ω) : σ → List ι → List ω
  | _, [] => []
  | s, i :: is =>
    out s i ++ match S.step s i with
      | none => []
      | some s' => outputs S out s' is

section Outputs

variable {ω : Type*} {out : σ → ι → List ω} {s s' : σ} {i : ι} {is js : List ι}

theorem outputs_cons_of_step (h : S.step s i = some s') :
    S.outputs out s (i :: is) = out s i ++ S.outputs out s' is := by
  rw [outputs, h]

theorem outputs_append (h : S.run s is = some s') :
    S.outputs out s (is ++ js) = S.outputs out s is ++ S.outputs out s' js := by
  induction is generalizing s with
  | nil =>
    rw [run_nil, Option.some.injEq] at h
    rw [h]
    rfl
  | cons i is ih =>
    obtain ⟨t, ht, hrun⟩ := Option.bind_eq_some_iff.mp h
    rw [List.cons_append, outputs_cons_of_step ht, outputs_cons_of_step ht, ih hrun,
      List.append_assoc]

/-- What relates the state to what has been put out so far is kept by a whole run, up to a step
that is not enabled. -/
theorem outputs_induction {I : σ → List ω → Prop}
    (hstep : ∀ {s i s' os}, I s os → S.step s i = some s' → I s' (os ++ out s i))
    (hstuck : ∀ {s i}, S.step s i = none → out s i = []) {os : List ω} (h : I s os) :
    ∃ t, I t (os ++ S.outputs out s is) := by
  induction is generalizing s os with
  | nil => exact ⟨s, by rwa [outputs, List.append_nil]⟩
  | cons i is ih =>
    cases hs : S.step s i with
    | none => exact ⟨s, by rwa [outputs, hs, hstuck hs, List.append_nil, List.append_nil]⟩
    | some s' =>
      obtain ⟨t, ht⟩ := ih (hstep h hs)
      exact ⟨t, by rwa [outputs_cons_of_step hs, ← List.append_assoc]⟩

/-- Where the events `p` singles out put out one thing each and the others nothing, a run puts out
as many things as it has such events. -/
theorem length_outputs {p : ι → Bool}
    (hout : ∀ {s i s'}, S.step s i = some s' → (out s i).length = if p i then 1 else 0)
    (h : S.run s is = some s') : (S.outputs out s is).length = is.countP p := by
  induction is generalizing s with
  | nil => rfl
  | cons i is ih =>
    obtain ⟨t, ht, hrun⟩ := Option.bind_eq_some_iff.mp h
    rw [outputs_cons_of_step ht, List.length_append, hout ht, ih hrun, List.countP_cons,
      Nat.add_comm]

theorem map_outputs {ω' : Type*} (f : ω → ω') (s : σ) (is : List ι) :
    (S.outputs out s is).map f = S.outputs (fun t j => (out t j).map f) s is := by
  induction is generalizing s with
  | nil => rfl
  | cons i is ih =>
    rw [outputs, outputs, List.map_append]
    refine congrArg (_ ++ ·) ?_
    split
    · rfl
    · exact ih _

/-- What a step of the run puts out. -/
theorem mem_outputs {c : ω} {t : σ} (hrun : S.run s is = some t) (hc : c ∈ out t i) :
    c ∈ S.outputs out s (is ++ i :: js) := by
  rw [outputs_append hrun, outputs]
  exact List.mem_append_right _ (List.mem_append_left _ hc)

/-- Outputs that agree on every step of the run. -/
theorem outputs_congr {out' : σ → ι → List ω} (h : Along S (fun t j => out t j = out' t j) s is) :
    S.outputs out s is = S.outputs out' s is := by
  induction is generalizing s with
  | nil => rfl
  | cons i is ih =>
    rw [outputs, outputs, h.1]
    refine congrArg (_ ++ ·) ?_
    split
    · rfl
    · rename_i t ht
      exact ih (h.2 t ht)

/-- Steps without output. -/
theorem outputs_eq_nil (h : Along S (fun t j => out t j = []) s is) :
    S.outputs out s is = [] := by
  induction is generalizing s with
  | nil => rfl
  | cons i is ih =>
    rw [outputs, h.1, List.nil_append]
    split
    · rfl
    · rename_i t ht
      exact ih (h.2 t ht)

end Outputs

end System

/-! ### What has happened since -/

section Since

variable {ι : Type*} {p q : ι → Prop} {is : List ι} {i : ι}

/-- There has been an event `p`, and no event `q` after it. -/
def Since (p q : ι → Prop) (is : List ι) : Prop :=
  ∃ before i after, is = before ++ i :: after ∧ p i ∧ ∀ j ∈ after, ¬ q j

theorem not_since_nil : ¬ Since p q [] := by
  rintro ⟨before, i, after, hsplit, -⟩
  exact List.append_ne_nil_of_right_ne_nil before (List.cons_ne_nil i after) hsplit.symm

theorem since_concat : Since p q (is ++ [i]) ↔ p i ∨ ¬ q i ∧ Since p q is := by
  constructor
  · rintro ⟨before, j, after, hsplit, hj, hafter⟩
    rcases List.eq_nil_or_concat after with rfl | ⟨after, last, rfl⟩
    · obtain ⟨-, hlast⟩ := List.append_inj' hsplit rfl
      obtain rfl := List.singleton_inj.mp hlast
      exact .inl hj
    · rw [List.concat_eq_append] at hsplit hafter
      rw [← List.cons_append, ← List.append_assoc] at hsplit
      obtain ⟨rfl, hlast⟩ := List.append_inj' hsplit rfl
      obtain rfl := List.singleton_inj.mp hlast
      obtain ⟨hafter, hi⟩ := List.forall_mem_append.mp hafter
      exact .inr ⟨hi i (List.mem_singleton_self i), before, j, after, rfl, hj, hafter⟩
  · rintro (hi | ⟨hi, before, j, after, rfl, hj, hafter⟩)
    · exact ⟨is, i, [], rfl, hi, List.forall_mem_nil _⟩
    · refine ⟨before, j, after ++ [i], ?_, hj, ?_⟩
      · rw [List.append_assoc, List.cons_append]
      · exact List.forall_mem_append.mpr ⟨hafter, List.forall_mem_singleton.mpr hi⟩

/-- What has been since was once. -/
theorem Since.exists (h : Since p q is) : ∃ i ∈ is, p i := by
  obtain ⟨before, i, after, rfl, hi, -⟩ := h
  exact ⟨i, List.mem_append_right before List.mem_cons_self, hi⟩

end Since

end Runs
