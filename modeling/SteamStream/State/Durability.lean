import SteamStream.Library.Runs
import SteamStream.State.PairedClients

/-!
# Paired clients across restarts and crashes

A restart forgets the memory and loads the directory. `Durable` says of one call that a restart
after it finds what the memory held, and that a crash inside of it leaves what the memory held
before the call or after it. Writing through a temporary gives the second as soon as the first
holds (`durable_iff_agrees`).

The first fails for a certificate that was loaded from a file of another name: removing the
client deletes the file its hash names, and the next start pairs it again. `KeepsFiles` is the
exact condition on a call, and it holds of every call on a directory that only ever held files
named by the hash of their content (`keepsFiles_of_named`).
-/

namespace SteamStream.State

open Wire CText Files Runs

/-- A call of `add_paired_client` or of `remove_paired_client`. -/
inductive StoreEvent
  | add (clientCert : Bytes)
  | remove (clientCert : Bytes)
  deriving DecidableEq, Repr

section

variable (hash : Bytes → ℕ)

/-- What the call does to the directory. -/
def StoreEvent.ops : StoreEvent → List (FileOp Bytes UInt8)
  | .add clientCert => addOps hash clientCert
  | .remove clientCert => removeOps hash clientCert

/-- The store after the call. -/
def ClientStore.after (store : ClientStore) : StoreEvent → ClientStore
  | .add clientCert => store.addPairedClient hash clientCert
  | .remove clientCert => store.removePairedClient hash clientCert

/-- The store, started on a directory. -/
def storeSystem (dir : ClientsDir) : System ClientStore StoreEvent where
  init := ClientStore.init dir
  step store event := some (store.after hash event)

/-- `init` loads exactly these certificates. -/
def LoadsExactly (dir : ClientsDir) (pairedClients : List Bytes) : Prop :=
  ∀ c, c ∈ (ClientStore.init dir).pairedClients ↔ c ∈ pairedClients

/-- A restart finds what the memory holds. -/
def ClientStore.Agrees (store : ClientStore) : Prop := LoadsExactly store.dir store.pairedClients

/-- A restart after the call finds what the memory holds, and one after a crash inside of it
what the memory held before or after. -/
def Durable (store : ClientStore) (event : StoreEvent) : Prop :=
  (store.after hash event).Agrees ∧
    ∀ dir', Cut (event.ops hash) store.dir dir' →
      LoadsExactly dir' store.pairedClients ∨
        LoadsExactly dir' (store.after hash event).pairedClients

/-- If the file of the certificate holds another one, so does a file of another name. -/
def HoldsNoOther (dir : ClientsDir) (clientCert : Bytes) : Prop :=
  ∀ c, c ≠ [] → c ≠ clientCert → dir.lookup (clientFile hash clientCert) = some c →
    HeldElsewhere dir (clientFile hash clientCert) c

/-- The calls that keep memory and directory in agreement. A certificate that is removed is in
no file of another name. -/
def KeepsFiles (store : ClientStore) : StoreEvent → Prop
  | .add clientCert => clientCert ≠ [] ∧ HoldsNoOther hash store.dir clientCert
  | .remove clientCert =>
    (clientCert ≠ [] → ¬ HeldElsewhere store.dir (clientFile hash clientCert) clientCert) ∧
      HoldsNoOther hash store.dir clientCert

end

/-! ### One call -/

section Step

variable {hash : Bytes → ℕ} {store : ClientStore} {event : StoreEvent}

theorem dir_after : (store.after hash event).dir = perform store.dir (event.ops hash) := by
  cases event <;> rfl

/-- An addition keeps the agreement exactly when it meets the condition. -/
private theorem agrees_add_iff (hagrees : store.Agrees) {clientCert : Bytes} :
    (store.addPairedClient hash clientCert).Agrees ↔
      KeepsFiles hash store (.add clientCert) := by
  have hloaded : ∀ c, c ∈ store.pairedClients ↔ c ≠ [] ∧
      (store.dir.lookup (clientFile hash clientCert) = some c ∨
        HeldElsewhere store.dir (clientFile hash clientCert) c) := fun c =>
    (hagrees c).symm.trans (mem_loadClients_iff_heldElsewhere isPem_clientFile)
  have hafter : (store.addPairedClient hash clientCert).Agrees ↔
      ∀ c, (c ≠ [] ∧ (c = clientCert ∨
        HeldElsewhere store.dir (clientFile hash clientCert) c)) ↔
          c ∈ store.pairedClients ∨ c = clientCert :=
    forall_congr' fun c => iff_congr mem_loadClients_addOps (by
      rw [ClientStore.addPairedClient, List.mem_append, List.mem_singleton])
  rw [hafter]
  constructor
  · intro h
    refine ⟨((h clientCert).mpr (.inr rfl)).1, fun c hne hc hlookup => ?_⟩
    have hmem := (hloaded c).mpr ⟨hne, .inl hlookup⟩
    exact ((h c).mpr (.inl hmem)).2.resolve_left hc
  · rintro ⟨hcert, hother⟩ c
    rw [hloaded c]
    constructor
    · rintro ⟨hne, rfl | hheld⟩
      · exact .inr rfl
      · exact .inl ⟨hne, .inr hheld⟩
    · rintro (⟨hne, hlookup | hheld⟩ | rfl)
      · by_cases hc : c = clientCert
        · exact ⟨hne, .inl hc⟩
        · exact ⟨hne, .inr (hother c hne hc hlookup)⟩
      · exact ⟨hne, .inr hheld⟩
      · exact ⟨hcert, .inl rfl⟩

/-- A removal keeps the agreement exactly when it meets the condition. -/
private theorem agrees_remove_iff (hagrees : store.Agrees) {clientCert : Bytes} :
    (store.removePairedClient hash clientCert).Agrees ↔
      KeepsFiles hash store (.remove clientCert) := by
  have hloaded : ∀ c, c ∈ store.pairedClients ↔ c ≠ [] ∧
      (store.dir.lookup (clientFile hash clientCert) = some c ∨
        HeldElsewhere store.dir (clientFile hash clientCert) c) := fun c =>
    (hagrees c).symm.trans (mem_loadClients_iff_heldElsewhere isPem_clientFile)
  have hafter : (store.removePairedClient hash clientCert).Agrees ↔
      ∀ c, (c ≠ [] ∧ HeldElsewhere store.dir (clientFile hash clientCert) c) ↔
        c ∈ store.pairedClients ∧ c ≠ clientCert :=
    forall_congr' fun c => iff_congr mem_loadClients_removeOps (by
      rw [ClientStore.removePairedClient, List.mem_filter, decide_eq_true_eq])
  rw [hafter]
  constructor
  · intro h
    refine ⟨fun hne hheld => ((h clientCert).mp ⟨hne, hheld⟩).2 rfl,
      fun c hne hc hlookup => ?_⟩
    exact ((h c).mpr ⟨(hloaded c).mpr ⟨hne, .inl hlookup⟩, hc⟩).2
  · rintro ⟨hgone, hother⟩ c
    rw [hloaded c]
    constructor
    · rintro ⟨hne, hheld⟩
      refine ⟨⟨hne, .inr hheld⟩, ?_⟩
      rintro rfl
      exact hgone hne hheld
    · rintro ⟨⟨hne, hlookup | hheld⟩, hc⟩
      · exact ⟨hne, hother c hne hc hlookup⟩
      · exact ⟨hne, hheld⟩

theorem agrees_after_iff (hagrees : store.Agrees) :
    (store.after hash event).Agrees ↔ KeepsFiles hash store event := by
  cases event with
  | add clientCert => exact agrees_add_iff hagrees
  | remove clientCert => exact agrees_remove_iff hagrees

/-- A crash inside a call loads what is loaded before it or after it. -/
theorem loads_of_cut {dir' : ClientsDir} (h : Cut (event.ops hash) store.dir dir') :
    (∀ c, c ∈ loadClients dir' ↔ c ∈ loadClients store.dir) ∨
      dir' = (store.after hash event).dir := by
  cases event with
  | add clientCert =>
    rcases lookup_of_cut_install h with hsame | rfl
    · refine .inl fun c => mem_loadClients_congr fun name hpem => hsame name ?_
      rintro rfl
      rw [isPem_append_tmp] at hpem
      cases hpem
    · exact .inr rfl
  | remove clientCert =>
    rcases cut_remove_cons_iff.mp h with rfl | h
    · exact .inl fun _ => Iff.rfl
    · exact .inr (cut_nil_iff.mp h)

/-- Where memory and directory agree, a call is durable as soon as they agree after it. -/
theorem durable_iff_agrees (hagrees : store.Agrees) :
    Durable hash store event ↔ (store.after hash event).Agrees := by
  constructor
  · exact And.left
  · intro hafter
    refine ⟨hafter, fun dir' hcut => ?_⟩
    rcases loads_of_cut hcut with hsame | rfl
    · exact .inl fun c => (hsame c).trans (hagrees c)
    · exact .inr hafter

end Step

/-! ### Runs -/

section Runs

variable (hash : Bytes → ℕ) (dir : ClientsDir)

theorem agrees_isInvariantUnder :
    System.IsInvariantUnder (storeSystem hash dir) (KeepsFiles hash) ClientStore.Agrees where
  init _ := Iff.rfl
  step hagrees hkeeps hstep := by
    obtain rfl := Option.some.inj hstep
    exact (agrees_after_iff hagrees).mpr hkeeps

/-- **When the paired clients survive a restart.** In a run of calls from any directory, every
call is durable if and only if no call adds an empty certificate, removes one that a file of
another name holds, or overwrites or deletes the only file of another certificate. -/
theorem durable_along_iff (events : List StoreEvent) :
    (storeSystem hash dir).Along (KeepsFiles hash) (storeSystem hash dir).init events ↔
      (storeSystem hash dir).Along (Durable hash) (storeSystem hash dir).init events := by
  refine (agrees_isInvariantUnder hash dir).along_iff (fun store event hagrees => ?_)
    (agrees_isInvariantUnder hash dir).init
  rw [durable_iff_agrees hagrees, agrees_after_iff hagrees]

/-- A client's certificate in a file its hash does not name. -/
def copiedDir : ClientsDir := AList.singleton (ascii "moonlight.pem") (ascii "CERT")

/-- Removing that client does not survive a restart. -/
theorem not_durable_copied :
    ¬ (storeSystem (fun _ => 7) copiedDir).Along (Durable fun _ => 7)
      (storeSystem (fun _ => 7) copiedDir).init [.remove (ascii "CERT")] := by
  rintro ⟨⟨hagrees, -⟩, -⟩
  have hloaded : ascii "CERT" ∈ loadClients copiedDir := by decide
  have hmem := (hagrees (ascii "CERT")).mp hloaded
  exact absurd hmem (by decide)

end Runs

/-! ### Directories the server has written itself -/

section Named

variable {hash : Bytes → ℕ} {store : ClientStore} {event : StoreEvent}

/-- Every `.pem` file is named by the hash of its content. -/
def Named (hash : Bytes → ℕ) (dir : ClientsDir) : Prop :=
  ∀ name c, isPem name = true → dir.lookup name = some c → name = clientFile hash c

/-- The certificate of a call is not empty. -/
def StoreEvent.NonEmpty : StoreEvent → Prop
  | .add clientCert => clientCert ≠ []
  | .remove clientCert => clientCert ≠ []

theorem not_heldElsewhere_of_named {c : Bytes} (hnamed : Named hash store.dir) :
    ¬ HeldElsewhere store.dir (clientFile hash c) c :=
  fun ⟨name, hne, hpem, hlookup⟩ => hne (hnamed name c hpem hlookup)

/-- On such a directory a call meets the condition, when no two certificates share a name. -/
theorem keepsFiles_of_named (hinj : Function.Injective (clientFile hash))
    (hnamed : Named hash store.dir) (hevent : event.NonEmpty) :
    KeepsFiles hash store event := by
  have hother : ∀ clientCert, HoldsNoOther hash store.dir clientCert :=
    fun clientCert c _ hc hlookup =>
      absurd (hinj (hnamed _ c isPem_clientFile hlookup)).symm hc
  cases event with
  | add clientCert => exact ⟨hevent, hother clientCert⟩
  | remove clientCert => exact ⟨fun _ => not_heldElsewhere_of_named hnamed, hother clientCert⟩

/-- And a call keeps the directory so. -/
theorem named_after (hnamed : Named hash store.dir) : Named hash (store.after hash event).dir := by
  intro name c hpem hlookup
  rw [dir_after] at hlookup
  cases event with
  | add clientCert =>
    rw [StoreEvent.ops, addOps, lookup_perform_writeFile hpem] at hlookup
    split_ifs at hlookup with hname
    · rw [hname, Option.some.inj hlookup]
    · exact hnamed name c hpem hlookup
  | remove clientCert =>
    rw [StoreEvent.ops, removeOps, perform_cons, perform_nil, FileOp.apply,
      lookup_erase_eq] at hlookup
    split_ifs at hlookup
    exact hnamed name c hpem hlookup

/-- So does a whole run, and every call of it is durable. -/
theorem durable_along_of_named (hinj : Function.Injective (clientFile hash))
    (hnamed : Named hash store.dir) (hagrees : store.Agrees) {dir : ClientsDir}
    {events : List StoreEvent} (hevents : ∀ event ∈ events, event.NonEmpty) :
    (storeSystem hash dir).Along (Durable hash) store events := by
  induction events generalizing store with
  | nil => trivial
  | cons event events ih =>
    obtain ⟨hevent, hevents⟩ := List.forall_mem_cons.mp hevents
    have hafter := (agrees_after_iff hagrees).mpr (keepsFiles_of_named hinj hnamed hevent)
    refine ⟨(durable_iff_agrees hagrees).mpr hafter, fun store' hstep => ?_⟩
    obtain rfl := Option.some.inj hstep
    exact ih (named_after hnamed) hafter hevents

end Named

end SteamStream.State
