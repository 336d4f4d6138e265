import SteamStream.Library.CText
import SteamStream.Library.Files

/-!
# The paired clients

The certificates of the paired clients are kept in memory and, one file each, in the directory
`clients` of the state directory. `init` loads every `.pem` file there, whatever its name;
`add_paired_client` and `remove_paired_client` know a certificate's file by the hash of its
text.
-/

namespace SteamStream.State

open Wire CText Files

/-- The directory `clients`. -/
abbrev ClientsDir := Directory Bytes UInt8

/-- `path::extension` of a file name: a dot in front of the name does not start one. -/
def extension (name : Bytes) : Bytes :=
  let ext := (name.reverse.takeWhile (· ≠ 46)).reverse
  if ext.length + 1 < name.length then 46 :: ext else []

/-- A file `init` loads. -/
def isPem (name : Bytes) : Bool := extension name = ascii ".pem"

/-- The certificates `init` loads, in the order the directory lists their files. -/
def loadClients (dir : ClientsDir) : List Bytes :=
  (dir.entries.filter fun file => isPem file.1 ∧ file.2 ≠ []).map Sigma.snd

/-- `write_file`. -/
def writeFile (path data : Bytes) : List (FileOp Bytes UInt8) :=
  install (path ++ ascii ".tmp") path data

/-- The paired clients, in memory and on disk. -/
structure ClientStore where
  pairedClients : List Bytes
  dir : ClientsDir
  deriving DecidableEq

/-- What `init` makes of the directory. -/
def ClientStore.init (dir : ClientsDir) : ClientStore where
  pairedClients := loadClients dir
  dir := dir

section Store

variable (hash : Bytes → ℕ)

/-- The file of a certificate, named by its `std::hash`. -/
def clientFile (clientCert : Bytes) : Bytes := toDecimal (hash clientCert) ++ ascii ".pem"

/-- What `add_paired_client` does to the directory. -/
def addOps (clientCert : Bytes) : List (FileOp Bytes UInt8) :=
  writeFile (clientFile hash clientCert) clientCert

/-- What `remove_paired_client` does to the directory. -/
def removeOps (clientCert : Bytes) : List (FileOp Bytes UInt8) :=
  [.remove (clientFile hash clientCert)]

/-- `add_paired_client`. -/
def ClientStore.addPairedClient (store : ClientStore) (clientCert : Bytes) : ClientStore where
  pairedClients := store.pairedClients ++ [clientCert]
  dir := perform store.dir (addOps hash clientCert)

/-- `remove_paired_client`. -/
def ClientStore.removePairedClient (store : ClientStore) (clientCert : Bytes) : ClientStore where
  pairedClients := store.pairedClients.filter (· ≠ clientCert)
  dir := perform store.dir (removeOps hash clientCert)

end Store

/-! ### Names -/

/-- A name ends in `.pem` behind at least one character. -/
theorem isPem_append_pem {stem : Bytes} (h : stem ≠ []) : isPem (stem ++ ascii ".pem") = true := by
  have hrev : (stem ++ ascii ".pem").reverse = 109 :: 101 :: 112 :: 46 :: stem.reverse := by
    rw [List.reverse_append]
    rfl
  have hlen : 0 < stem.length := List.length_pos_iff.mpr h
  have htake : ((stem ++ ascii ".pem").reverse.takeWhile (· ≠ 46)).reverse =
      [112, 101, 109] := by
    rw [hrev]
    rfl
  have hlt : ([112, 101, 109] : Bytes).length + 1 < (stem ++ ascii ".pem").length := by
    rw [List.length_append]
    change 4 < stem.length + 4
    omega
  simp only [isPem, extension, htake]
  rw [if_pos hlt]
  rfl

/-- A temporary is not loaded. -/
theorem isPem_append_tmp (name : Bytes) : isPem (name ++ ascii ".tmp") = false := by
  have hrev : (name ++ ascii ".tmp").reverse = 112 :: 109 :: 116 :: 46 :: name.reverse := by
    rw [List.reverse_append]
    rfl
  have htake : ((name ++ ascii ".tmp").reverse.takeWhile (· ≠ 46)).reverse =
      [116, 109, 112] := by
    rw [hrev]
    rfl
  simp only [isPem, extension, htake]
  split_ifs <;> rfl

theorem isPem_clientFile {hash : Bytes → ℕ} {clientCert : Bytes} :
    isPem (clientFile hash clientCert) = true :=
  isPem_append_pem (toDecimal_ne_nil _)

/-! ### What is loaded -/

section Loaded

variable {dir dir' : ClientsDir} {clientCert c : Bytes} {hash : Bytes → ℕ}

/-- A certificate is loaded when a `.pem` file holds it, unless it is empty. -/
theorem mem_loadClients :
    c ∈ loadClients dir ↔
      c ≠ [] ∧ ∃ name, isPem name = true ∧ dir.lookup name = some c := by
  simp only [loadClients, List.mem_map, List.mem_filter, decide_eq_true_eq]
  constructor
  · rintro ⟨⟨name, c⟩, ⟨hmem, hpem, hne⟩, rfl⟩
    exact ⟨hne, name, hpem, AList.mem_lookup_iff.mpr hmem⟩
  · rintro ⟨hne, name, hpem, hlookup⟩
    exact ⟨⟨name, c⟩, ⟨AList.mem_lookup_iff.mp hlookup, hpem, hne⟩, rfl⟩

/-- Directories with the same `.pem` files load the same certificates. -/
theorem mem_loadClients_congr
    (h : ∀ name, isPem name = true → dir'.lookup name = dir.lookup name) :
    c ∈ loadClients dir' ↔ c ∈ loadClients dir := by
  rw [mem_loadClients, mem_loadClients]
  refine and_congr_right fun _ => exists_congr fun name => and_congr_right fun hpem => ?_
  rw [h name hpem]

/-- Writing a `.pem` file. -/
theorem lookup_perform_writeFile {path data name : Bytes} (hpem : isPem name = true) :
    (perform dir (writeFile path data)).lookup name =
      if name = path then some data else dir.lookup name := by
  have htmp : name ≠ path ++ ascii ".tmp" := by
    rintro rfl
    rw [isPem_append_tmp] at hpem
    cases hpem
  rw [writeFile, lookup_perform_install, if_neg htmp]

/-- The certificates some other `.pem` file than the named one holds. -/
def HeldElsewhere (dir : ClientsDir) (name c : Bytes) : Prop :=
  ∃ name', name' ≠ name ∧ isPem name' = true ∧ dir.lookup name' = some c

theorem mem_loadClients_addOps :
    c ∈ loadClients (perform dir (addOps hash clientCert)) ↔
      c ≠ [] ∧ (c = clientCert ∨ HeldElsewhere dir (clientFile hash clientCert) c) := by
  rw [mem_loadClients]
  refine and_congr_right fun _ => ?_
  constructor
  · rintro ⟨name, hpem, hlookup⟩
    rw [addOps, lookup_perform_writeFile hpem] at hlookup
    split_ifs at hlookup with hname
    · exact .inl (Option.some.inj hlookup).symm
    · exact .inr ⟨name, hname, hpem, hlookup⟩
  · rintro (rfl | ⟨name, hname, hpem, hlookup⟩)
    · refine ⟨clientFile hash c, isPem_clientFile, ?_⟩
      rw [addOps, lookup_perform_writeFile isPem_clientFile, if_pos rfl]
    · refine ⟨name, hpem, ?_⟩
      rw [addOps, lookup_perform_writeFile hpem, if_neg hname, hlookup]

theorem mem_loadClients_removeOps :
    c ∈ loadClients (perform dir (removeOps hash clientCert)) ↔
      c ≠ [] ∧ HeldElsewhere dir (clientFile hash clientCert) c := by
  rw [mem_loadClients]
  refine and_congr_right fun _ => exists_congr fun name => ?_
  rw [removeOps, perform_cons, perform_nil, FileOp.apply, lookup_erase_eq]
  split_ifs with hname
  · exact iff_of_false (fun h => h.2.elim) fun h => h.1 hname
  · exact (and_iff_right hname).symm

/-- What is loaded is in the file of the given name or elsewhere. -/
theorem mem_loadClients_iff_heldElsewhere {name : Bytes} (hpem : isPem name = true) :
    c ∈ loadClients dir ↔
      c ≠ [] ∧ (dir.lookup name = some c ∨ HeldElsewhere dir name c) := by
  rw [mem_loadClients]
  refine and_congr_right fun _ => ?_
  constructor
  · rintro ⟨name', hpem', hlookup⟩
    by_cases hname : name' = name
    · exact .inl (hname ▸ hlookup)
    · exact .inr ⟨name', hname, hpem', hlookup⟩
  · rintro (hlookup | ⟨name', -, hpem', hlookup⟩)
    · exact ⟨name, hpem, hlookup⟩
    · exact ⟨name', hpem', hlookup⟩

end Loaded

end SteamStream.State
