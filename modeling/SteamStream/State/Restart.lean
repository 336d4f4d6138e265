import Mathlib.Data.ZMod.Defs
import SteamStream.State.Identity

/-!
# Restarts

A start loads the paired clients, the key, the certificate and the id from the state directory,
and generates what is not there. What it generates it writes before it reads it back, so once a
start has gone through, the next one finds all of it (`Settled`) and writes nothing.
-/

namespace SteamStream.State

open Wire CText Files Runs

/-! ### A whole start -/

/-- `gen_uuid`, from the digits drawn. -/
def genUuid (dist : ℕ → Fin 16) : Bytes :=
  let hex := ascii "0123456789abcdef"
  (ascii "xxxxxxxx-xxxx-4xxx-yxxx-xxxxxxxxxxxx").zipIdx.map fun (c, i) =>
    if c = 120 then hex.getD (dist i) 0
    else if c = 121 then hex.getD (((dist i).val &&& 0x3) ||| 0x8) 0
    else c

/-- The state directory: its own files and those of `clients`. -/
structure ServerDir where
  files : StateDir
  clients : ClientsDir

/-- A start: whether `STEAM_STREAM_ALLOW_NEW_IDENTITY` is set, and what it generates if it has
to. -/
structure Start (Key Cert : Type) where
  allowNew : Bool
  pkey : Key
  x509 : Cert
  dist : ℕ → Fin 16

/-- What `init` has loaded. -/
structure Loaded (Key Cert : Type) where
  identity : Identity Key Cert
  pairedClients : List Bytes

section Start

variable {Key Cert : Type} (format : PemFormat Key Cert) (start : Start Key Cert)

def Start.generated : Generated Key Cert where
  pkey := start.pkey
  x509 := start.x509
  uuid := genUuid start.dist

/-- `AppState::init`, with the clients; `none` when it refuses to start. -/
def Start.init (dir : ServerDir) : Option (Loaded Key Cert) :=
  (State.init format start.allowNew start.generated dir.files).map fun identity =>
    { identity := identity, pairedClients := loadClients dir.clients }

/-- What it does to the directory. -/
def Start.ops (dir : ServerDir) : List (FileOp Bytes UInt8) :=
  initOps format start.allowNew start.generated dir.files

/-- The directory it leaves, when its writes succeed. -/
def Start.after (dir : ServerDir) : ServerDir :=
  { dir with files := perform dir.files (start.ops format dir) }

/-- Starts one after the other: the next one is made if the last one has gone through. -/
def restartSystem (dir : ServerDir) : System ServerDir (Start Key Cert) where
  init := dir
  step dir start := (start.init format dir).map fun _ => start.after format dir

end Start

/-! ### A directory with everything in it -/

section Settled

variable {Key Cert : Type} {format : PemFormat Key Cert} {start : Start Key Cert}
  {dir : ServerDir}

theorem length_genUuid (dist : ℕ → Fin 16) : (genUuid dist).length = 36 := by
  rw [genUuid, List.length_map, List.length_zipIdx]
  rfl

/-- Key, certificate and id are there. -/
structure Settled (files : StateDir) : Prop where
  key : fileOk files keyPath = true
  cert : fileOk files certPath = true
  uuid : fileOk files uuidPath = true

/-- What a start loads from there, whatever it would have generated. -/
def loadedFrom (format : PemFormat Key Cert) (dir : ServerDir) : Loaded Key Cert where
  identity := {
    serverPkey := (dir.files.lookup keyPath).bind format.readPrivateKey
    serverCert := (dir.files.lookup certPath).bind format.readX509
    uuid := (dir.files.lookup uuidPath).getD [] }
  pairedClients := loadClients dir.clients

theorem Settled.inconsistent (h : Settled dir.files) : inconsistent dir.files = false := by
  rw [State.inconsistent, h.key, h.cert]
  rfl

theorem Settled.identityOps (h : Settled dir.files) (generated : Generated Key Cert) :
    identityOps format generated dir.files = [] := by
  simp only [State.identityOps, h.key, h.cert]
  rfl

/-- A start there writes nothing. -/
theorem Settled.ops (h : Settled dir.files) : start.ops format dir = [] := by
  simp only [Start.ops, initOps, h.inconsistent, h.identityOps, perform_nil, uuidOps, h.uuid]
  rfl

theorem Settled.init (h : Settled dir.files) :
    start.init format dir = some (loadedFrom format dir) := by
  simp only [Start.init, State.init, h.inconsistent, h.identityOps, perform_nil, h.uuid]
  rfl

/-! ### The first start -/

/-- Whatever is missing of key and certificate is there after it. -/
private theorem fileOk_identityOps (hformat : format.Lawful) (generated : Generated Key Cert)
    (files : StateDir) :
    fileOk (perform files (identityOps format generated files)) keyPath = true ∧
      fileOk (perform files (identityOps format generated files)) certPath = true := by
  unfold identityOps
  split_ifs with hmissing
  · have hholds : Holds format
        (perform files (writeToDisk format generated.pkey generated.x509)) generated :=
      holds_writeToDisk
    exact ⟨hholds.fileOk_key hformat, hholds.fileOk_cert hformat⟩
  · simpa [perform_nil] using hmissing

/-- Installing the id leaves key and certificate, and afterwards the id is what it returns. -/
private theorem lookup_uuidOps (generated : Generated Key Cert) (huuid : generated.uuid ≠ [])
    (files : StateDir) :
    (perform files (uuidOps generated files)).lookup keyPath = files.lookup keyPath ∧
      (perform files (uuidOps generated files)).lookup certPath = files.lookup certPath ∧
      fileOk (perform files (uuidOps generated files)) uuidPath = true ∧
      ((perform files (uuidOps generated files)).lookup uuidPath).getD [] =
        if fileOk files uuidPath then (files.lookup uuidPath).getD [] else generated.uuid := by
  unfold uuidOps
  split_ifs with hok
  · exact ⟨rfl, rfl, hok, rfl⟩
  · have hlookup : (perform files (writeFile uuidPath generated.uuid)).lookup uuidPath =
        some generated.uuid := by
      rw [writeFile, lookup_perform_install, if_pos rfl]
    refine ⟨?_, ?_, fileOk_of_some hlookup huuid, by rw [hlookup, Option.getD_some]⟩
    · rw [writeFile, lookup_perform_install, if_neg (by decide), if_neg (by decide)]
    · rw [writeFile, lookup_perform_install, if_neg (by decide), if_neg (by decide)]

/-- A start that goes through leaves everything there, and has loaded it. -/
theorem settled_after (hformat : format.Lawful) {loaded : Loaded Key Cert}
    (h : start.init format dir = some loaded) :
    Settled (start.after format dir).files ∧ loaded = loadedFrom format (start.after format dir) := by
  obtain ⟨identity, hidentity, rfl⟩ := Option.map_eq_some_iff.mp h
  have huuid : start.generated.uuid ≠ [] :=
    List.ne_nil_of_length_pos ((length_genUuid start.dist).symm ▸ Nat.succ_pos 35)
  unfold State.init at hidentity
  split_ifs at hidentity with hrefuse
  obtain rfl := Option.some.inj hidentity
  have hfiles : (start.after format dir).files =
      perform (perform dir.files (identityOps format start.generated dir.files))
        (uuidOps start.generated
          (perform dir.files (identityOps format start.generated dir.files))) := by
    rw [Start.after, Start.ops, initOps, if_neg hrefuse]
    exact perform_append
  obtain ⟨hkey, hcert⟩ := fileOk_identityOps hformat start.generated dir.files
  obtain ⟨hkey', hcert', huuid', huuidEq⟩ := lookup_uuidOps start.generated huuid
    (perform dir.files (identityOps format start.generated dir.files))
  rw [← hfiles] at hkey' hcert' huuid' huuidEq
  refine ⟨⟨?_, ?_, huuid'⟩, ?_⟩
  · rwa [fileOk, hkey']
  · rwa [fileOk, hcert']
  · rw [loadedFrom, hkey', hcert', huuidEq]
    rfl

end Settled

/-! ### Later starts -/

section Restarts

variable {Key Cert : Type} (format : PemFormat Key Cert)

/-- The start goes through with what has been loaded before, and generates nothing. -/
def LoadsAgain (loaded : Loaded Key Cert) (dir : ServerDir) (start : Start Key Cert) : Prop :=
  start.init format dir = some loaded ∧ start.ops format dir = []

/-- **The identity is stable.** Once a start has gone through, on whatever directory, any number
of later ones go through, load the same key, certificate, id and clients, and write nothing. -/
theorem restart_stable (hformat : format.Lawful) (dir : ServerDir) (first : Start Key Cert)
    {loaded : Loaded Key Cert} (hfirst : first.init format dir = some loaded)
    (starts : List (Start Key Cert)) :
    (restartSystem format (first.after format dir)).run (first.after format dir) starts =
        some (first.after format dir) ∧
      (restartSystem format (first.after format dir)).Along (LoadsAgain format loaded)
        (first.after format dir) starts := by
  obtain ⟨hsettled, rfl⟩ := settled_after hformat hfirst
  generalize first.after format dir = settled at hsettled ⊢
  have hstep : ∀ start : Start Key Cert,
      (restartSystem format settled).step settled start = some settled := by
    intro start
    change (start.init format settled).map _ = _
    rw [hsettled.init, Option.map_some, Start.after, hsettled.ops]
    rfl
  induction starts with
  | nil => exact ⟨rfl, trivial⟩
  | cons start starts ih =>
    refine ⟨(System.run_cons_of_step (hstep start)).trans ih.1,
      ⟨hsettled.init, hsettled.ops⟩, fun dir' hdir' => ?_⟩
    obtain rfl := Option.some.inj ((hstep start).symm.trans hdir')
    exact ih.2

/-- A start with nothing on disk, and two more. -/
theorem restart_stable_fresh :
    ∃ loaded, (restartSystem pemFiles ((⟨false, ascii "MIIEvQIB", ascii "MIIC6zCC", 0⟩ :
        Start Bytes Bytes).after pemFiles ⟨∅, ∅⟩)).Along (LoadsAgain pemFiles loaded)
      ((⟨false, ascii "MIIEvQIB", ascii "MIIC6zCC", 0⟩ : Start Bytes Bytes).after pemFiles
        ⟨∅, ∅⟩)
      [⟨true, [], [], 1⟩, ⟨false, [], [], 2⟩] :=
  ⟨_, (restart_stable pemFiles pemFiles_lawful ⟨∅, ∅⟩
    ⟨false, ascii "MIIEvQIB", ascii "MIIC6zCC", 0⟩ rfl _).2⟩

end Restarts

end SteamStream.State
