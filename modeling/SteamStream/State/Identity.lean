import Mathlib.Tactic.IntervalCases
import SteamStream.Library.Runs
import SteamStream.State.PairedClients

/-!
# The server's identity

The private key and the certificate lie in two files of the state directory. A start that finds
both loads them, one that finds neither generates them together, and one that finds only one of
them refuses, unless `STEAM_STREAM_ALLOW_NEW_IDENTITY` is set.

The files are written through temporaries, but installed by two renames. A start that is cut off
between these leaves the key alone, and no start goes through any more. `recovers_iff` says that
this is the only place to be cut off at that does harm.
-/

namespace SteamStream.State

open Wire CText Files Runs

/-- The files of the state directory. -/
abbrev StateDir := Directory Bytes UInt8

/-- The PEM functions of OpenSSL, as far as the state directory needs them. -/
structure PemFormat (Key Cert : Type) where
  /-- `PEM_write_PrivateKey`. -/
  writePrivateKey : Key → Bytes
  /-- `PEM_write_X509`. -/
  writeX509 : Cert → Bytes
  /-- `PEM_read_bio_PrivateKey`. -/
  readPrivateKey : Bytes → Option Key
  /-- `PEM_read_bio_X509`. -/
  readX509 : Bytes → Option Cert

/-- What is written can be read back. -/
structure PemFormat.Lawful {Key Cert : Type} (format : PemFormat Key Cert) : Prop where
  readPrivateKey_writePrivateKey : ∀ pkey,
    format.readPrivateKey (format.writePrivateKey pkey) = some pkey
  readX509_writeX509 : ∀ x509, format.readX509 (format.writeX509 x509) = some x509
  writePrivateKey_ne_nil : ∀ pkey, format.writePrivateKey pkey ≠ []
  writeX509_ne_nil : ∀ x509, format.writeX509 x509 ≠ []

/-- What one start generates, if it has to: the key, a certificate of it, and the id. -/
structure Generated (Key Cert : Type) where
  pkey : Key
  x509 : Cert
  uuid : Bytes

/-- What `init` ends with: null pointers are `none`. -/
structure Identity (Key Cert : Type) where
  serverPkey : Option Key
  serverCert : Option Cert
  uuid : Bytes

def keyPath : Bytes := ascii "key.pem"

def certPath : Bytes := ascii "cert.pem"

def uuidPath : Bytes := ascii "uuid"

/-- `file_ok`: an empty file counts as absent. -/
def fileOk (dir : StateDir) (path : Bytes) : Bool := (dir.lookup path).any fun data => data ≠ []

section Init

variable {Key Cert : Type} (format : PemFormat Key Cert)

/-- `write_to_disk`: both temporaries first, then both renames. -/
def writeToDisk (pkey : Key) (x509 : Cert) : List (FileOp Bytes UInt8) :=
  [.write (keyPath ++ ascii ".tmp") (format.writePrivateKey pkey),
    .write (certPath ++ ascii ".tmp") (format.writeX509 x509),
    .rename (keyPath ++ ascii ".tmp") keyPath,
    .rename (certPath ++ ascii ".tmp") certPath]

/-- One half of the identity is there, the other is not. -/
def inconsistent (dir : StateDir) : Bool := fileOk dir keyPath != fileOk dir certPath

/-- What a start does about the identity. -/
def identityOps (generated : Generated Key Cert) (dir : StateDir) : List (FileOp Bytes UInt8) :=
  if !fileOk dir keyPath || !fileOk dir certPath then
    writeToDisk format generated.pkey generated.x509
  else []

/-- What a start does about the id. -/
def uuidOps (generated : Generated Key Cert) (dir : StateDir) : List (FileOp Bytes UInt8) :=
  if fileOk dir uuidPath then [] else writeFile uuidPath generated.uuid

/-- All a start does to the directory. -/
def initOps (allowNew : Bool) (generated : Generated Key Cert) (dir : StateDir) :
    List (FileOp Bytes UInt8) :=
  if inconsistent dir && !allowNew then []
  else
    let ops := identityOps format generated dir
    ops ++ uuidOps generated (perform dir ops)

/-- `AppState::init`: the identity, or `none` when it refuses to start. -/
def init (allowNew : Bool) (generated : Generated Key Cert) (dir : StateDir) :
    Option (Identity Key Cert) :=
  if inconsistent dir && !allowNew then none
  else
    let dir := perform dir (identityOps format generated dir)
    some {
      serverPkey := (dir.lookup keyPath).bind format.readPrivateKey
      serverCert := (dir.lookup certPath).bind format.readX509
      uuid := if fileOk dir uuidPath then (dir.lookup uuidPath).getD [] else generated.uuid }

end Init

/-! ### What is in the directory -/

section Contents

variable {Key Cert : Type} (format : PemFormat Key Cert)

/-- Neither file is there. -/
structure Absent (dir : StateDir) : Prop where
  key : dir.lookup keyPath = none
  cert : dir.lookup certPath = none

/-- Both files are there, from one start. -/
structure Holds (dir : StateDir) (generated : Generated Key Cert) : Prop where
  key : dir.lookup keyPath = some (format.writePrivateKey generated.pkey)
  cert : dir.lookup certPath = some (format.writeX509 generated.x509)

/-- The key is there alone. -/
structure KeyOnly (dir : StateDir) : Prop where
  key : fileOk dir keyPath = true
  cert : fileOk dir certPath = false

variable {format} {dir dir' : StateDir} {generated other : Generated Key Cert}

theorem fileOk_of_none {path : Bytes} (h : dir.lookup path = none) : fileOk dir path = false := by
  rw [fileOk, h]
  rfl

theorem fileOk_of_some {path data : Bytes} (h : dir.lookup path = some data) (hne : data ≠ []) :
    fileOk dir path = true := by
  rw [fileOk, h]
  exact decide_eq_true hne

theorem Holds.fileOk_key (h : Holds format dir generated) (hformat : format.Lawful) :
    fileOk dir keyPath = true :=
  fileOk_of_some h.key (hformat.writePrivateKey_ne_nil _)

theorem Holds.fileOk_cert (h : Holds format dir generated) (hformat : format.Lawful) :
    fileOk dir certPath = true :=
  fileOk_of_some h.cert (hformat.writeX509_ne_nil _)

/-- Installing the id touches no other file. -/
theorem lookup_of_cut_uuidOps {d d' : StateDir} (h : Cut (uuidOps generated dir) d d')
    {path : Bytes} (hpath : path ≠ uuidPath) (htmp : path ≠ uuidPath ++ ascii ".tmp") :
    d'.lookup path = d.lookup path := by
  unfold uuidOps at h
  split_ifs at h
  · rw [cut_nil_iff.mp h]
  · rcases lookup_of_cut_install h with hsame | rfl
    · exact hsame path htmp
    · rw [lookup_perform_install, if_neg hpath, if_neg htmp]

theorem Holds.cutOff_uuidOps (h : Holds format dir generated) {d : StateDir} {steps : ℕ}
    {part : Option ℕ} : Holds format (cutOff dir (uuidOps other d) steps part) generated := by
  have hcut : Cut (uuidOps other d) dir (cutOff dir (uuidOps other d) steps part) :=
    cut_iff_cutOff.mpr ⟨steps, part, rfl⟩
  constructor
  · rw [lookup_of_cut_uuidOps hcut (by decide) (by decide), h.key]
  · rw [lookup_of_cut_uuidOps hcut (by decide) (by decide), h.cert]

variable (format dir generated) in
/-- Both temporaries are written. -/
def temporaries : StateDir :=
  (dir.insert (keyPath ++ ascii ".tmp") (format.writePrivateKey generated.pkey)).insert
    (certPath ++ ascii ".tmp") (format.writeX509 generated.x509)

variable (format dir generated) in
/-- The key is installed, the certificate is not. -/
def keyInstalled : StateDir :=
  FileOp.apply (temporaries format dir generated) (.rename (keyPath ++ ascii ".tmp") keyPath)

theorem lookup_temporaries {name : Bytes} :
    (temporaries format dir generated).lookup name =
      if name = certPath ++ ascii ".tmp" then some (format.writeX509 generated.x509)
      else if name = keyPath ++ ascii ".tmp" then some (format.writePrivateKey generated.pkey)
      else dir.lookup name := by
  rw [temporaries, lookup_insert_eq, lookup_insert_eq]

theorem lookup_keyInstalled {name : Bytes} :
    (keyInstalled format dir generated).lookup name =
      if name = keyPath then some (format.writePrivateKey generated.pkey)
      else if name = keyPath ++ ascii ".tmp" then none
      else (temporaries format dir generated).lookup name := by
  have htmp : (temporaries format dir generated).lookup (keyPath ++ ascii ".tmp") =
      some (format.writePrivateKey generated.pkey) := by
    rw [lookup_temporaries, if_neg (by decide), if_pos rfl]
  rw [keyInstalled, lookup_rename_eq htmp]

/-- Past both renames the identity is there. -/
theorem holds_writeToDisk :
    Holds format (perform dir (writeToDisk format generated.pkey generated.x509)) generated := by
  have hperform : perform dir (writeToDisk format generated.pkey generated.x509) =
      FileOp.apply (keyInstalled format dir generated)
        (.rename (certPath ++ ascii ".tmp") certPath) := rfl
  have htmp : (keyInstalled format dir generated).lookup (certPath ++ ascii ".tmp") =
      some (format.writeX509 generated.x509) := by
    rw [lookup_keyInstalled, if_neg (by decide), if_neg (by decide), lookup_temporaries,
      if_pos rfl]
  constructor
  · rw [hperform, lookup_rename_eq htmp, if_neg (by decide), if_neg (by decide),
      lookup_keyInstalled, if_pos rfl]
  · rw [hperform, lookup_rename_eq htmp, if_pos rfl]

/-! ### A start that is cut off -/

variable {steps : ℕ} {part : Option ℕ}

theorem initOps_of_absent (h : Absent dir) :
    initOps format false generated dir =
      writeToDisk format generated.pkey generated.x509 ++
        uuidOps generated (perform dir (writeToDisk format generated.pkey generated.x509)) := by
  have hkey := fileOk_of_none h.key
  have hcert := fileOk_of_none h.cert
  simp only [initOps, inconsistent, identityOps, hkey, hcert]
  rfl

theorem initOps_of_holds (hformat : format.Lawful) (h : Holds format dir generated) :
    initOps format false other dir = uuidOps other dir := by
  have hkey := h.fileOk_key hformat
  have hcert := h.fileOk_cert hformat
  simp only [initOps, inconsistent, identityOps, hkey, hcert]
  rfl

theorem initOps_of_keyOnly (h : KeyOnly dir) : initOps format false generated dir = [] := by
  simp only [initOps, inconsistent, h.key, h.cert]
  rfl

/-- Cut off between the two renames, a start leaves the key alone. -/
theorem keyOnly_cutOff (hformat : format.Lawful) (h : Absent dir) :
    KeyOnly (cutOff dir (initOps format false generated dir) 3 part) := by
  have hcut : cutOff dir (initOps format false generated dir) 3 part =
      keyInstalled format dir generated := by
    rw [initOps_of_absent h]
    rfl
  rw [hcut]
  constructor
  · refine fileOk_of_some ?_ (hformat.writePrivateKey_ne_nil generated.pkey)
    rw [lookup_keyInstalled, if_pos rfl]
  · refine fileOk_of_none ?_
    rw [lookup_keyInstalled, if_neg (by decide), if_neg (by decide), lookup_temporaries,
      if_neg (by decide), if_neg (by decide), h.cert]

/-- Until the first rename only the temporaries change. -/
private theorem lookup_of_cut_temporaries {d' : StateDir} {name keyData certData : Bytes}
    (h : Cut [.write (keyPath ++ ascii ".tmp") keyData,
      .write (certPath ++ ascii ".tmp") certData] dir d')
    (hkey : name ≠ keyPath ++ ascii ".tmp") (hcert : name ≠ certPath ++ ascii ".tmp") :
    d'.lookup name = dir.lookup name := by
  rw [cut_write_cons_iff, cut_write_cons_iff, cut_nil_iff] at h
  rcases h with rfl | ⟨_, -, rfl⟩ | rfl | ⟨_, -, rfl⟩ | rfl
  · rfl
  · rw [lookup_insert_eq, if_neg hkey]
  · rw [lookup_insert_eq, if_neg hkey]
  · rw [lookup_insert_eq, lookup_insert_eq, if_neg hkey, if_neg hcert]
  · rw [lookup_insert_eq, lookup_insert_eq, if_neg hkey, if_neg hcert]

/-- Cut off anywhere else, it leaves nothing or everything. -/
theorem absent_or_holds_cutOff (h : Absent dir) (hsteps : steps ≠ 3) :
    Absent (cutOff dir (initOps format false generated dir) steps part) ∨
      Holds format (cutOff dir (initOps format false generated dir) steps part) generated := by
  rw [initOps_of_absent h]
  rcases lt_or_ge steps 3 with hlt | hge
  · have hcut : Cut [.write (keyPath ++ ascii ".tmp") (format.writePrivateKey generated.pkey),
        .write (certPath ++ ascii ".tmp") (format.writeX509 generated.x509)] dir
        (cutOff dir (writeToDisk format generated.pkey generated.x509 ++ uuidOps generated
          (perform dir (writeToDisk format generated.pkey generated.x509))) steps part) := by
      refine cut_iff_cutOff.mpr ⟨steps, part, ?_⟩
      interval_cases steps <;> cases part <;> rfl
    refine .inl ⟨?_, ?_⟩
    · rw [lookup_of_cut_temporaries hcut (by decide) (by decide), h.key]
    · rw [lookup_of_cut_temporaries hcut (by decide) (by decide), h.cert]
  · obtain ⟨rest, rfl⟩ : ∃ rest, steps = 4 + rest := ⟨steps - 4, by omega⟩
    have hlength : 4 = (writeToDisk format generated.pkey generated.x509).length := rfl
    rw [hlength, cutOff_append]
    exact .inr holds_writeToDisk.cutOff_uuidOps

end Contents

/-! ### Starts that are cut off, one after the other -/

section Runs

variable {Key Cert : Type} (format : PemFormat Key Cert)

/-- A start, and where it is cut off: after that many operations, with some bytes of the next
one if it is a write. -/
structure CutStart (Key Cert : Type) where
  generated : Generated Key Cert
  steps : ℕ
  part : Option ℕ

/-- The directory, and what the starts so far would have generated. -/
structure StartState (Key Cert : Type) where
  dir : StateDir
  starts : List (Generated Key Cert)

/-- Starts that are all cut off, from the empty directory on. -/
def startSystem : System (StartState Key Cert) (CutStart Key Cert) where
  init := ⟨∅, []⟩
  step st start := some {
    dir := cutOff st.dir (initOps format false start.generated st.dir) start.steps start.part
    starts := st.starts ++ [start.generated] }

/-- A start that is not cut off goes through, and loads a key and a certificate that one start
has generated together. -/
def Usable (st : StartState Key Cert) : Prop :=
  ∀ generated : Generated Key Cert, ∃ identity, init format false generated st.dir = some identity ∧
    ∃ start ∈ st.starts ++ [generated],
      identity.serverPkey = some start.pkey ∧ identity.serverCert = some start.x509

/-- The next start recovers from these. -/
def Recovers (starts : List (CutStart Key Cert)) : Prop :=
  ∀ st, (startSystem format).run (startSystem format).init starts = some st → Usable format st

/-- A start that has an identity to generate is not cut off between the two renames. -/
def NotBetweenRenames (st : StartState Key Cert) (start : CutStart Key Cert) : Prop :=
  fileOk st.dir keyPath = false → fileOk st.dir certPath = false → start.steps ≠ 3

variable {format}

/-- Nothing is there, or everything is. -/
def Sound (format : PemFormat Key Cert) (st : StartState Key Cert) : Prop :=
  Absent st.dir ∨ ∃ start ∈ st.starts, Holds format st.dir start

theorem usable_of_sound (hformat : format.Lawful) {st : StartState Key Cert}
    (h : Sound format st) : Usable format st := by
  intro generated
  -- the identity that is loaded, and where it comes from
  obtain ⟨start, hstart, hholds, hconsistent⟩ : ∃ start ∈ st.starts ++ [generated],
      Holds format (perform st.dir (identityOps format generated st.dir)) start ∧
        inconsistent st.dir = false := by
    rcases h with habsent | ⟨start, hstart, hholds⟩
    · have hkey := fileOk_of_none habsent.key
      have hcert := fileOk_of_none habsent.cert
      refine ⟨generated, List.mem_append_right _ (List.mem_singleton_self _), ?_, ?_⟩
      · simp only [identityOps, hkey]
        exact holds_writeToDisk
      · rw [inconsistent, hkey, hcert]
        rfl
    · have hkey := hholds.fileOk_key hformat
      have hcert := hholds.fileOk_cert hformat
      refine ⟨start, List.mem_append_left _ hstart, ?_, ?_⟩
      · simp only [identityOps, hkey, hcert]
        exact hholds
      · rw [inconsistent, hkey, hcert]
        rfl
  have hinit : init format false generated st.dir = some _ := if_neg (by
    rw [hconsistent, Bool.false_and]
    exact Bool.false_ne_true)
  refine ⟨_, hinit, start, hstart, ?_, ?_⟩
  · rw [hholds.key]
    exact hformat.readPrivateKey_writePrivateKey start.pkey
  · rw [hholds.cert]
    exact hformat.readX509_writeX509 start.x509

/-- With the key alone no start goes through. -/
theorem not_usable_of_keyOnly {st : StartState Key Cert} (h : KeyOnly st.dir)
    (generated : Generated Key Cert) : ¬ Usable format st := by
  intro husable
  obtain ⟨identity, hinit, -⟩ := husable generated
  simp only [init, inconsistent, h.key, h.cert] at hinit
  cases hinit

/-- A start that is cut off elsewhere keeps the state sound. -/
theorem sound_step (hformat : format.Lawful) {st st' : StartState Key Cert}
    {start : CutStart Key Cert} (h : Sound format st) (hbetween : NotBetweenRenames st start)
    (hstep : (startSystem format).step st start = some st') : Sound format st' := by
  obtain rfl := Option.some.inj hstep
  rcases h with habsent | ⟨old, hold, hholds⟩
  · have hsteps := hbetween (fileOk_of_none habsent.key) (fileOk_of_none habsent.cert)
    refine (absent_or_holds_cutOff habsent hsteps).imp_right fun hholds => ?_
    exact ⟨start.generated, List.mem_append_right _ (List.mem_singleton_self _), hholds⟩
  · refine .inr ⟨old, List.mem_append_left _ hold, ?_⟩
    change Holds format (cutOff st.dir (initOps format false start.generated st.dir) start.steps
      start.part) old
    rw [initOps_of_holds hformat hholds]
    exact hholds.cutOff_uuidOps

/-- A start that is cut off between the renames leaves the key alone. -/
theorem keyOnly_step (hformat : format.Lawful) {st st' : StartState Key Cert}
    {start : CutStart Key Cert} (h : Sound format st) (hbetween : ¬ NotBetweenRenames st start)
    (hstep : (startSystem format).step st start = some st') : KeyOnly st'.dir := by
  obtain rfl := Option.some.inj hstep
  simp only [NotBetweenRenames, not_forall, not_not] at hbetween
  obtain ⟨hkey, -, hsteps⟩ := hbetween
  rcases h with habsent | ⟨old, -, hholds⟩
  · change KeyOnly (cutOff st.dir (initOps format false start.generated st.dir) start.steps
      start.part)
    rw [hsteps]
    exact keyOnly_cutOff hformat habsent
  · rw [hholds.fileOk_key hformat] at hkey
    cases hkey

/-- And that stays so. -/
theorem keyOnly_run {st st' : StartState Key Cert} {starts : List (CutStart Key Cert)}
    (h : KeyOnly st.dir) (hrun : (startSystem format).run st starts = some st') :
    KeyOnly st'.dir := by
  induction starts generalizing st with
  | nil =>
    obtain rfl := Option.some.inj hrun
    exact h
  | cons start starts ih =>
    refine ih ?_ hrun
    change KeyOnly (cutOff st.dir (initOps format false start.generated st.dir) start.steps
      start.part)
    rw [initOps_of_keyOnly h, cutOff_nil]
    exact h

/-- A start can always be made. -/
theorem exists_run {st : StartState Key Cert} (starts : List (CutStart Key Cert)) :
    ∃ st', (startSystem format).run st starts = some st' :=
  System.exists_run (fun _ _ => ⟨_, rfl⟩) st starts

theorem sound_init : Sound format (startSystem format).init := .inl ⟨rfl, rfl⟩

/-- From a sound state on: no start is cut off between the renames exactly when the state at the
end is usable. -/
private theorem usable_run_iff (hformat : format.Lawful) {st st' : StartState Key Cert}
    {starts : List (CutStart Key Cert)} (h : Sound format st)
    (hrun : (startSystem format).run st starts = some st') :
    (startSystem format).Along NotBetweenRenames st starts ↔ Usable format st' := by
  induction starts generalizing st with
  | nil =>
    obtain rfl := Option.some.inj hrun
    exact iff_of_true trivial (usable_of_sound hformat h)
  | cons start starts ih =>
    obtain ⟨t, ht, hrest⟩ := Option.bind_eq_some_iff.mp hrun
    by_cases hbetween : NotBetweenRenames st start
    · rw [← ih (sound_step hformat h hbetween ht) hrest]
      constructor
      · exact fun halong => halong.2 t ht
      · intro halong
        refine ⟨hbetween, fun t' ht' => ?_⟩
        obtain rfl := Option.some.inj (ht.symm.trans ht')
        exact halong
    · have hkey := keyOnly_run (keyOnly_step hformat h hbetween ht) hrest
      exact iff_of_false (fun halong => hbetween halong.1)
        (not_usable_of_keyOnly hkey start.generated)

/-- **When a start recovers.** After any number of starts that are cut off somewhere, the next
one goes through with a matching pair if and only if none was cut off between the renames of an
identity it generated. -/
theorem recovers_iff (hformat : format.Lawful) (starts : List (CutStart Key Cert)) :
    (startSystem format).Along NotBetweenRenames (startSystem format).init starts ↔
      Recovers format starts := by
  obtain ⟨st, hrun⟩ : ∃ st, (startSystem format).run (startSystem format).init starts = some st :=
    exists_run starts
  rw [usable_run_iff hformat sound_init hrun]
  constructor
  · intro husable st' hrun'
    obtain rfl := Option.some.inj (hrun.symm.trans hrun')
    exact husable
  · exact fun hrecovers => hrecovers st hrun

/-! ### Between the renames -/

/-- The text in front of the body of a PEM file. -/
def pemHeader (label : Bytes) : Bytes := ascii "-----BEGIN " ++ label ++ ascii "-----\n"

/-- The text behind it. -/
def pemFooter (label : Bytes) : Bytes := ascii "\n-----END " ++ label ++ ascii "-----\n"

/-- A PEM file with the given body. -/
def pemText (label body : Bytes) : Bytes := pemHeader label ++ body ++ pemFooter label

/-- The body of a PEM file. -/
def pemBody (label text : Bytes) : Option Bytes :=
  let body := (text.drop (pemHeader label).length).take
    (text.length - (pemHeader label).length - (pemFooter label).length)
  if text = pemText label body then some body else none

theorem pemBody_pemText (label body : Bytes) : pemBody label (pemText label body) = some body := by
  have hbody : ((pemText label body).drop (pemHeader label).length).take
      ((pemText label body).length - (pemHeader label).length - (pemFooter label).length) =
      body := by
    have hlength : (pemText label body).length - (pemHeader label).length -
        (pemFooter label).length = body.length := by
      rw [pemText, List.length_append, List.length_append]
      omega
    rw [hlength, pemText, List.append_assoc, List.drop_left, List.take_left]
  simp only [pemBody, hbody, if_true]

/-- Keys and certificates, known by the body of their PEM files. -/
def pemFiles : PemFormat Bytes Bytes where
  writePrivateKey := pemText (ascii "PRIVATE KEY")
  writeX509 := pemText (ascii "CERTIFICATE")
  readPrivateKey := pemBody (ascii "PRIVATE KEY")
  readX509 := pemBody (ascii "CERTIFICATE")

theorem pemFiles_lawful : pemFiles.Lawful where
  readPrivateKey_writePrivateKey := pemBody_pemText _
  readX509_writeX509 := pemBody_pemText _
  writePrivateKey_ne_nil _ h := absurd (List.append_eq_nil_iff.mp h).2 (by decide)
  writeX509_ne_nil _ h := absurd (List.append_eq_nil_iff.mp h).2 (by decide)

/-- An identity. -/
def someGenerated : Generated Bytes Bytes where
  pkey := ascii "MIIEvQIBADANBgkqhkiG9w0BAQEFAASC"
  x509 := ascii "MIIC6zCCAdOgAwIBAgIBATANBgkqhkiG"
  uuid := ascii "00000000-0000-4000-8000-000000000000"

/-- The first start is cut off between the renames: the next one refuses. -/
theorem not_recovers_betweenRenames : ¬ Recovers pemFiles [⟨someGenerated, 3, none⟩] :=
  fun hrecovers =>
    not_usable_of_keyOnly (keyOnly_cutOff pemFiles_lawful ⟨rfl, rfl⟩) someGenerated
      (hrecovers _ rfl)

/-- What `recovers_iff` says of a start that is cut off while it writes the certificate, and one
that is cut off behind the renames. -/
theorem recovers_iff_twice :
    (startSystem pemFiles).Along NotBetweenRenames (startSystem pemFiles).init
        [⟨someGenerated, 1, some 20⟩, ⟨someGenerated, 4, none⟩] ↔
      Recovers pemFiles [⟨someGenerated, 1, some 20⟩, ⟨someGenerated, 4, none⟩] :=
  recovers_iff pemFiles_lawful _

end Runs

end SteamStream.State
