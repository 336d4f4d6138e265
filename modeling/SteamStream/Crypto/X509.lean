import SteamStream.Library.Wire

/-!
# Client certificates

The TLS layer completes the handshake with any client certificate; `get_client_via_ssl` is the
one gate behind `/launch`, `/resume` and `/cancel`. It tries the paired certificates in order
and takes the first one `verification_error` has nothing to say against.

OpenSSL is a parameter: for a store certificate, a presented certificate and the flags it
raises a list of error codes and puts each to the verify callback. What the code relies on is
`OpenSSL.Documented`: a certificate that is neither the trusted one nor signed by it raises
some error that is not about dates.

The callback `openssl_verify_cb` also forgives
`X509_V_ERR_UNABLE_TO_GET_ISSUER_CERT_LOCALLY`, which under `X509_V_FLAG_PARTIAL_CHAIN` is the
only error a leaf of an unknown issuer raises. `authorisesOnlyPaired_iff` says exactly when
that lets an unrelated certificate through.
-/

namespace SteamStream.X509

open Wire

/-! ### OpenSSL -/

/-- A verification error (`X509_V_ERR_*`). -/
abbrev ErrCode := ℤ

/-- `X509_V_OK`. -/
def errOk : ErrCode := 0

/-- `X509_V_ERR_CERT_NOT_YET_VALID`. -/
def errCertNotYetValid : ErrCode := 9

/-- `X509_V_ERR_CERT_HAS_EXPIRED`. -/
def errCertHasExpired : ErrCode := 10

/-- `X509_V_ERR_UNABLE_TO_GET_ISSUER_CERT_LOCALLY`. -/
def errUnableToGetIssuerCertLocally : ErrCode := 20

/-- `X509_V_FLAG_PARTIAL_CHAIN`. -/
def flagPartialChain : ℕ := 0x80000

/-- The part of OpenSSL the verification calls. The store is the one certificate added to it,
`none` when `X509_STORE_add_cert` was handed a null pointer. -/
structure OpenSSL (Cert : Type*) where
  /-- `PEM_read_bio_X509`, `none` for a null certificate. -/
  readPem : Bytes → Option Cert
  /-- The errors `X509_verify_cert` raises, in order. -/
  raised : Option Cert → Cert → ℕ → List ErrCode
  /-- `X509_verify_cert_error_string`. -/
  errorString : ErrCode → Bytes

/-- `X509_verify_cert`: every error goes to the verify callback with `ok = 0`, the first one it
refuses ends the verification. Returns the result and the error left in the context. -/
def verifyCert (cb : ℤ → ErrCode → ℤ) (error : ErrCode) : List ErrCode → ℤ × ErrCode
  | [] => (1, error)
  | e :: es => if cb 0 e = 1 then verifyCert cb e es else (0, e)

theorem verifyCert_eq_one_iff {cb : ℤ → ErrCode → ℤ} (error : ErrCode) {es : List ErrCode} :
    (verifyCert cb error es).1 = 1 ↔ ∀ e ∈ es, cb 0 e = 1 := by
  induction es generalizing error with
  | nil => simp [verifyCert]
  | cons e es ih =>
    rw [verifyCert]
    by_cases h : cb 0 e = 1
    · rw [if_pos h, ih, List.forall_mem_cons]
      exact ⟨fun hes => ⟨h, hes⟩, fun hes => hes.2⟩
    · rw [if_neg h]
      exact iff_of_false Int.zero_ne_one fun hes => h (hes e (List.mem_cons_self ..))

/-! ### Verifying one certificate against another -/

/-- The verify callback: an unknown issuer and wrong dates are accepted, anything else keeps
OpenSSL's own answer. -/
def opensslVerifyCb (ok : ℤ) (errCode : ErrCode) : ℤ :=
  if errCode = errUnableToGetIssuerCertLocally then 1
  else if errCode = errCertNotYetValid ∨ errCode = errCertHasExpired then 1
  else ok

/-- The error is about the validity dates. -/
def IsDateError (e : ErrCode) : Prop := e = errCertNotYetValid ∨ e = errCertHasExpired

instance (e : ErrCode) : Decidable (IsDateError e) := inferInstanceAs (Decidable (_ ∨ _))

/-- The callback forgives dates and an unknown issuer, and nothing else. -/
theorem opensslVerifyCb_zero_eq_one_iff {e : ErrCode} :
    opensslVerifyCb 0 e = 1 ↔ e = errUnableToGetIssuerCertLocally ∨ IsDateError e := by
  unfold opensslVerifyCb IsDateError
  split_ifs with hissuer hdate
  · exact iff_of_true rfl (.inl hissuer)
  · exact iff_of_true rfl (.inr hdate)
  · exact iff_of_false (by decide) (not_or.mpr ⟨hissuer, hdate⟩)

variable {Cert : Type*} (ssl : OpenSSL Cert)

/-- `cert_from_string`: the text is handed to OpenSSL as a C string. -/
def certFromString (cert : Bytes) : Option Cert := ssl.readPem (cString cert)

/-- The error text of the verification, `none` when it succeeds. -/
def verificationError (pairedCert : Option Cert) (untrustedCert : Cert) : Option Bytes :=
  let (err, errCode) :=
    verifyCert opensslVerifyCb errOk (ssl.raised pairedCert untrustedCert flagPartialChain)
  if err = 1 then none else some (ssl.errorString errCode)

theorem verificationError_eq_none_iff {pairedCert : Option Cert} {untrustedCert : Cert} :
    verificationError ssl pairedCert untrustedCert = none ↔
      ∀ e ∈ ssl.raised pairedCert untrustedCert flagPartialChain,
        e = errUnableToGetIssuerCertLocally ∨ IsDateError e := by
  have hcb : (∀ e ∈ ssl.raised pairedCert untrustedCert flagPartialChain,
      opensslVerifyCb 0 e = 1) ↔ ∀ e ∈ ssl.raised pairedCert untrustedCert flagPartialChain,
        e = errUnableToGetIssuerCertLocally ∨ IsDateError e :=
    forall₂_congr fun e _ => opensslVerifyCb_zero_eq_one_iff
  rw [← hcb, ← verifyCert_eq_one_iff errOk, verificationError]
  dsimp only
  split_ifs with h
  · exact iff_of_true rfl h
  · exact iff_of_false not_false h

/-! ### The gate -/

/-- An entry of the paired store: its certificate in PEM. -/
structure PairedClient where
  clientCert : Bytes
  deriving DecidableEq, Repr

/-- The first paired certificate the presented one verifies against; a client without a
certificate matches none. -/
def getClientViaSsl (pairedCerts : List Bytes) (clientCert : Option Cert) :
    Option PairedClient :=
  match clientCert with
  | none => none
  | some cert =>
    pairedCerts.findSome? fun pem =>
      match verificationError ssl (certFromString ssl pem) cert with
      | none => some { clientCert := pem }
      | some _ => none

/-- The errors raised when `cert` is verified against the paired `pem`. -/
def errorsAgainst (pem : Bytes) (cert : Cert) : List ErrCode :=
  ssl.raised (certFromString ssl pem) cert flagPartialChain

/-- `cert` raises at most date errors against the paired `pem`. -/
def VerifiesUpToDates (pem : Bytes) (cert : Cert) : Prop :=
  ∀ e ∈ errorsAgainst ssl pem cert, IsDateError e

/-- The workaround decides: `cert`'s issuer is not in the store of the paired `pem`, and apart
from that `cert` raises at most date errors. -/
def OnlyIssuerMissing (pem : Bytes) (cert : Cert) : Prop :=
  errUnableToGetIssuerCertLocally ∈ errorsAgainst ssl pem cert ∧
    ∀ e ∈ errorsAgainst ssl pem cert, e = errUnableToGetIssuerCertLocally ∨ IsDateError e

/-- The code accepts in exactly two ways. -/
theorem verificationError_certFromString_eq_none_iff {pem : Bytes} {cert : Cert} :
    verificationError ssl (certFromString ssl pem) cert = none ↔
      VerifiesUpToDates ssl pem cert ∨ OnlyIssuerMissing ssl pem cert := by
  rw [verificationError_eq_none_iff]
  constructor
  · intro h
    by_cases hmem : errUnableToGetIssuerCertLocally ∈ errorsAgainst ssl pem cert
    · exact .inr ⟨hmem, h⟩
    · refine .inl fun e he => (h e he).resolve_left ?_
      rintro rfl
      exact hmem he
  · rintro (h | h)
    · exact fun e he => .inr (h e he)
    · exact h.2

/-- The client returned is the first paired certificate that is accepted. -/
theorem getClientViaSsl_eq_some_iff {pairedCerts : List Bytes} {cert : Cert}
    {client : PairedClient} :
    getClientViaSsl ssl pairedCerts (some cert) = some client ↔
      ∃ xs ys, pairedCerts = xs ++ client.clientCert :: ys ∧
        verificationError ssl (certFromString ssl client.clientCert) cert = none ∧
        ∀ x ∈ xs, verificationError ssl (certFromString ssl x) cert ≠ none := by
  simp only [getClientViaSsl, List.findSome?_eq_some_iff]
  constructor
  · rintro ⟨xs, pem, ys, hsplit, hpem, hxs⟩
    cases hv : verificationError ssl (certFromString ssl pem) cert with
    | some text => simp [hv] at hpem
    | none =>
      obtain rfl : client = { clientCert := pem } := by simpa [hv, eq_comm] using hpem
      refine ⟨xs, ys, hsplit, hv, fun x hx hnone => ?_⟩
      simpa [hnone] using hxs x hx
  · rintro ⟨xs, ys, hsplit, hv, hxs⟩
    refine ⟨xs, client.clientCert, ys, hsplit, by rw [hv], fun x hx => ?_⟩
    obtain ⟨text, htext⟩ := Option.ne_none_iff_exists'.mp (hxs x hx)
    rw [htext]

/-! ### Only paired clients -/

/-- What the verification of OpenSSL guarantees, `signedBy c p` saying that `p` issued `c`: a
certificate that is neither the trusted one nor issued by it raises an error that is not
about dates. -/
structure OpenSSL.Documented (signedBy : Cert → Cert → Prop) : Prop where
  rejects : ∀ (store : Option Cert) (cert : Cert),
    (∀ p, store = some p → cert ≠ p ∧ ¬ signedBy cert p) →
      ∃ e ∈ ssl.raised store cert flagPartialChain, ¬ IsDateError e

/-- A returned client is a paired one, the presented certificate is a paired certificate or is
issued by one, and nothing but dates was forgiven. -/
def AuthorisesOnlyPaired (signedBy : Cert → Cert → Prop) (pairedCerts : List Bytes)
    (clientCert : Option Cert) : Prop :=
  ∀ client, getClientViaSsl ssl pairedCerts clientCert = some client →
    client.clientCert ∈ pairedCerts ∧
      ∃ cert, clientCert = some cert ∧ VerifiesUpToDates ssl client.clientCert cert ∧
        ∃ pem ∈ pairedCerts, ∃ p, certFromString ssl pem = some p ∧
          (cert = p ∨ signedBy cert p)

/-- Wherever the workaround would accept the presented certificate, an earlier paired
certificate has already accepted it in earnest. -/
def WorkaroundNeverFirst (pairedCerts : List Bytes) (clientCert : Option Cert) : Prop :=
  ∀ cert, clientCert = some cert → ∀ xs pem ys, pairedCerts = xs ++ pem :: ys →
    OnlyIssuerMissing ssl pem cert → ∃ x ∈ xs, VerifiesUpToDates ssl x cert

variable {ssl}

/-- Date errors are not the unknown-issuer error. -/
private theorem VerifiesUpToDates.not_onlyIssuerMissing {pem : Bytes} {cert : Cert}
    (h : VerifiesUpToDates ssl pem cert) : ¬ OnlyIssuerMissing ssl pem cert :=
  fun hmissing => absurd (h _ hmissing.1) (by decide)

private theorem VerifiesUpToDates.exists_paired {signedBy : Cert → Cert → Prop}
    (hssl : ssl.Documented signedBy) {pem : Bytes} {cert : Cert}
    (h : VerifiesUpToDates ssl pem cert) :
    ∃ p, certFromString ssl pem = some p ∧ (cert = p ∨ signedBy cert p) := by
  by_contra hno
  obtain ⟨e, he, hdate⟩ := hssl.rejects (certFromString ssl pem) cert fun p hp =>
    not_or.mp fun hpaired => hno ⟨p, hp, hpaired⟩
  exact hdate (h e he)

/-- **When only paired clients are authorised.** The gate lets in exactly the paired clients if
and only if the unknown-issuer workaround never decides. -/
theorem authorisesOnlyPaired_iff {signedBy : Cert → Cert → Prop}
    (hssl : ssl.Documented signedBy) (pairedCerts : List Bytes) (clientCert : Option Cert) :
    AuthorisesOnlyPaired ssl signedBy pairedCerts clientCert ↔
      WorkaroundNeverFirst ssl pairedCerts clientCert := by
  constructor
  · -- an entry only the workaround accepts, with no earnest entry before it, is refuted by
    -- looking at the client the loop really returns: it stands no later than that entry
    rintro h cert rfl xs pem ys hsplit hmissing
    have haccept : ∃ x ∈ xs ++ [pem],
        verificationError ssl (certFromString ssl x) cert = none :=
      ⟨pem, by simp, (verificationError_certFromString_eq_none_iff ssl).mpr (.inr hmissing)⟩
    obtain ⟨client, hclient⟩ : ∃ client,
        getClientViaSsl ssl (xs ++ [pem]) (some cert) = some client := by
      obtain ⟨x, hx, hnone⟩ := haccept
      rw [← Option.isSome_iff_exists, getClientViaSsl, List.findSome?_isSome_iff]
      exact ⟨x, hx, by rw [hnone]; rfl⟩
    obtain ⟨as, bs, has, hverified, hbefore⟩ := (getClientViaSsl_eq_some_iff ssl).mp hclient
    have hreturned : getClientViaSsl ssl pairedCerts (some cert) = some client := by
      refine (getClientViaSsl_eq_some_iff ssl).mpr ⟨as, bs ++ ys, ?_, hverified, hbefore⟩
      calc pairedCerts = xs ++ [pem] ++ ys := by rw [hsplit, List.append_assoc]; rfl
        _ = as ++ client.clientCert :: (bs ++ ys) := by rw [has, List.append_assoc]; rfl
    obtain ⟨-, cert', hcert', hdates, -⟩ := h client hreturned
    obtain rfl : cert = cert' := Option.some.inj hcert'
    -- the returned entry is earnest, so it is not `pem` and stands in `xs`
    have hmem : client.clientCert ∈ xs ++ [pem] := by rw [has]; simp
    rcases List.mem_append.mp hmem with hxs | hpem
    · exact ⟨_, hxs, hdates⟩
    · rw [List.mem_singleton] at hpem
      exact absurd hmissing (hpem ▸ hdates.not_onlyIssuerMissing)
  · intro h client hclient
    cases clientCert with
    | none => simp [getClientViaSsl] at hclient
    | some cert =>
      obtain ⟨xs, ys, hsplit, hverified, hbefore⟩ :=
        (getClientViaSsl_eq_some_iff ssl).mp hclient
      have hmem : client.clientCert ∈ pairedCerts := by rw [hsplit]; simp
      have hdates : VerifiesUpToDates ssl client.clientCert cert := by
        rcases (verificationError_certFromString_eq_none_iff ssl).mp hverified with hd | hm
        · exact hd
        · obtain ⟨x, hx, hxd⟩ := h cert rfl xs client.clientCert ys hsplit hm
          exact absurd ((verificationError_certFromString_eq_none_iff ssl).mpr (.inl hxd))
            (hbefore x hx)
      exact ⟨hmem, cert, rfl, hdates, client.clientCert, hmem, hdates.exists_paired hssl⟩

/-! ### Chains of length one

Certificates reduced to what building a chain of length one looks at: whose key they carry and
whose key signed them. -/

/-- A certificate: its subject and its issuer. -/
structure LeafCert where
  subject : UInt8
  issuer : UInt8
  deriving DecidableEq, Repr

/-- `p` issued `c`. -/
def LeafCert.SignedBy (c p : LeafCert) : Prop := c.issuer = p.subject

instance (c p : LeafCert) : Decidable (c.SignedBy p) := inferInstanceAs (Decidable (_ = _))

/-- Verification with a partial chain: the trusted certificate and what it issued pass, another
self-signed certificate is `X509_V_ERR_DEPTH_ZERO_SELF_SIGNED_CERT`, any other leaf has no
issuer in the store. -/
def leafErrors (store : Option LeafCert) (cert : LeafCert) : List ErrCode :=
  if ∃ p ∈ store, cert = p ∨ cert.SignedBy p then []
  else if cert.issuer = cert.subject then [18]
  else [errUnableToGetIssuerCertLocally]

/-- The verification of such certificates, one written as its two bytes. -/
def leafSsl : OpenSSL LeafCert where
  readPem
    | [subject, issuer] => some ⟨subject, issuer⟩
    | _ => none
  raised store cert _ := leafErrors store cert
  errorString e := leBytes 1 e.toNat

theorem leafSsl_documented : leafSsl.Documented LeafCert.SignedBy where
  rejects store cert h := by
    have hno : ¬ ∃ p ∈ store, cert = p ∨ cert.SignedBy p := by
      rintro ⟨p, hp, hcert⟩
      exact hcert.elim (h p hp).1 (h p hp).2
    change ∃ e ∈ leafErrors store cert, ¬ IsDateError e
    rw [leafErrors, if_neg hno]
    by_cases hself : cert.issuer = cert.subject
    · rw [if_pos hself]
      exact ⟨18, List.mem_singleton_self _, by decide⟩
    · rw [if_neg hself]
      exact ⟨errUnableToGetIssuerCertLocally, List.mem_singleton_self _, by decide⟩

/-- One paired self-signed certificate, presented again. -/
theorem authorisesOnlyPaired_iff_self :
    leafSsl.Documented LeafCert.SignedBy ∧
      (AuthorisesOnlyPaired leafSsl LeafCert.SignedBy [[1, 1]] (some ⟨1, 1⟩) ↔
        WorkaroundNeverFirst leafSsl [[1, 1]] (some ⟨1, 1⟩)) :=
  ⟨leafSsl_documented, authorisesOnlyPaired_iff leafSsl_documented [[1, 1]] (some ⟨1, 1⟩)⟩

/-- A leaf signed by an unknown key is authorised as the paired client. -/
theorem not_authorisesOnlyPaired_unknownIssuer :
    leafSsl.Documented LeafCert.SignedBy ∧
      ¬ AuthorisesOnlyPaired leafSsl LeafCert.SignedBy [[1, 1]] (some ⟨2, 3⟩) := by
  refine ⟨leafSsl_documented, fun h => ?_⟩
  have hclient : getClientViaSsl leafSsl [[1, 1]] (some ⟨2, 3⟩) = some ⟨[1, 1]⟩ := by decide
  obtain ⟨-, cert, hcert, hdates, -⟩ := h _ hclient
  obtain rfl : (⟨2, 3⟩ : LeafCert) = cert := Option.some.inj hcert
  exact absurd (hdates errUnableToGetIssuerCertLocally (by decide)) (by decide)

end SteamStream.X509
