import SteamStream.Crypto.Hex
import SteamStream.Rest.Helpers

/-!
# The pairing handshake

The server's side of the four phases, as functions of what the client sends and what the cache
entry of the client holds. Hash, cipher, signature and certificate parsing are parameters
(`PairCrypto`); the key is derived from the salt and the PIN the user types in.
-/

namespace SteamStream.Pairing

open Wire CText Crypto Rest

/-- The primitives of the handshake. `sha256` and the keys are texts, as the source's are. -/
structure PairCrypto (Cert : Type) where
  /-- The digest in hexadecimal. -/
  sha256 : Bytes → Bytes
  /-- `aes_encrypt_ecb` without padding: plaintext, key. -/
  aesEncryptEcb : Bytes → Bytes → Bytes
  /-- `aes_decrypt_ecb`: ciphertext, key. -/
  aesDecryptEcb : Bytes → Bytes → Bytes
  /-- `sign`: message, private key. -/
  sign : Bytes → Bytes → Bytes
  /-- `verify`: message, signature, public key. -/
  verify : Bytes → Bytes → Bytes → Bool
  /-- `PEM_read_bio_X509`. -/
  readPem : Bytes → Option Cert
  /-- `get_cert_signature`. -/
  certSignature : Cert → Bytes
  /-- `get_cert_public_key`. -/
  certPublicKey : Cert → Bytes
  /-- `std::hash`, which names the file of a paired client. -/
  stdHash : Bytes → ℕ

/-- The server's identity: its certificate in PEM, the signature in it, and its private key. -/
structure ServerIdentity where
  certPem : Bytes
  certSignature : Bytes
  privateKey : Bytes

/-- `PAIR_PHASE`: the phase a handshake has completed last. -/
inductive PairPhase
  | none | getServerCert | clientChallenge | serverChallengeResp | clientPairingSecret
  deriving DecidableEq, Repr

/-- `PairCache`: the handshake of one client. -/
structure PairCache where
  clientCert : Bytes
  aesKey : Bytes
  lastPhase : PairPhase := .none
  serverSecret : Option Bytes := Option.none
  serverChallenge : Option Bytes := Option.none
  clientHash : Option Bytes := Option.none
  deriving DecidableEq, Repr

variable {Cert : Type} (crypto : PairCrypto Cert) (server : ServerIdentity)

/-- A successful reply with one value of its own. -/
def pairedXml (key : String) (value : Bytes) : Xml :=
  [("paired", toDecimal 1), (key, value), ("<xmlattr>.status_code", toDecimal 200)]

/-- The digest itself. -/
def digest (s : Bytes) : Bytes := hexToStr (crypto.sha256 s) true

/-- `gen_aes_key`. -/
def genAesKey (salt pin : Bytes) : Bytes :=
  let aesKey := digest crypto (hexToStr salt true ++ pin)
  aesKey.take 16 ++ List.replicate (16 - aesKey.length) 0

/-- `get_server_cert`, phase 1: the reply and the key. -/
def getServerCert (userPin salt serverCertPem : Bytes) : Xml × Bytes :=
  (pairedXml "plaincert" (strToHex serverCertPem), genAesKey crypto salt userPin)

/-- `send_server_challenge`, phase 2: the reply. -/
def sendServerChallenge (aesKey clientChallenge serverCertSignature serverSecret
    serverChallenge : Bytes) : Xml :=
  let decryptedChallenge := crypto.aesDecryptEcb (hexToStr clientChallenge true) aesKey
  let hash := digest crypto (decryptedChallenge ++ serverCertSignature ++ serverSecret)
  let encrypted := crypto.aesEncryptEcb (hash ++ serverChallenge) aesKey
  pairedXml "challengeresponse" (strToHex encrypted)

/-- `get_client_hash`, phase 3: the reply and the client's hash. -/
def getClientHash (aesKey serverSecret serverChallengeResp serverPrivateKey : Bytes) :
    Xml × Bytes :=
  let decryptedChallenge := crypto.aesDecryptEcb (hexToStr serverChallengeResp true) aesKey
  let signature := crypto.sign serverSecret serverPrivateKey
  ([("pairingsecret", strToHex (serverSecret ++ signature)), ("paired", toDecimal 1),
    ("<xmlattr>.status_code", toDecimal 200)], decryptedChallenge)

/-- The length of a signature. -/
def digestSize : ℕ := 256

/-- `client_pair`, phase 4: whether the client is paired, and the reply. -/
def clientPair (serverChallenge clientHash clientPairingSecret clientCertSignature
    clientCertPublicKey : Bytes) : Bool × Xml :=
  let pairingSecret := hexToStr clientPairingSecret true
  if pairingSecret.length < digestSize then
    (false, failXml "Invalid pairing secret")
  else
    let clientSecret := pairingSecret.take 16
    let clientSignature := (pairingSecret.drop 16).take digestSize
    let hash := digest crypto (serverChallenge ++ clientCertSignature ++ clientSecret)
    if hash ≠ clientHash then (false, failXml "Invalid client hash")
    else if crypto.verify clientSecret clientSignature clientCertPublicKey then
      (true, [("paired", toDecimal 1), ("<xmlattr>.status_code", toDecimal 200)])
    else (false, failXml "Invalid client signature")
where
  /-- A refusal with its text. -/
  failXml (statusMsg : String) : Xml :=
    [("paired", toDecimal 0), ("<xmlattr>.status_code", toDecimal 400),
      ("<xmlattr>.status_message", ascii statusMsg)]

/-- A client is paired exactly when its secret is long enough, hashes to what it sent in phase
3, and carries its own signature. -/
theorem clientPair_fst_eq_true_iff {serverChallenge clientHash clientPairingSecret
    clientCertSignature clientCertPublicKey : Bytes} :
    (clientPair crypto serverChallenge clientHash clientPairingSecret clientCertSignature
      clientCertPublicKey).1 = true ↔
      digestSize ≤ (hexToStr clientPairingSecret true).length ∧
      digest crypto (serverChallenge ++ clientCertSignature ++
        (hexToStr clientPairingSecret true).take 16) = clientHash ∧
      crypto.verify ((hexToStr clientPairingSecret true).take 16)
        (((hexToStr clientPairingSecret true).drop 16).take digestSize)
        clientCertPublicKey = true := by
  unfold clientPair
  dsimp only
  split_ifs with hsize hhash hverify
  · exact iff_of_false not_false fun h => absurd h.1 (not_le.mpr hsize)
  · exact iff_of_false not_false fun h => hhash h.2.1
  · exact iff_of_true rfl ⟨not_lt.mp hsize, not_not.mp hhash, hverify⟩
  · exact iff_of_false not_false fun h => hverify h.2.2

/-- The reply to a client that is paired. -/
theorem clientPair_of_paired {serverChallenge clientHash clientPairingSecret
    clientCertSignature clientCertPublicKey : Bytes}
    (h : (clientPair crypto serverChallenge clientHash clientPairingSecret clientCertSignature
      clientCertPublicKey).1 = true) :
    clientPair crypto serverChallenge clientHash clientPairingSecret clientCertSignature
      clientCertPublicKey =
      (true, [("paired", toDecimal 1), ("<xmlattr>.status_code", toDecimal 200)]) := by
  unfold clientPair at h ⊢
  dsimp only at h ⊢
  split_ifs at h ⊢
  rfl

end SteamStream.Pairing
