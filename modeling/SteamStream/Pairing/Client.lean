import SteamStream.Pairing.System

/-!
# A client that follows the four phases

The other side of the handshake, and both sides as one system. The client derives the key from
its salt and the PIN, sends encrypted messages as hexadecimal text and goes on as long as it is
told `paired = 1`; its user reads the link with the secret of the PIN and enters the same PIN.

A step of the joint system is the next step of this pairing (the client sends a request, the
server takes the next action of the task that handles it, the user enters the PIN, the waiting
thread wakes up) or a step of the server that belongs to the pairing of someone else, from
another address (`OthersStep`). Which of them comes next is open, so the runs are all
interleavings.
-/

namespace SteamStream.Pairing

open Wire CText Crypto Rest Runs State

/-- The parameters of a pairing request. -/
def pairParameters : List String :=
  ["uniqueid", "salt", "clientcert", "clientchallenge", "serverchallengeresp",
    "clientpairingsecret"]

/-- A client, and the PIN its user enters. -/
structure Client (Cert : Type) where
  uniqueId : Bytes
  ip : ClientIp
  salt : Bytes
  pin : Bytes
  clientChallenge : Bytes
  clientSecret : Bytes
  privateKey : Bytes
  certPem : Bytes
  /-- What the PEM text says. -/
  cert : Cert
  /-- The client's way of writing bytes as hexadecimal digits. -/
  strToHex : Bytes → Bytes
  /-- What else it puts into the query. -/
  otherHeaders : Query
  length_clientChallenge : clientChallenge.length = 16
  length_clientSecret : clientSecret.length = 16
  hexToStr_strToHex : ∀ s, hexToStr (strToHex s) true = s
  getHeader_otherHeaders : ∀ name ∈ pairParameters, getHeader otherHeaders name = none

section Client

variable {Cert : Type} (crypto : PairCrypto Cert) (client : Client Cert)

/-- Its key in the pairing cache. -/
def Client.cacheKey : Bytes := Pairing.cacheKey client.uniqueId client.ip.text

/-- The key, from salt and PIN. -/
def Client.aesKey : Bytes := (digest crypto (client.salt ++ client.pin)).take 16

/-- The server has done what was asked for. -/
def accepts (reply : Reply) : Bool :=
  reply.statusCode = 200 ∧ reply.xml.lookup "paired" = some (toDecimal 1)

/-- The query of a request. -/
def Client.query (parameters : Query) : Query :=
  (ascii "uniqueid", client.uniqueId) :: parameters ++ client.otherHeaders

/-- Phase 1: salt and certificate. -/
def Client.sendCert : Query :=
  [(ascii "salt", client.strToHex client.salt),
    (ascii "clientcert", client.strToHex client.certPem)]

/-- Phase 2: the encrypted challenge. -/
def Client.sendChallenge : Query :=
  [(ascii "clientchallenge",
    client.strToHex (crypto.aesEncryptEcb client.clientChallenge (client.aesKey crypto)))]

/-- Phase 3: the encrypted hash of the server's challenge, the signature in the client's
certificate and the client's secret. -/
def Client.sendHash (serverChallenge : Bytes) : Query :=
  let hash := digest crypto
    (serverChallenge ++ crypto.certSignature client.cert ++ client.clientSecret)
  [(ascii "serverchallengeresp",
    client.strToHex (crypto.aesEncryptEcb hash (client.aesKey crypto)))]

/-- Phase 4: the secret and its signature. -/
def Client.sendSecret : Query :=
  [(ascii "clientpairingsecret",
    client.strToHex
      (client.clientSecret ++ crypto.sign client.clientSecret client.privateKey))]

/-- The server's challenge stands behind its 32-byte hash. -/
def Client.readChallenge (challengeResponse : Bytes) : Bytes :=
  (crypto.aesDecryptEcb (hexToStr challengeResponse true) (client.aesKey crypto)).drop 32

/-- The next request, when the last one has been answered. -/
def Client.next (lastPhase : PairPhase) (reply : Option Reply) : Option (PairPhase × Query) :=
  match lastPhase, reply.filter accepts with
  | .none, _ => some (.getServerCert, client.sendCert)
  | .getServerCert, some _ => some (.clientChallenge, client.sendChallenge crypto)
  | .clientChallenge, some reply =>
    (reply.xml.lookup "challengeresponse").map fun challengeResponse =>
      (.serverChallengeResp,
        client.sendHash crypto (client.readChallenge crypto challengeResponse))
  | .serverChallengeResp, some _ => some (.clientPairingSecret, client.sendSecret crypto)
  | _, _ => none

end Client

/-! ### Client and server -/

/-- Where a pairing has got to. -/
inductive PairingPc
  /-- The request of the phase has been answered and handled, the client is next. -/
  | answered (phase : PairPhase) (reply : Option Reply)
  /-- The task has to finish with the request of the phase. -/
  | handled (phase : PairPhase) (task : ℕ) (reply : Option Reply)
  /-- The thread waits for the user. -/
  | typing (thread : ℕ)
  /-- The thread has been given the PIN. -/
  | typed (thread : ℕ)
  deriving DecidableEq

/-- The task the pairing waits for. -/
def PairingPc.task : PairingPc → Option ℕ
  | .handled _ task _ => some task
  | _ => none

/-- The thread the pairing waits for. -/
def PairingPc.thread : PairingPc → Option ℕ
  | .typing thread | .typed thread => some thread
  | _ => none

/-- Where the next action of a task takes a pairing. -/
def PairingPc.afterAction (phase : PairPhase) (task threads : ℕ) (reply : Option Reply) :
    List PairAction → PairingPc
  | .registerPin _ _ :: _ => .typing threads
  | [.reply reply] => .answered phase (some reply)
  | .reply reply :: _ => .handled phase task (some reply)
  | [_] => .answered phase reply
  | _ => .handled phase task reply

/-- A step of the joint system. -/
inductive JointStep
  | own
  | others (step : PairStep)

section Joint

variable {Cert : Type} (crypto : PairCrypto Cert) (server : ServerIdentity)
variable (client : Client Cert) (draw : PairPhase → PairRandom)

/-- The secret of the link the user opens. -/
def pinSecret : Bytes := Crypto.strToHex (draw .getServerCert).pinSecret

/-- The next step of the pairing. -/
def ownStep (st : PairState) : PairingPc → Option (PairState × PairingPc)
  | .answered lastPhase reply =>
    (client.next crypto lastPhase reply).bind fun (phase, parameters) =>
      (pairStep crypto server st
        (.request (client.query parameters) client.ip (draw phase))).map fun st' =>
          (st', .handled phase st.tasks.length none)
  | .handled phase task reply =>
    st.tasks[task]?.bind fun actions =>
      (pairStep crypto server st (.act task)).map fun st' =>
        (st', .afterAction phase task st.waiting.length reply actions)
  | .typing thread =>
    (pairStep crypto server st (.postPin (pinSecret draw) client.pin)).map fun st' =>
      (st', .typed thread)
  | .typed thread =>
    (pairStep crypto server st (.pinReady thread)).map fun st' =>
      (st', .handled .getServerCert st.tasks.length none)

/-- The steps of other pairings: requests from other addresses, with other secrets, and what
they lead to. -/
def OthersStep (pc : PairingPc) : PairStep → Prop
  | .request _ clientIp rand =>
    clientIp.text ≠ client.ip.text ∧ rand.pinSecret ≠ (draw .getServerCert).pinSecret
  | .unpair _ _ => False
  | .act task => pc.task ≠ some task
  | .postPin secret _ => secret ≠ pinSecret draw
  | .pinReady thread | .pinTimeout thread => pc.thread ≠ some thread

instance (pc : PairingPc) : DecidablePred (OthersStep client draw pc)
  | .request _ _ _ => inferInstanceAs (Decidable (_ ∧ _))
  | .unpair _ _ => inferInstanceAs (Decidable False)
  | .act _ | .postPin _ _ | .pinReady _ | .pinTimeout _ => inferInstanceAs (Decidable (_ ≠ _))

/-- A step of either kind. -/
def jointStep : PairState × PairingPc → JointStep → Option (PairState × PairingPc)
  | (st, pc), .own => ownStep crypto server client draw st pc
  | (st, pc), .others step =>
    if OthersStep client draw pc step then
      (pairStep crypto server st step).map fun st' => (st', pc)
    else none

/-- The joint system, started before the first request. -/
def jointSystem (store : ClientStore) : System (PairState × PairingPc) JointStep where
  init := ({ store := store }, .answered .none none)
  step := jointStep crypto server client draw

end Joint

end SteamStream.Pairing
