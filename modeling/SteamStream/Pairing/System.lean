import SteamStream.Library.Runs
import SteamStream.Pairing.Handshake
import SteamStream.State.PairedClients

/-!
# Pairing requests, PINs and threads

A `/pair` handler reads the cache entry of its client once, works on that copy and writes it
back later; a thread started by phase 1 waits for the PIN and then overwrites the whole entry.
So a handler is its read, which fixes everything it is going to do, followed by actions that
take effect one by one, and any number of handlers and threads interleave between them. A
request is known by the number of its task.

The log is no part of the server: it records the requests, as far as they pass the check of
their phase, the PINs, and the clients paired, in the order in which they took effect.
-/

namespace SteamStream.Pairing

open Wire CText Crypto Rest Runs State

/-! ### State -/

/-- What one request draws at random. -/
structure PairRandom where
  pinSecret : Bytes
  serverSecret : Bytes
  serverChallenge : Bytes
  length_pinSecret : pinSecret.length = 8
  length_serverSecret : serverSecret.length = 16
  length_serverChallenge : serverChallenge.length = 16

/-- The address a request comes from, as `to_string` of an `asio` address writes it. -/
structure ClientIp where
  text : Bytes
  /-- Digits, letters, dots, colons and the `%` of a scope, but no `@`. -/
  at_notMem : (64 : UInt8) ∉ text
  deriving DecidableEq

/-- A thread that waits for the PIN of its secret, and the promise it waits on. -/
structure WaitingPin where
  key : Bytes
  salt : Bytes
  clientCert : Bytes
  secret : Bytes
  pin : Option Bytes := none
  done : Bool := false
  deriving DecidableEq, Repr

/-- `PendingPin`: the thread whose promise the PIN goes to. -/
structure PendingPin where
  thread : ℕ
  clientIp : Bytes
  deriving DecidableEq, Repr

/-- What has happened, under the cache key of the client it is about. -/
inductive PairEvent
  | phase1 (key salt clientCert secret : Bytes)
  | pin (secret pin : Bytes)
  /-- With the challenge the server has drawn. -/
  | phase2 (key serverChallenge : Bytes)
  | phase3 (key serverChallengeResp : Bytes)
  | phase4 (key : Bytes) (request : ℕ) (clientPairingSecret : Bytes)
  | paired (key : Bytes) (request : ℕ) (clientCert : Bytes)
  | unpair (key : Bytes) (request : ℕ)
  deriving DecidableEq, Repr

/-- The effects of a handler or a thread. -/
inductive PairAction
  | setPairCache (key : Bytes) (cache : PairCache)
  | removePairCache (key : Bytes)
  /-- The key and the number of the request are not passed on, they say whose call it is. -/
  | addPairedClient (key : Bytes) (request : ℕ) (clientCert : Bytes)
  | removePairedClient (clientCert : Bytes)
  /-- The PIN is waited for, in place of those other requests of the address wait for. -/
  | registerPin (waiting : WaitingPin) (clientIp : Bytes)
  | dropPin (secret : Bytes)
  | reply (reply : Reply)

/-- The state of pairing. -/
structure PairState where
  pairingCache : Bytes → Option PairCache := fun _ => none
  store : ClientStore
  pendingPins : Bytes → Option PendingPin := fun _ => none
  waiting : List WaitingPin := []
  /-- What every handler and every woken thread still has to do. -/
  tasks : List (List PairAction) := []
  replies : List (ℕ × Reply) := []
  log : List PairEvent := []

/-! ### Handlers -/

section Handlers

variable {Cert : Type} (crypto : PairCrypto Cert) (server : ServerIdentity)

/-- The cache key of a request. -/
def cacheKey (clientId clientIp : Bytes) : Bytes := clientId ++ ascii "@" ++ clientIp

/-- The key of a request that names its client. -/
def requestKey (headers : Query) (clientIp : Bytes) : Option Bytes :=
  (getHeader headers "uniqueid").map fun clientId => cacheKey clientId clientIp

/-- A refusal, after which the handshake has to start again. -/
def refuse (key : Bytes) (statusMsg : String) : List PairEvent × List PairAction :=
  ([], [.reply { statusCode := 400, xml := failPair (ascii statusMsg) }, .removePairCache key])

/-- Phase 1: salt and certificate are kept until the PIN is there. -/
def pairPhase1 (key clientIp salt clientCert : Bytes) (rand : PairRandom)
    (cached : Option PairCache) : List PairEvent × List PairAction :=
  match cached with
  | some _ => refuse key "Out of order pair request (phase 1)"
  | none =>
    ([], [.registerPin {
      key := key
      salt := salt
      clientCert := clientCert
      secret := strToHex rand.pinSecret } clientIp])

/-- Phase 2: the server draws its secret and its challenge. -/
def pairPhase2 (key clientChallenge : Bytes) (rand : PairRandom) (cache : PairCache) :
    List PairEvent × List PairAction :=
  if cache.lastPhase ≠ .getServerCert then refuse key "Out of order pair request (phase 2)"
  else
    let xml := sendServerChallenge crypto cache.aesKey clientChallenge server.certSignature
      rand.serverSecret rand.serverChallenge
    ([.phase2 key rand.serverChallenge], [
      .setPairCache key { cache with
        lastPhase := .clientChallenge
        serverSecret := some rand.serverSecret
        serverChallenge := some rand.serverChallenge },
      .reply { statusCode := 200, xml := xml }])

/-- Phase 3: the client's hash is kept. -/
def pairPhase3 (key serverChallengeResp serverSecret : Bytes) (cache : PairCache) :
    List PairEvent × List PairAction :=
  if cache.lastPhase ≠ .clientChallenge then refuse key "Out of order pair request (phase 3)"
  else
    let (xml, clientHash) := getClientHash crypto cache.aesKey serverSecret serverChallengeResp
      server.privateKey
    ([.phase3 key serverChallengeResp], [
      .setPairCache key { cache with
        lastPhase := .serverChallengeResp
        clientHash := some clientHash },
      .reply { statusCode := 200, xml := xml }])

/-- Phase 4: the client is paired, or not, and the handshake is over. -/
def pairPhase4 (key : Bytes) (request : ℕ) (clientPairingSecret serverChallenge
    clientHash : Bytes) (cache : PairCache) : List PairEvent × List PairAction :=
  if cache.lastPhase ≠ .serverChallengeResp then
    refuse key "Out of order pair request (phase 4)"
  else
    match crypto.readPem (cString cache.clientCert) with
    | none => refuse key "Unable to parse client certificate"
    | some clientCert =>
      let (paired, xml) := clientPair crypto serverChallenge clientHash clientPairingSecret
        (crypto.certSignature clientCert) (crypto.certPublicKey clientCert)
      ([.phase4 key request clientPairingSecret],
        [.reply { statusCode := if paired then 200 else 400, xml := xml }] ++
        (if paired then [.addPairedClient key request cache.clientCert] else []) ++
        [.removePairCache key])

/-- The phases after the first, on the copy of the cache entry the handler has read. A request
that fits none of them is not answered. -/
def pairLaterPhase (key : Bytes) (request : ℕ) (headers : Query) (rand : PairRandom)
    (cache : PairCache) : List PairEvent × List PairAction :=
  match getHeader headers "clientchallenge" with
  | some clientChallenge => pairPhase2 crypto server key clientChallenge rand cache
  | none =>
    match getHeader headers "serverchallengeresp", cache.serverSecret with
    | some serverChallengeResp, some serverSecret =>
      pairPhase3 crypto server key serverChallengeResp serverSecret cache
    | _, _ =>
      match getHeader headers "clientpairingsecret", cache.serverChallenge,
          cache.clientHash with
      | some clientPairingSecret, some serverChallenge, some clientHash =>
        pairPhase4 crypto key request clientPairingSecret serverChallenge clientHash cache
      | _, _, _ => ([], [])

/-- `http_pair`, from the cache entry it reads on. -/
def httpPair (headers : Query) (clientIp : Bytes) (rand : PairRandom) (request : ℕ)
    (cached : Option PairCache) : List PairEvent × List PairAction :=
  match requestKey headers clientIp with
  | none =>
    ([], [.reply {
      statusCode := 400
      xml := failPair (ascii "Received pair request without uniqueid, stopping.") }])
  | some key =>
    match getHeader headers "salt", getHeader headers "clientcert" with
    | some salt, some clientCert => pairPhase1 key clientIp salt clientCert rand cached
    | _, _ =>
      match cached with
      | none =>
        ([], [.reply {
          statusCode := 400
          xml := failPair (ascii "Unable to find " ++ key ++
            ascii " in the pairing cache") }])
      | some cache => pairLaterPhase crypto server key request headers rand cache

/-- `/unpair`: the certificate is looked up in the pairing cache. -/
def unpair (cached : Option PairCache) : List PairAction :=
  let reply : Reply := { statusCode := 200, xml := [("<xmlattr>.status_code", toDecimal 200)] }
  match cached with
  | none => [.reply reply]
  | some cache => [.removePairedClient cache.clientCert, .reply reply]

/-- What a thread does when its PIN is there. -/
def completePhase1 (waiting : WaitingPin) (pin : Bytes) : List PairAction :=
  let (xml, aesKey) := getServerCert crypto pin waiting.salt server.certPem
  [.setPairCache waiting.key {
      clientCert := hexToStr waiting.clientCert true
      aesKey := aesKey
      lastPhase := .getServerCert },
    .reply { statusCode := 200, xml := xml }]

/-- What a thread does when it has waited too long. -/
def timeoutPhase1 (waiting : WaitingPin) : List PairAction :=
  [.dropPin waiting.secret,
    .reply { statusCode := 400, xml := failPair (ascii "Timed out waiting for PIN") }]

/-- What is left to do once the last phase verifies. -/
def completePhase4 (key : Bytes) (request : ℕ) (clientCert : Bytes) : List PairAction :=
  [.reply {
      statusCode := 200
      xml := [("paired", toDecimal 1), ("<xmlattr>.status_code", toDecimal 200)] },
    .addPairedClient key request clientCert, .removePairCache key]

theorem pairPhase4_of_paired {key clientPairingSecret serverChallenge clientHash : Bytes}
    {request : ℕ} {cache : PairCache} {c : Cert} (hphase : cache.lastPhase = .serverChallengeResp)
    (hpem : crypto.readPem (cString cache.clientCert) = some c)
    (hpaired : (clientPair crypto serverChallenge clientHash clientPairingSecret
      (crypto.certSignature c) (crypto.certPublicKey c)).1 = true) :
    pairPhase4 crypto key request clientPairingSecret serverChallenge clientHash cache =
      ([.phase4 key request clientPairingSecret],
        completePhase4 key request cache.clientCert) := by
  rw [pairPhase4, if_neg (not_not_intro hphase)]
  simp only [hpem, clientPair_of_paired crypto hpaired, if_true]
  rfl

end Handlers

/-! ### Steps -/

section Step

variable {Cert : Type} (crypto : PairCrypto Cert) (server : ServerIdentity)

/-- An action of the task takes effect. -/
def PairState.perform (st : PairState) (task : ℕ) : PairAction → PairState
  | .setPairCache key cache =>
    { st with pairingCache := fun k => if k = key then some cache else st.pairingCache k }
  | .removePairCache key =>
    { st with pairingCache := fun k => if k = key then none else st.pairingCache k }
  | .addPairedClient key request clientCert =>
    { st with
      store := st.store.addPairedClient crypto.stdHash clientCert
      log := st.log ++ [.paired key request clientCert] }
  | .removePairedClient clientCert =>
    { st with store := st.store.removePairedClient crypto.stdHash clientCert }
  | .registerPin waiting clientIp =>
    { st with
      pendingPins := fun secret =>
        if secret = waiting.secret then
          some { thread := st.waiting.length, clientIp := clientIp }
        else (st.pendingPins secret).filter fun p => p.clientIp ≠ clientIp
      waiting := st.waiting ++ [waiting]
      log := st.log ++
        [.phase1 waiting.key waiting.salt waiting.clientCert waiting.secret] }
  | .dropPin secret =>
    { st with pendingPins := fun s => if s = secret then none else st.pendingPins s }
  | .reply reply => { st with replies := st.replies ++ [(task, reply)] }

/-- What can happen next. -/
inductive PairStep
  /-- A `/pair` request, up to its read of the cache. -/
  | request (headers : Query) (clientIp : ClientIp) (rand : PairRandom)
  | unpair (headers : Query) (clientIp : ClientIp)
  /-- The next action of a task takes effect. -/
  | act (task : ℕ)
  | postPin (secret pin : Bytes)
  | pinReady (thread : ℕ)
  | pinTimeout (thread : ℕ)

def pairStep (st : PairState) : PairStep → Option PairState
  | .request headers clientIp rand =>
    let cached := (requestKey headers clientIp.text).bind st.pairingCache
    let (events, actions) :=
      httpPair crypto server headers clientIp.text rand st.tasks.length cached
    some { st with tasks := st.tasks ++ [actions], log := st.log ++ events }
  | .unpair headers clientIp =>
    let key := requestKey headers clientIp.text
    some { st with
      tasks := st.tasks ++ [unpair (key.bind st.pairingCache)]
      log := st.log ++ (key.map fun key => .unpair key st.tasks.length).toList }
  | .act task =>
    match st.tasks[task]? with
    | some (action :: rest) =>
      some ({ st with tasks := st.tasks.set task rest }.perform crypto task action)
    | _ => none
  | .postPin secret pin =>
    match st.pendingPins secret with
    | none => some st
    | some pending =>
      some { st with
        waiting := st.waiting.modify pending.thread fun w => { w with pin := some pin }
        pendingPins := fun s => if s = secret then none else st.pendingPins s
        log := st.log ++ [.pin secret pin] }
  | .pinReady thread =>
    match st.waiting[thread]? with
    | none => none
    | some waiting =>
      match waiting.done, waiting.pin with
      | false, some pin =>
        some { st with
          waiting := st.waiting.set thread { waiting with done := true }
          tasks := st.tasks ++ [completePhase1 crypto server waiting pin] }
      | _, _ => none
  | .pinTimeout thread =>
    match st.waiting[thread]? with
    | none => none
    | some waiting =>
      match waiting.done, waiting.pin with
      | false, none =>
        some { st with
          waiting := st.waiting.set thread { waiting with done := true }
          tasks := st.tasks ++ [timeoutPhase1 waiting] }
      | _, _ => none

/-- Pairing as a system, started with the clients that are paired already. -/
def pairSystem (store : ClientStore) : System PairState PairStep where
  init := { store := store }
  step := pairStep crypto server

/-! ### What a step of a thread or a task is -/

variable {crypto server} {st st' : PairState} {task thread : ℕ}

/-- What an action adds to the log. -/
def PairAction.events : PairAction → List PairEvent
  | .addPairedClient key request clientCert => [.paired key request clientCert]
  | .registerPin waiting _ =>
    [.phase1 waiting.key waiting.salt waiting.clientCert waiting.secret]
  | _ => []

/-- What an action of the task answers. -/
def PairAction.answers (task : ℕ) : PairAction → List (ℕ × Reply)
  | .reply r => [(task, r)]
  | _ => []

@[simp]
theorem tasks_perform {action : PairAction} :
    (st.perform crypto task action).tasks = st.tasks := by
  cases action <;> rfl

@[simp]
theorem log_perform {action : PairAction} :
    (st.perform crypto task action).log = st.log ++ action.events := by
  cases action <;> simp [PairState.perform, PairAction.events]

@[simp]
theorem replies_perform {action : PairAction} :
    (st.perform crypto task action).replies = st.replies ++ action.answers task := by
  cases action <;> simp [PairState.perform, PairAction.answers]

theorem pairSystem_step {store : ClientStore} :
    (pairSystem crypto server store).step = pairStep crypto server := rfl

theorem pairStep_request {headers : Query} {clientIp : ClientIp} {rand : PairRandom}
    {events : List PairEvent} {actions : List PairAction}
    (h : httpPair crypto server headers clientIp.text rand st.tasks.length
      ((requestKey headers clientIp.text).bind st.pairingCache) = (events, actions)) :
    pairStep crypto server st (.request headers clientIp rand) =
      some { st with tasks := st.tasks ++ [actions], log := st.log ++ events } := by
  simp only [pairStep, h]

theorem pairStep_act_iff :
    pairStep crypto server st (.act task) = some st' ↔
      ∃ action rest, st.tasks[task]? = some (action :: rest) ∧
        st' = { st with tasks := st.tasks.set task rest }.perform crypto task action := by
  simp only [pairStep]
  constructor
  · intro h
    split at h
    · rename_i action rest htask
      exact ⟨action, rest, htask, (Option.some.inj h).symm⟩
    · cases h
  · rintro ⟨action, rest, htask, rfl⟩
    rw [htask]

/-- A PIN goes to the thread that waits for it. -/
theorem pairStep_postPin {secret pin : Bytes} {pending : PendingPin}
    (h : st.pendingPins secret = some pending) :
    pairStep crypto server st (.postPin secret pin) =
      some { st with
        waiting := st.waiting.modify pending.thread fun w => { w with pin := some pin }
        pendingPins := fun s => if s = secret then none else st.pendingPins s
        log := st.log ++ [.pin secret pin] } := by
  simp only [pairStep, h]

/-- A thread wakes up when its PIN is there. -/
theorem pairStep_pinReady_iff :
    pairStep crypto server st (.pinReady thread) = some st' ↔
      ∃ w pin, st.waiting[thread]? = some w ∧ w.done = false ∧ w.pin = some pin ∧
        st' = { st with
          waiting := st.waiting.set thread { w with done := true }
          tasks := st.tasks ++ [completePhase1 crypto server w pin] } := by
  simp only [pairStep]
  constructor
  · intro h
    split at h
    · cases h
    · rename_i w hw
      split at h
      · rename_i pin hdone hpin
        exact ⟨w, pin, hw, hdone, hpin, (Option.some.inj h).symm⟩
      · cases h
  · rintro ⟨w, pin, hw, hdone, hpin, rfl⟩
    simp only [hw, hdone, hpin]

/-- A thread gives up when it has not been given a PIN. -/
theorem pairStep_pinTimeout_iff :
    pairStep crypto server st (.pinTimeout thread) = some st' ↔
      ∃ w, st.waiting[thread]? = some w ∧ w.done = false ∧ w.pin = none ∧
        st' = { st with
          waiting := st.waiting.set thread { w with done := true }
          tasks := st.tasks ++ [timeoutPhase1 w] } := by
  simp only [pairStep]
  constructor
  · intro h
    split at h
    · cases h
    · rename_i w hw
      split at h
      · rename_i hdone hpin
        exact ⟨w, hw, hdone, hpin, (Option.some.inj h).symm⟩
      · cases h
  · rintro ⟨w, hw, hdone, hpin, rfl⟩
    simp only [hw, hdone, hpin]

end Step

end SteamStream.Pairing
