import SteamStream.Pairing.System

/-!
# Who gets paired

Whatever the interleaving, a certificate is only ever added at the end of a handshake of its
own: the log holds, in this order and under one cache key, a phase-1 request with that
certificate, the PIN for its secret, a phase-2, a phase-3 and a phase-4 request, and what was
exchanged in them verifies (`addPairedClient_justified`).

The invariant is about single values. Every cache entry, in the cache or on its way into it,
comes from a handshake the log holds up to the phase of the entry (`Derived`); a handler reads
one such value and writes another, so no interleaving can mix two handshakes in one entry.
-/

namespace SteamStream.Pairing

open Wire CText Crypto Rest Runs State

/-! ### Handshakes -/

/-- What is exchanged in one handshake. -/
structure Transcript where
  salt : Bytes
  clientCert : Bytes
  secret : Bytes
  pin : Bytes
  serverSecret : Bytes
  serverChallenge : Bytes
  serverChallengeResp : Bytes
  clientPairingSecret : Bytes

namespace Transcript

variable {Cert : Type} (crypto : PairCrypto Cert) (t : Transcript)

/-- The events of a handshake that ends with the given request. -/
def events (key : Bytes) (request : ℕ) : List PairEvent :=
  [.phase1 key t.salt t.clientCert t.secret, .pin t.secret t.pin, .phase2 key t.serverChallenge,
    .phase3 key t.serverChallengeResp, .phase4 key request t.clientPairingSecret]

/-- The certificate. -/
def cert : Bytes := hexToStr t.clientCert true

/-- The key, from salt and PIN. -/
def aesKey : Bytes := genAesKey crypto t.salt t.pin

/-- What the phase-3 message decrypts to. -/
def clientHash : Bytes :=
  crypto.aesDecryptEcb (hexToStr t.serverChallengeResp true) (t.aesKey crypto)

/-- The pairing secret. -/
def pairingSecret : Bytes := hexToStr t.clientPairingSecret true

/-- The pairing secret hashes to what the client has sent in phase 3, and it is signed with the
key of the certificate. -/
def Verifies : Prop :=
  ∃ c, crypto.readPem (cString t.cert) = some c ∧
    digest crypto (t.serverChallenge ++ crypto.certSignature c ++ t.pairingSecret.take 16) =
      t.clientHash crypto ∧
    crypto.verify (t.pairingSecret.take 16) ((t.pairingSecret.drop 16).take 256)
      (crypto.certPublicKey c) = true

end Transcript

section Provenance

variable {Cert : Type} (crypto : PairCrypto Cert)

/-- The log holds a whole handshake of the certificate, and it verifies. -/
def Justified (log : List PairEvent) (key : Bytes) (request : ℕ) (clientCert : Bytes) : Prop :=
  ∃ t : Transcript, (t.events key request).Sublist log ∧ clientCert = t.cert ∧ t.Verifies crypto

/-- A cache entry comes from a handshake the log holds as far as the entry has got. -/
inductive Derived (log : List PairEvent) (key : Bytes) : PairCache → Prop
  | getServerCert (t : Transcript) (h : ((t.events key 0).take 2).Sublist log) :
    Derived log key {
      clientCert := t.cert
      aesKey := t.aesKey crypto
      lastPhase := .getServerCert }
  | clientChallenge (t : Transcript) (h : ((t.events key 0).take 3).Sublist log) :
    Derived log key {
      clientCert := t.cert
      aesKey := t.aesKey crypto
      lastPhase := .clientChallenge
      serverSecret := some t.serverSecret
      serverChallenge := some t.serverChallenge }
  | serverChallengeResp (t : Transcript) (h : ((t.events key 0).take 4).Sublist log) :
    Derived log key {
      clientCert := t.cert
      aesKey := t.aesKey crypto
      lastPhase := .serverChallengeResp
      serverSecret := some t.serverSecret
      serverChallenge := some t.serverChallenge
      clientHash := some (t.clientHash crypto) }

variable {crypto} {log log' : List PairEvent} {key : Bytes}

theorem Derived.mono {cache : PairCache} (h : Derived crypto log key cache)
    (hlog : log.Sublist log') : Derived crypto log' key cache := by
  cases h with
  | getServerCert t h => exact .getServerCert t (h.trans hlog)
  | clientChallenge t h => exact .clientChallenge t (h.trans hlog)
  | serverChallengeResp t h => exact .serverChallengeResp t (h.trans hlog)

theorem Justified.mono {request : ℕ} {clientCert : Bytes}
    (h : Justified crypto log key request clientCert) (hlog : log.Sublist log') :
    Justified crypto log' key request clientCert := by
  obtain ⟨t, hevents, hcert, hverifies⟩ := h
  exact ⟨t, hevents.trans hlog, hcert, hverifies⟩

end Provenance

/-! ### The invariant -/

section Invariant

variable {Cert : Type} (crypto : PairCrypto Cert)

/-- What the actions of the task may be. -/
def ActionOk (log : List PairEvent) (task : ℕ) : PairAction → Prop
  | .setPairCache key cache => Derived crypto log key cache
  | .addPairedClient key request clientCert =>
    request = task ∧ Justified crypto log key request clientCert
  | .registerPin waiting _ => waiting.pin = none
  | _ => True

/-- A waiting thread belongs to a phase-1 request, and its PIN was posted for its secret. -/
def WaitingOk (log : List PairEvent) (w : WaitingPin) : Prop :=
  .phase1 w.key w.salt w.clientCert w.secret ∈ log ∧
    ∀ pin, w.pin = some pin →
      [.phase1 w.key w.salt w.clientCert w.secret, .pin w.secret pin].Sublist log

/-- Every value in the state has its handshake in the log. -/
structure PairInv (st : PairState) : Prop where
  cache : ∀ key cache, st.pairingCache key = some cache → Derived crypto st.log key cache
  tasks : ∀ task actions, st.tasks[task]? = some actions →
    ∀ action ∈ actions, ActionOk crypto st.log task action
  waiting : ∀ w ∈ st.waiting, WaitingOk st.log w
  /-- A pending PIN goes to a thread that waits for it. -/
  pending : ∀ secret p, st.pendingPins secret = some p →
    ∃ w, st.waiting[p.thread]? = some w ∧ w.secret = secret

variable {crypto} {log log' : List PairEvent}

theorem ActionOk.mono {task : ℕ} {action : PairAction} (h : ActionOk crypto log task action)
    (hlog : log.Sublist log') : ActionOk crypto log' task action := by
  cases action with
  | setPairCache key cache => exact Derived.mono h hlog
  | addPairedClient key request clientCert => exact ⟨h.1, h.2.mono hlog⟩
  | registerPin waiting clientIp => exact h
  | _ => trivial

theorem WaitingOk.mono {w : WaitingPin} (h : WaitingOk log w) (hlog : log.Sublist log') :
    WaitingOk log' w :=
  ⟨hlog.subset h.1, fun pin hpin => (h.2 pin hpin).trans hlog⟩

/-- The PIN of a thread completes the phase-1 part of its handshake. -/
theorem WaitingOk.setPin {w : WaitingPin} {pin : Bytes} (h : WaitingOk log w) :
    WaitingOk (log ++ [.pin w.secret pin]) { w with pin := some pin } := by
  refine ⟨List.mem_append_left _ h.1, fun p hp => ?_⟩
  obtain rfl := Option.some.inj hp
  exact (List.singleton_sublist.mpr h.1).append (List.Sublist.refl [PairEvent.pin w.secret pin])

end Invariant

/-! ### Handlers -/

section Handlers

variable {Cert : Type} {crypto : PairCrypto Cert} {server : ServerIdentity}
variable {log : List PairEvent} {key : Bytes} {request : ℕ} {cache : PairCache}

/-- The events and actions of a handler, on a log. -/
private def HandlerOk (crypto : PairCrypto Cert) (log : List PairEvent) (request : ℕ)
    (outcome : List PairEvent × List PairAction) : Prop :=
  ∀ action ∈ outcome.2, ActionOk crypto (log ++ outcome.1) request action

private theorem handlerOk_refuse {statusMsg : String} :
    HandlerOk crypto log request (refuse key statusMsg) := by
  simp [HandlerOk, refuse, ActionOk]

private theorem handlerOk_pairPhase2 {clientChallenge : Bytes} {rand : PairRandom}
    (h : Derived crypto log key cache) :
    HandlerOk crypto log request (pairPhase2 crypto server key clientChallenge rand cache) := by
  unfold pairPhase2
  split_ifs with hphase
  · exact handlerOk_refuse
  · cases h with
    | clientChallenge t h => exact absurd PairPhase.noConfusion hphase
    | serverChallengeResp t h => exact absurd PairPhase.noConfusion hphase
    | getServerCert t h =>
      -- the handshake goes on with what the server has drawn
      have hevents := h.append (List.Sublist.refl [PairEvent.phase2 key rand.serverChallenge])
      simp only [HandlerOk, List.forall_mem_cons]
      refine ⟨?_, trivial, fun _ h => nomatch h⟩
      exact .clientChallenge
        { t with serverSecret := rand.serverSecret, serverChallenge := rand.serverChallenge }
        hevents

private theorem handlerOk_pairPhase3 {serverChallengeResp serverSecret : Bytes}
    (h : Derived crypto log key cache) :
    HandlerOk crypto log request
      (pairPhase3 crypto server key serverChallengeResp serverSecret cache) := by
  unfold pairPhase3
  split_ifs with hphase
  · exact handlerOk_refuse
  · cases h with
    | getServerCert t h => exact absurd PairPhase.noConfusion hphase
    | serverChallengeResp t h => exact absurd PairPhase.noConfusion hphase
    | clientChallenge t h =>
      have hevents := h.append (List.Sublist.refl [PairEvent.phase3 key serverChallengeResp])
      simp only [HandlerOk, List.forall_mem_cons]
      refine ⟨?_, trivial, fun _ h => nomatch h⟩
      exact .serverChallengeResp { t with serverChallengeResp := serverChallengeResp } hevents

private theorem handlerOk_pairPhase4 {clientPairingSecret serverChallenge clientHash : Bytes}
    (h : Derived crypto log key cache) (hchallenge : cache.serverChallenge = some serverChallenge)
    (hhash : cache.clientHash = some clientHash) :
    HandlerOk crypto log request
      (pairPhase4 crypto key request clientPairingSecret serverChallenge clientHash cache) := by
  unfold pairPhase4
  split_ifs with hphase
  · exact handlerOk_refuse
  · cases h with
    | getServerCert t h => exact absurd PairPhase.noConfusion hphase
    | clientChallenge t h => exact absurd PairPhase.noConfusion hphase
    | serverChallengeResp t h =>
      obtain rfl := Option.some.inj hchallenge
      obtain rfl := Option.some.inj hhash
      split
      · exact handlerOk_refuse
      · rename_i c hpem
        have hevents := h.append
          (List.Sublist.refl [PairEvent.phase4 key request clientPairingSecret])
        simp only [HandlerOk, List.mem_append, List.mem_singleton]
        rintro action ((rfl | haction) | rfl)
        · trivial
        · split_ifs at haction with hpaired
          · rw [List.mem_singleton] at haction
            subst haction
            have hchecks := (clientPair_fst_eq_true_iff crypto).mp hpaired
            exact ⟨rfl, { t with clientPairingSecret := clientPairingSecret }, hevents, rfl,
              c, hpem, hchecks.2⟩
          · cases haction
        · trivial

/-- A handler that reads a cache entry with a handshake behind it only does what has one. -/
private theorem handlerOk_httpPair {headers : Query} {clientIp : Bytes} {rand : PairRandom}
    {cached : Option PairCache}
    (h : ∀ key cache, requestKey headers clientIp = some key → cached = some cache →
      Derived crypto log key cache) :
    HandlerOk crypto log request
      (httpPair crypto server headers clientIp rand request cached) := by
  unfold httpPair
  split
  · simp [HandlerOk, ActionOk]
  · rename_i key hkey
    split
    · unfold pairPhase1
      split
      · exact handlerOk_refuse
      · simp [HandlerOk, ActionOk]
    · split
      · simp [HandlerOk, ActionOk]
      · rename_i cache
        have hcache := h key cache hkey rfl
        unfold pairLaterPhase
        split
        · exact handlerOk_pairPhase2 hcache
        · split
          · exact handlerOk_pairPhase3 hcache
          · split
            · exact handlerOk_pairPhase4 hcache ‹_› ‹_›
            · simp [HandlerOk]

end Handlers

/-! ### Steps -/

section Step

variable {Cert : Type} {crypto : PairCrypto Cert} {server : ServerIdentity}
variable {st st' : PairState}

/-- What goes to the log keeps the invariant. -/
private theorem PairInv.addLog (h : PairInv crypto st) (events : List PairEvent) :
    PairInv crypto { st with log := st.log ++ events } where
  cache key cache hcache := (h.cache key cache hcache).mono (List.sublist_append_left ..)
  tasks task actions hacts a ha :=
    (h.tasks task actions hacts a ha).mono (List.sublist_append_left ..)
  waiting w hw := (h.waiting w hw).mono (List.sublist_append_left ..)
  pending := h.pending

/-- So does a task that starts, if its actions have a handshake behind them. -/
private theorem PairInv.startTask (h : PairInv crypto st) {actions : List PairAction}
    (hactions : ∀ action ∈ actions, ActionOk crypto st.log st.tasks.length action) :
    PairInv crypto { st with tasks := st.tasks ++ [actions] } where
  cache := h.cache
  tasks task acts hacts := by
    rw [List.getElem?_append] at hacts
    split_ifs at hacts with hlt
    · exact h.tasks task acts hacts
    · obtain ⟨hindex, rfl⟩ := List.getElem?_eq_some_iff.mp hacts
      have htask : task = st.tasks.length := by
        simp only [List.length_singleton] at hindex
        omega
      subst htask
      intro a ha
      exact hactions a (by simpa using ha)
  waiting := h.waiting
  pending := h.pending

/-- The first action of a task may be taken off it. -/
private theorem PairInv.popTask (h : PairInv crypto st) {task : ℕ} {action : PairAction}
    {rest : List PairAction} (htask : st.tasks[task]? = some (action :: rest)) :
    PairInv crypto { st with tasks := st.tasks.set task rest } where
  cache := h.cache
  tasks t acts hacts := by
    rw [List.getElem?_set] at hacts
    split_ifs at hacts with heq hlt
    · obtain rfl := Option.some.inj hacts
      subst heq
      exact fun a ha => h.tasks _ _ htask a (List.mem_cons_of_mem _ ha)
    · exact h.tasks t acts hacts
  waiting := h.waiting
  pending := h.pending

/-- An action with a handshake behind it keeps the invariant. -/
private theorem PairInv.perform (h : PairInv crypto st) {task : ℕ} {action : PairAction}
    (hok : ActionOk crypto st.log task action) : PairInv crypto (st.perform crypto task action) := by
  cases action with
  | setPairCache key cache =>
    refine ⟨fun k c hc => ?_, h.tasks, h.waiting, h.pending⟩
    simp only [PairState.perform] at hc
    split_ifs at hc with hk
    · obtain rfl := Option.some.inj hc
      exact hk ▸ hok
    · exact h.cache k c hc
  | removePairCache key =>
    refine ⟨fun k c hc => ?_, h.tasks, h.waiting, h.pending⟩
    simp only [PairState.perform] at hc
    split_ifs at hc
    exact h.cache k c hc
  | addPairedClient key request clientCert =>
    have hlog := h.addLog [.paired key request clientCert]
    exact ⟨hlog.cache, hlog.tasks, hlog.waiting, hlog.pending⟩
  | removePairedClient clientCert => exact ⟨h.cache, h.tasks, h.waiting, h.pending⟩
  | registerPin waiting clientIp =>
    have hlog := h.addLog [.phase1 waiting.key waiting.salt waiting.clientCert waiting.secret]
    refine ⟨hlog.cache, hlog.tasks, ?_, ?_⟩
    · intro w hw
      rcases List.mem_append.mp hw with hw | hw
      · exact hlog.waiting w hw
      · rw [List.mem_singleton] at hw
        subst hw
        refine ⟨List.mem_append_right _ (List.mem_singleton_self _), fun pin hpin => ?_⟩
        exact absurd (hpin.symm.trans hok) (Option.some_ne_none pin)
    · intro secret p hp
      simp only [PairState.perform] at hp
      split_ifs at hp with hsecret
      · obtain rfl := Option.some.inj hp
        exact ⟨waiting, by simp [PairState.perform], hsecret.symm⟩
      · obtain ⟨w, hw, hws⟩ := h.pending secret p (Option.filter_eq_some_iff.mp hp).1
        refine ⟨w, ?_, hws⟩
        rw [PairState.perform, List.getElem?_append_left (List.getElem?_eq_some_iff.mp hw).1, hw]
  | dropPin secret =>
    refine ⟨h.cache, h.tasks, h.waiting, fun s p hp => ?_⟩
    simp only [PairState.perform] at hp
    split_ifs at hp
    exact h.pending s p hp
  | reply reply => exact ⟨h.cache, h.tasks, h.waiting, h.pending⟩

/-- A woken thread writes an entry of the handshake its PIN belongs to. -/
private theorem actionOk_completePhase1 {log : List PairEvent} {task : ℕ} {w : WaitingPin}
    {pin : Bytes} (hw : WaitingOk log w) (hpin : w.pin = some pin) :
    ∀ action ∈ completePhase1 crypto server w pin, ActionOk crypto log task action := by
  have hderived : Derived crypto log w.key {
      clientCert := hexToStr w.clientCert true
      aesKey := genAesKey crypto w.salt pin
      lastPhase := .getServerCert } :=
    .getServerCert ⟨w.salt, w.clientCert, w.secret, pin, [], [], [], []⟩ (hw.2 pin hpin)
  simp only [completePhase1, List.forall_mem_cons]
  exact ⟨hderived, trivial, fun _ h => nomatch h⟩

/-- A thread that has been woken, or has given up, waits no more. -/
private theorem PairInv.setDone (h : PairInv crypto st) {thread : ℕ} {w : WaitingPin}
    (hw : st.waiting[thread]? = some w) :
    PairInv crypto { st with waiting := st.waiting.set thread { w with done := true } } where
  cache := h.cache
  tasks := h.tasks
  waiting v hv := by
    rcases List.mem_or_eq_of_mem_set hv with hv | rfl
    · exact h.waiting v hv
    · exact h.waiting w (List.mem_of_getElem? hw)
  pending secret p hp := by
    obtain ⟨v, hv, hvs⟩ := h.pending secret p hp
    rw [List.getElem?_set]
    split_ifs with heq hlt
    · rw [← heq, hw] at hv
      obtain rfl := Option.some.inj hv
      exact ⟨_, rfl, hvs⟩
    · rw [← heq] at hv
      exact absurd (List.getElem?_eq_some_iff.mp hv).1 hlt
    · exact ⟨v, hv, hvs⟩

/-- A posted PIN goes to a thread that waits for its secret. -/
private theorem PairInv.postPin (h : PairInv crypto st) {secret pin : Bytes} {p : PendingPin}
    (hp : st.pendingPins secret = some p) :
    PairInv crypto { st with
      waiting := st.waiting.modify p.thread fun w => { w with pin := some pin }
      pendingPins := fun s => if s = secret then none else st.pendingPins s
      log := st.log ++ [.pin secret pin] } where
  cache := (h.addLog _).cache
  tasks := (h.addLog _).tasks
  waiting v hv := by
    obtain ⟨i, hi⟩ := List.mem_iff_getElem?.mp hv
    rw [List.getElem?_modify] at hi
    obtain ⟨w, hw, rfl⟩ := Option.map_eq_some_iff.mp hi
    split_ifs with heq
    · -- the thread of the pending PIN has its secret
      obtain ⟨w', hw', hsecret⟩ := h.pending secret p hp
      rw [heq, hw] at hw'
      obtain rfl := Option.some.inj hw'
      exact hsecret ▸ (h.waiting w (List.mem_of_getElem? hw)).setPin
    · exact (h.addLog _).waiting w (List.mem_of_getElem? hw)
  pending s p' hp' := by
    simp only at hp'
    split_ifs at hp'
    obtain ⟨w, hw, hws⟩ := h.pending s p' hp'
    rw [List.getElem?_modify, hw]
    refine ⟨_, rfl, ?_⟩
    split_ifs
    · exact hws
    · exact hws

/-- Every step keeps the invariant. -/
theorem pairInv_step {event : PairStep} (h : PairInv crypto st)
    (hstep : pairStep crypto server st event = some st') : PairInv crypto st' := by
  cases event with
  | request headers clientIp rand =>
    obtain rfl := Option.some.inj hstep
    refine (h.addLog _).startTask (handlerOk_httpPair fun key cache hkey hcache => ?_)
    rw [hkey] at hcache
    exact h.cache key cache hcache
  | unpair headers clientIp =>
    obtain rfl := Option.some.inj hstep
    refine (h.addLog _).startTask fun action haction => ?_
    unfold unpair at haction
    split at haction
    all_goals simp only [List.mem_cons, List.not_mem_nil, or_false] at haction
    · subst haction
      trivial
    · rcases haction with rfl | rfl
      · trivial
      · trivial
  | act task =>
    obtain ⟨action, rest, htask, rfl⟩ := pairStep_act_iff.mp hstep
    exact (h.popTask htask).perform (h.tasks task _ htask action (List.mem_cons_self ..))
  | postPin secret pin =>
    simp only [pairStep] at hstep
    split at hstep
    · obtain rfl := Option.some.inj hstep
      exact h
    · rename_i p hp
      obtain rfl := Option.some.inj hstep
      exact h.postPin hp
  | pinReady thread =>
    obtain ⟨w, pin, hw, -, hpin, rfl⟩ := pairStep_pinReady_iff.mp hstep
    have hwok := h.waiting w (List.mem_of_getElem? hw)
    exact (h.setDone hw).startTask (actionOk_completePhase1 hwok hpin)
  | pinTimeout thread =>
    obtain ⟨w, hw, -, -, rfl⟩ := pairStep_pinTimeout_iff.mp hstep
    exact (h.setDone hw).startTask (by simp [timeoutPhase1, ActionOk])

end Step

/-! ### Runs -/

section Runs

variable {Cert : Type} (crypto : PairCrypto Cert) (server : ServerIdentity) (store : ClientStore)

theorem pairInv_isInvariant :
    System.IsInvariant (pairSystem crypto server store) (PairInv crypto) where
  init := by
    refine ⟨?_, ?_, ?_, ?_⟩
    · intro key cache h
      cases h
    · intro task actions h
      cases h
    · intro w h
      cases h
    · intro secret p h
      cases h
  step := pairInv_step

/-- **Pairing safety.** Whatever the interleaving, when `add_paired_client` is about to be
called the log holds a whole handshake of that certificate that ends with the request at hand,
and it verifies. -/
theorem addPairedClient_justified {st : PairState}
    (hst : (pairSystem crypto server store).Reachable st) {task request : ℕ}
    {key clientCert : Bytes} {rest : List PairAction}
    (htask : st.tasks[task]? = some (.addPairedClient key request clientCert :: rest)) :
    request = task ∧ Justified crypto st.log key task clientCert := by
  have hinv := (pairInv_isInvariant crypto server store).reachable hst
  have hok := hinv.tasks task _ htask _ (List.mem_cons_self ..)
  exact ⟨hok.1, hok.1 ▸ hok.2⟩

/-! ### A handshake from end to end -/

/-- Primitives under which everything verifies: no digest, and a cipher that keeps nothing. -/
def emptyCrypto : PairCrypto Bytes where
  sha256 _ := []
  aesEncryptEcb _ _ := []
  aesDecryptEcb _ _ := []
  sign _ _ := []
  verify _ _ _ := true
  readPem := some
  certSignature _ := []
  certPublicKey _ := []
  stdHash _ := 7

/-- What every request draws. -/
def drawnBytes : PairRandom where
  pinSecret := List.replicate 8 1
  serverSecret := List.replicate 16 2
  serverChallenge := List.replicate 16 3
  length_pinSecret := rfl
  length_serverSecret := rfl
  length_serverChallenge := rfl

/-- The address of the client. -/
def someIp : ClientIp where
  text := ascii "192.168.1.20"
  at_notMem := by decide

/-- A request of one client, from one address. -/
def pairRequest (headers : Query) : PairStep :=
  .request ((ascii "uniqueid", ascii "moonlight") :: headers) someIp drawnBytes

/-- The first three phases. -/
def threePhases : List PairStep :=
  [pairRequest [(ascii "salt", ascii "a0c2"), (ascii "clientcert", ascii "2d2d")], .act 0,
    .postPin (strToHex (List.replicate 8 1)) (ascii "7284"), .pinReady 0, .act 1, .act 1,
    pairRequest [(ascii "clientchallenge", ascii "6041")], .act 2, .act 2,
    pairRequest [(ascii "serverchallengeresp", ascii "2798")], .act 3, .act 3]

/-- A server without paired clients. -/
def emptySystem : System PairState PairStep := pairSystem emptyCrypto ⟨[], [], []⟩ ⟨[], ∅⟩

/-- The state after the first three phases. -/
def afterThreePhases : PairState :=
  (emptySystem.run emptySystem.init threePhases).getD { store := ⟨[], ∅⟩ }

/-- The entry the fourth request reads. -/
def lastCache : PairCache where
  clientCert := ascii "--"
  aesKey := List.replicate 16 0
  lastPhase := .serverChallengeResp
  serverSecret := some (List.replicate 16 2)
  serverChallenge := some (List.replicate 16 3)
  clientHash := some []

/-- With a long enough secret the client is paired by its fourth request. -/
private theorem httpPair_lastCache {secret : Bytes} (rand : PairRandom)
    (hsecret : 512 ≤ secret.countP isConvertable) :
    httpPair emptyCrypto ⟨[], [], []⟩
      [(ascii "uniqueid", ascii "moonlight"), (ascii "clientpairingsecret", secret)]
      (ascii "192.168.1.20") rand 4 (some lastCache) =
      ([.phase4 (ascii "moonlight@192.168.1.20") 4 secret],
        completePhase4 (ascii "moonlight@192.168.1.20") 4 lastCache.clientCert) := by
  have hpaired : (clientPair emptyCrypto (List.replicate 16 3) [] secret
      (emptyCrypto.certSignature (ascii "--")) (emptyCrypto.certPublicKey (ascii "--"))).1 =
        true := by
    rw [clientPair_fst_eq_true_iff, length_hexToStr]
    exact ⟨by rw [digestSize]; omega, hexToStr_nil true, rfl⟩
  change pairPhase4 emptyCrypto (ascii "moonlight@192.168.1.20") 4 secret (List.replicate 16 3) []
    lastCache = _
  exact pairPhase4_of_paired emptyCrypto rfl rfl hpaired

/-- A state in which its certificate is about to be added. -/
private theorem exists_addPairedClient (secret : Bytes)
    (hsecret : 512 ≤ secret.countP isConvertable) :
    ∃ st rest, emptySystem.Reachable st ∧
      st.tasks[4]? = some
        (.addPairedClient (ascii "moonlight@192.168.1.20") 4 (ascii "--") :: rest) := by
  have hthree : emptySystem.Reachable afterThreePhases :=
    ⟨threePhases, rfl⟩
  have hcache : afterThreePhases.pairingCache (ascii "moonlight@192.168.1.20") =
      some lastCache := by decide +kernel
  have hlength : afterThreePhases.tasks.length = 4 := by decide +kernel
  have hpair := httpPair_lastCache drawnBytes hsecret
  rw [← hlength, ← hcache] at hpair
  have hrequest : pairStep emptyCrypto ⟨[], [], []⟩ afterThreePhases
      (pairRequest [(ascii "clientpairingsecret", secret)]) = some _ := pairStep_request hpair
  rw [← pairSystem_step] at hrequest
  obtain ⟨st, hst, htasks⟩ : ∃ st, emptySystem.Reachable st ∧ st.tasks =
      afterThreePhases.tasks ++ [completePhase4 (ascii "moonlight@192.168.1.20") 4 (ascii "--")] :=
    ⟨_, hthree.step hrequest, by rw [hlength]; rfl⟩
  have htask : st.tasks[4]? =
      some (completePhase4 (ascii "moonlight@192.168.1.20") 4 (ascii "--")) := by
    rw [htasks, ← hlength]
    exact List.getElem?_concat_length
  -- the reply goes out, the addition is next
  have hreply : pairStep emptyCrypto ⟨[], [], []⟩ st (.act 4) = some _ :=
    pairStep_act_iff.mpr ⟨_, _, htask, rfl⟩
  rw [← pairSystem_step] at hreply
  refine ⟨_, _, hst.step hreply, List.getElem?_set_self ?_⟩
  exact (List.getElem?_eq_some_iff.mp htask).1

/-- What `addPairedClient_justified` says of this handshake. -/
theorem addPairedClient_justified_fourPhases :
    ∃ st rest, emptySystem.Reachable st ∧
      st.tasks[4]? = some
        (.addPairedClient (ascii "moonlight@192.168.1.20") 4 (ascii "--") :: rest) ∧
      4 = 4 ∧
      Justified emptyCrypto st.log (ascii "moonlight@192.168.1.20") 4 (ascii "--") := by
  obtain ⟨st, rest, hst, htask⟩ := exists_addPairedClient (List.replicate 512 48)
    (by rw [List.countP_replicate]; decide)
  exact ⟨st, rest, hst, htask, addPairedClient_justified _ _ _ hst htask⟩

end Runs

end SteamStream.Pairing
