import SteamStream.Pairing.Safety

/-!
# Requests out of order

A handler picks its phase by the parameters of the request *and* by which optional fields of the
cache entry are set, and only then compares the phase with the last one. So a request that
repeats a phase is refused and resets the handshake, but one that skips a phase falls through
to the end of the handler: it is not answered, and the entry stays
(`refusesAndResets_iff`).
-/

namespace SteamStream.Pairing

open Wire CText Crypto Rest Runs State

/-! ### A handler from start to end -/

section Serve

variable {Cert : Type} (crypto : PairCrypto Cert) (server : ServerIdentity)

/-- All actions of a task take effect. -/
def PairState.performAll (st : PairState) (task : ℕ) (actions : List PairAction) : PairState :=
  actions.foldl (fun st action => st.perform crypto task action) st

/-- A `/pair` request is handled without another step in between. -/
def serve (st : PairState) (headers : Query) (clientIp : ClientIp) (rand : PairRandom) :
    PairState :=
  let cached := (requestKey headers clientIp.text).bind st.pairingCache
  let (events, actions) := httpPair crypto server headers clientIp.text rand st.tasks.length cached
  { st with tasks := st.tasks ++ [[]], log := st.log ++ events }.performAll crypto st.tasks.length
    actions

variable {crypto server} {st : PairState}

/-- Taking the actions of a task one after the other. -/
theorem run_act {task : ℕ} {actions : List PairAction}
    (htask : st.tasks[task]? = some actions) (store : ClientStore) :
    (pairSystem crypto server store).run st (List.replicate actions.length (.act task)) =
      some ({ st with tasks := st.tasks.set task [] }.performAll crypto task actions) := by
  induction actions generalizing st with
  | nil =>
    have hset : st.tasks.set task [] = st.tasks := by
      obtain ⟨hlt, hget⟩ := List.getElem?_eq_some_iff.mp htask
      rw [← hget, List.set_getElem_self]
    rw [hset]
    rfl
  | cons action rest ih =>
    have hstep : pairStep crypto server st (.act task) =
        some ({ st with tasks := st.tasks.set task rest }.perform crypto task action) :=
      pairStep_act_iff.mpr ⟨action, rest, htask, rfl⟩
    have hlt := (List.getElem?_eq_some_iff.mp htask).1
    have hrest : ({ st with tasks := st.tasks.set task rest }.perform crypto task
        action).tasks[task]? = some rest := by
      cases action <;> exact List.getElem?_set_self hlt
    rw [List.length_cons, List.replicate_succ, System.run_cons, pairSystem_step, hstep,
      Option.bind_some, ih hrest]
    -- the list of tasks plays no part in the effects
    cases action <;> simp only [PairState.perform, PairState.performAll, List.foldl_cons,
      List.set_set]

/-- Handling a request is a run of the system. -/
theorem run_serve (st : PairState) (headers : Query) (clientIp : ClientIp) (rand : PairRandom)
    (store : ClientStore) :
    ∃ n, (pairSystem crypto server store).run st
      (.request headers clientIp rand :: List.replicate n (.act st.tasks.length)) =
        some (serve crypto server st headers clientIp rand) := by
  obtain ⟨⟨events, actions⟩, houtcome⟩ : ∃ outcome, httpPair crypto server headers clientIp.text
    rand st.tasks.length ((requestKey headers clientIp.text).bind st.pairingCache) = outcome :=
    ⟨_, rfl⟩
  have hstep : pairStep crypto server st (.request headers clientIp rand) = some _ :=
    pairStep_request houtcome
  refine ⟨actions.length, ?_⟩
  rw [System.run_cons, pairSystem_step, hstep, Option.bind_some,
    run_act List.getElem?_concat_length]
  simp only [serve, houtcome]
  rw [List.set_append_right _ _ le_rfl, Nat.sub_self, List.set_cons_zero]

end Serve

/-! ### Which phase a request is for -/

/-- The value of the enumeration. -/
def PairPhase.toNat : PairPhase → ℕ
  | .none => 0
  | .getServerCert => 1
  | .clientChallenge => 2
  | .serverChallengeResp => 3
  | .clientPairingSecret => 4

/-- The request has the parameters of the phase. -/
def PairPhase.CarriedBy (headers : Query) : PairPhase → Prop
  | .none => False
  | .getServerCert =>
    (getHeader headers "salt").isSome ∧ (getHeader headers "clientcert").isSome
  | .clientChallenge => (getHeader headers "clientchallenge").isSome
  | .serverChallengeResp => (getHeader headers "serverchallengeresp").isSome
  | .clientPairingSecret => (getHeader headers "clientpairingsecret").isSome

instance (headers : Query) : (phase : PairPhase) → Decidable (phase.CarriedBy headers)
  | .none => inferInstanceAs (Decidable False)
  | .getServerCert => inferInstanceAs (Decidable (_ ∧ _))
  | .clientChallenge | .serverChallengeResp | .clientPairingSecret =>
    inferInstanceAs (Decidable (_ = true))

/-- The request has the parameters of that phase and of no other one. -/
structure PairPhase.CarriedOnlyBy (headers : Query) (phase : PairPhase) : Prop where
  carried : phase.CarriedBy headers
  only : ∀ other : PairPhase, other.CarriedBy headers → other = phase

section Order

variable {Cert : Type} (crypto : PairCrypto Cert) (server : ServerIdentity)

/-- The request is answered by exactly one failure, and no entry of the client is left. -/
def RefusesAndResets (st : PairState) (key : Bytes) (headers : Query) (clientIp : ClientIp)
    (rand : PairRandom) : Prop :=
  ∃ reply : Reply,
    (serve crypto server st headers clientIp rand).replies =
      st.replies ++ [(st.tasks.length, reply)] ∧
    ("paired", toDecimal 0) ∈ reply.xml ∧
    (serve crypto server st headers clientIp rand).pairingCache key = none

variable {crypto server} {headers : Query} {clientIp : ClientIp} {rand : PairRandom}
  {st : PairState} {key : Bytes} {cache : PairCache}

/-- A refusal does what it says. -/
private theorem refusesAndResets_of_refuse {statusMsg : String}
    (h : httpPair crypto server headers clientIp.text rand st.tasks.length
      ((requestKey headers clientIp.text).bind st.pairingCache) = refuse key statusMsg) :
    RefusesAndResets crypto server st key headers clientIp rand := by
  refine ⟨{ statusCode := 400, xml := failPair (ascii statusMsg) }, ?_, ?_, ?_⟩
  · simp only [serve, h]
    rfl
  · exact List.mem_cons_self ..
  · simp only [serve, h]
    exact if_pos rfl

/-- A request that falls through is not answered. -/
private theorem not_refusesAndResets_of_nil
    (h : httpPair crypto server headers clientIp.text rand st.tasks.length
      ((requestKey headers clientIp.text).bind st.pairingCache) = ([], [])) :
    ¬ RefusesAndResets crypto server st key headers clientIp rand := by
  rintro ⟨reply, hreplies, -⟩
  simp only [serve, h] at hreplies
  exact List.cons_ne_nil _ _ (List.self_eq_append_right.mp hreplies)

/-- The parameters of the first phase are looked at first. -/
private theorem httpPair_of_first {request : ℕ} {cached : Option PairCache}
    (hkey : requestKey headers clientIp.text = some key)
    (h : PairPhase.getServerCert.CarriedBy headers) :
    ∃ salt clientCert, httpPair crypto server headers clientIp.text rand request cached =
      pairPhase1 key clientIp.text salt clientCert rand cached := by
  obtain ⟨salt, hsalt⟩ := Option.isSome_iff_exists.mp h.1
  obtain ⟨clientCert, hcert⟩ := Option.isSome_iff_exists.mp h.2
  exact ⟨salt, clientCert, by simp only [httpPair, hkey, hsalt, hcert]⟩

/-- Without them the entry decides. -/
private theorem httpPair_of_later {request : ℕ} (hkey : requestKey headers clientIp.text = some key)
    (h : ¬ PairPhase.getServerCert.CarriedBy headers) :
    httpPair crypto server headers clientIp.text rand request (some cache) =
      pairLaterPhase crypto server key request headers rand cache := by
  simp only [httpPair, hkey]
  split
  · rename_i salt clientCert hsalt hcert
    exact absurd ⟨by rw [hsalt]; rfl, by rw [hcert]; rfl⟩ h
  · rfl

private theorem getHeader_eq_none {name : String} (h : ¬ (getHeader headers name).isSome = true) :
    getHeader headers name = none := Option.not_isSome_iff_eq_none.mp h

/-- On an entry with a handshake behind it, what a request that is not for the next phase comes
to. -/
private theorem refusesAndResets_iff_of_derived {log : List PairEvent} {phase : PairPhase}
    (hkey : requestKey headers clientIp.text = some key)
    (hcache : st.pairingCache key = some cache) (hderived : Derived crypto log key cache)
    (hphase : phase.CarriedOnlyBy headers) (hnext : phase.toNat ≠ cache.lastPhase.toNat + 1) :
    RefusesAndResets crypto server st key headers clientIp rand ↔
      phase.toNat ≤ cache.lastPhase.toNat := by
  have hcached : (requestKey headers clientIp.text).bind st.pairingCache = some cache := by
    rw [hkey, Option.bind_some, hcache]
  have hother : ∀ other : PairPhase, other ≠ phase → ¬ other.CarriedBy headers :=
    fun other hne hcarried => hne (hphase.only other hcarried)
  have hcarried := hphase.carried
  have hpair : phase ≠ .getServerCert →
      httpPair crypto server headers clientIp.text rand st.tasks.length
        ((requestKey headers clientIp.text).bind st.pairingCache) =
        pairLaterPhase crypto server key st.tasks.length headers rand cache := fun hne => by
    rw [hcached]
    exact httpPair_of_later hkey (hother .getServerCert hne.symm)
  cases phase with
  | none => exact hcarried.elim
  | getServerCert =>
    -- there is an entry already
    have hrefuse : httpPair crypto server headers clientIp.text rand st.tasks.length
        ((requestKey headers clientIp.text).bind st.pairingCache) =
        refuse key "Out of order pair request (phase 1)" := by
      obtain ⟨salt, clientCert, hfirst⟩ := httpPair_of_first hkey hcarried
      rw [hcached, hfirst]
      rfl
    refine iff_of_true (refusesAndResets_of_refuse hrefuse) ?_
    cases hderived <;> simp [PairPhase.toNat]
  | clientChallenge =>
    obtain ⟨challenge, hchallenge⟩ := Option.isSome_iff_exists.mp hcarried
    have hlater : pairLaterPhase crypto server key st.tasks.length headers rand cache =
        pairPhase2 crypto server key challenge rand cache := by
      simp only [pairLaterPhase, hchallenge]
    specialize hpair (by decide)
    rw [hlater] at hpair
    cases hderived with
    | getServerCert t h => exact absurd rfl hnext
    | clientChallenge t h =>
      exact iff_of_true (refusesAndResets_of_refuse hpair) (by simp [PairPhase.toNat])
    | serverChallengeResp t h =>
      exact iff_of_true (refusesAndResets_of_refuse hpair) (by simp [PairPhase.toNat])
  | serverChallengeResp =>
    obtain ⟨resp, hresp⟩ := Option.isSome_iff_exists.mp hcarried
    have hchallenge := getHeader_eq_none (hother .clientChallenge (by decide))
    have hsecret := getHeader_eq_none (hother .clientPairingSecret (by decide))
    specialize hpair (by decide)
    cases hderived with
    | getServerCert t h =>
      -- no server secret yet: the request falls through
      refine iff_of_false (not_refusesAndResets_of_nil ?_) (by simp [PairPhase.toNat])
      rw [hpair]
      simp only [pairLaterPhase, hchallenge, hresp, hsecret]
    | clientChallenge t h => exact absurd rfl hnext
    | serverChallengeResp t h =>
      have hrefuse : httpPair crypto server headers clientIp.text rand st.tasks.length
          ((requestKey headers clientIp.text).bind st.pairingCache) =
          refuse key "Out of order pair request (phase 3)" := by
        rw [hpair]
        simp only [pairLaterPhase, hchallenge, hresp]
        rfl
      exact iff_of_true (refusesAndResets_of_refuse hrefuse) (by simp [PairPhase.toNat])
  | clientPairingSecret =>
    obtain ⟨secret, hsecret⟩ := Option.isSome_iff_exists.mp hcarried
    have hchallenge := getHeader_eq_none (hother .clientChallenge (by decide))
    have hresp := getHeader_eq_none (hother .serverChallengeResp (by decide))
    specialize hpair (by decide)
    cases hderived with
    | getServerCert t h =>
      refine iff_of_false (not_refusesAndResets_of_nil ?_) (by simp [PairPhase.toNat])
      rw [hpair]
      simp only [pairLaterPhase, hchallenge, hresp, hsecret]
    | clientChallenge t h =>
      -- no client hash yet
      refine iff_of_false (not_refusesAndResets_of_nil ?_) (by simp [PairPhase.toNat])
      rw [hpair]
      simp only [pairLaterPhase, hchallenge, hresp, hsecret]
    | serverChallengeResp t h => exact absurd rfl hnext

/-- **When an out-of-order request is refused.** For every entry the cache can hold and every
request with the parameters of one phase that is not the next one: it is answered by exactly
one failure, and the entry is gone, if and only if the phase is one the handshake has behind
it. -/
theorem refusesAndResets_iff (store : ClientStore)
    (hst : (pairSystem crypto server store).Reachable st)
    (hkey : requestKey headers clientIp.text = some key)
    (hcache : st.pairingCache key = some cache) {phase : PairPhase}
    (hphase : phase.CarriedOnlyBy headers) (hnext : phase.toNat ≠ cache.lastPhase.toNat + 1) :
    RefusesAndResets crypto server st key headers clientIp rand ↔
      phase.toNat ≤ cache.lastPhase.toNat :=
  refusesAndResets_iff_of_derived hkey hcache
    (((pairInv_isInvariant crypto server store).reachable hst).cache key cache hcache) hphase hnext

end Order

/-! ### A phase is skipped -/

/-- The state after the first phase. -/
def afterOnePhase : PairState :=
  (emptySystem.run emptySystem.init (threePhases.take 6)).getD { store := ⟨[], ∅⟩ }

/-- The entry the first phase leaves. -/
def firstCache : PairCache where
  clientCert := ascii "--"
  aesKey := List.replicate 16 0
  lastPhase := .getServerCert

/-- The query of a request of that client. -/
def queryWith (headers : Query) : Query := (ascii "uniqueid", ascii "moonlight") :: headers

private theorem reachable_afterOnePhase : emptySystem.Reachable afterOnePhase :=
  ⟨threePhases.take 6, rfl⟩

private theorem cache_afterOnePhase :
    afterOnePhase.pairingCache (ascii "moonlight@192.168.1.20") = some firstCache := by
  decide +kernel

/-- The parameters of the third phase, on that entry: nothing is answered. -/
theorem not_refusesAndResets_skip :
    emptySystem.Reachable afterOnePhase ∧
      afterOnePhase.pairingCache (ascii "moonlight@192.168.1.20") = some firstCache ∧
      PairPhase.serverChallengeResp.CarriedOnlyBy
        (queryWith [(ascii "serverchallengeresp", ascii "2798")]) ∧
      ¬ RefusesAndResets emptyCrypto ⟨[], [], []⟩ afterOnePhase (ascii "moonlight@192.168.1.20")
        (queryWith [(ascii "serverchallengeresp", ascii "2798")])
        someIp drawnBytes := by
  refine ⟨reachable_afterOnePhase, cache_afterOnePhase, ⟨by decide, fun other hother => ?_⟩, ?_⟩
  · cases other with
    | serverChallengeResp => rfl
    | _ => exact absurd hother (by decide)
  · rintro ⟨reply, hreplies, -⟩
    have hlength := congrArg List.length hreplies
    rw [List.length_append, List.length_singleton] at hlength
    revert hlength
    decide +kernel

/-- The parameters of the first phase, on that entry: the request is refused. -/
theorem refusesAndResets_iff_repeat :
    RefusesAndResets emptyCrypto ⟨[], [], []⟩ afterOnePhase (ascii "moonlight@192.168.1.20")
        (queryWith [(ascii "salt", ascii "a0c2"), (ascii "clientcert", ascii "2d2d")])
        someIp drawnBytes ↔
      PairPhase.getServerCert.toNat ≤ firstCache.lastPhase.toNat := by
  refine refusesAndResets_iff ⟨[], ∅⟩ reachable_afterOnePhase rfl cache_afterOnePhase
    ⟨by decide, fun other hother => ?_⟩ (by decide)
  cases other with
  | getServerCert => rfl
  | _ => exact absurd hother (by decide)

end SteamStream.Pairing
