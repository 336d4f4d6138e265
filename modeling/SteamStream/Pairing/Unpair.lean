import SteamStream.Pairing.Order

/-!
# Unpairing

`/unpair` knows a client by its unique id and its address, and finds its certificate only in the
pairing cache. The last phase of a handshake removes the entry, so an ordinary `/unpair` finds
nothing, removes nothing and answers 200 (`not_unpairTakesEffect_paired`).

`FindsCertificate` is the condition under which it does what it says: whatever the client has
completed pairing with, and is still stored, is the certificate of the entry in the cache, as it
is while a further handshake of the client is under way.
-/

namespace SteamStream.Pairing

open Wire CText Crypto Rest Runs State

/-! ### The store -/

section Store

variable {hash : Bytes → ℕ} {store : ClientStore} {c clientCert : Bytes}

/-- The certificate is paired, in memory or in the directory. -/
def Stored (store : ClientStore) (c : Bytes) : Prop :=
  c ∈ store.pairedClients ∨ c ∈ loadClients store.dir

/-- Adding another certificate does not bring one back. -/
theorem stored_of_add (hne : c ≠ clientCert)
    (h : Stored (store.addPairedClient hash clientCert) c) : Stored store c := by
  rcases h with hmem | hload
  · rw [ClientStore.addPairedClient, List.mem_append, List.mem_singleton] at hmem
    exact .inl (hmem.resolve_right hne)
  · obtain ⟨hempty, heq | hheld⟩ := mem_loadClients_addOps.mp hload
    · exact absurd heq hne
    · exact .inr ((mem_loadClients_iff_heldElsewhere isPem_clientFile).mpr ⟨hempty, .inr hheld⟩)

/-- Nor does removing one. -/
theorem stored_of_remove (h : Stored (store.removePairedClient hash clientCert) c) :
    Stored store c := by
  rcases h with hmem | hload
  · exact .inl (List.mem_filter.mp hmem).1
  · obtain ⟨hempty, hheld⟩ := mem_loadClients_removeOps.mp hload
    exact .inr ((mem_loadClients_iff_heldElsewhere isPem_clientFile).mpr ⟨hempty, .inr hheld⟩)

/-- A certificate that is removed is gone, if its file was the only one. -/
theorem not_stored_remove (h : ¬ HeldElsewhere store.dir (clientFile hash c) c) :
    ¬ Stored (store.removePairedClient hash c) c := by
  rintro (hmem | hload)
  · exact of_decide_eq_true (List.mem_filter.mp hmem).2 rfl
  · exact h (mem_loadClients_removeOps.mp hload).2

/-- Only the file named by the hash of a certificate is ever written with it. -/
theorem heldElsewhere_of_add
    (h : HeldElsewhere (store.addPairedClient hash clientCert).dir (clientFile hash c) c) :
    HeldElsewhere store.dir (clientFile hash c) c := by
  obtain ⟨name, hname, hpem, hlookup⟩ := h
  rw [ClientStore.addPairedClient, addOps, lookup_perform_writeFile hpem] at hlookup
  split_ifs at hlookup with heq
  · rw [Option.some.inj hlookup] at heq
    exact absurd heq hname
  · exact ⟨name, hname, hpem, hlookup⟩

theorem heldElsewhere_of_remove
    (h : HeldElsewhere (store.removePairedClient hash clientCert).dir (clientFile hash c) c) :
    HeldElsewhere store.dir (clientFile hash c) c := by
  obtain ⟨name, hname, hpem, hlookup⟩ := h
  rw [ClientStore.removePairedClient, removeOps, Files.perform_cons, Files.perform_nil,
    Files.FileOp.apply, Files.lookup_erase_eq] at hlookup
  split_ifs at hlookup
  exact ⟨name, hname, hpem, hlookup⟩

end Store

/-! ### What an answer promises -/

/-- The client has completed pairing with the certificate, has then sent that `/unpair`, and the
certificate has not been paired again. -/
def UnpairedSince (log : List PairEvent) (key : Bytes) (request : ℕ) (c : Bytes) : Prop :=
  ∃ before after, log = before ++ .unpair key request :: after ∧
    (∃ r, .paired key r c ∈ before) ∧ ∀ k r, .paired k r c ∉ after

/-- Once an `/unpair` is answered by 200, what the client has paired is not stored any more,
until it is paired again. -/
def UnpairTakesEffect (st : PairState) : Prop :=
  ∀ key request c, UnpairedSince st.log key request c →
    (∃ reply : Reply, (request, reply) ∈ st.replies ∧ reply.statusCode = 200) →
    ¬ Stored st.store c

section Log

variable {log events : List PairEvent} {key c : Bytes} {request : ℕ}

/-- What is appended to the log either leaves the question as it was, or answers it anew. -/
theorem UnpairedSince.of_append (h : UnpairedSince (log ++ events) key request c)
    (hevents : .unpair key request ∉ events) :
    UnpairedSince log key request c ∧ ∀ k r, .paired k r c ∉ events := by
  obtain ⟨before, after, heq, hpaired, hnot⟩ := h
  rcases List.append_eq_append_iff.mp heq with ⟨rest, rfl, hrest⟩ | ⟨rest, rfl, hrest⟩
  · -- the request would be among the new events
    exact absurd (hrest ▸ List.mem_append_right _ (List.mem_cons_self ..)) hevents
  · cases rest with
    | nil =>
      have hmem : .unpair key request ∈ [] ++ events := hrest ▸ List.mem_cons_self ..
      exact absurd hmem hevents
    | cons e rest =>
      obtain ⟨rfl, rfl⟩ := List.cons.inj hrest
      exact ⟨⟨before, rest, rfl, hpaired, fun k r h => hnot k r (List.mem_append_left _ h)⟩,
        fun k r h => hnot k r (List.mem_append_right _ h)⟩

/-- Another `/unpair` at the end. -/
theorem UnpairedSince.of_append_unpair {key' : Bytes} {request' : ℕ}
    (h : UnpairedSince (log ++ [.unpair key' request']) key request c) :
    UnpairedSince log key request c ∨
      (key = key' ∧ request = request' ∧ ∃ r, .paired key r c ∈ log) := by
  by_cases hsame : .unpair key request ∈ [PairEvent.unpair key' request']
  · obtain ⟨rfl, rfl⟩ := PairEvent.unpair.inj (List.mem_singleton.mp hsame)
    obtain ⟨before, after, heq, hpaired, hnot⟩ := h
    rcases List.append_eq_append_iff.mp heq with ⟨rest, rfl, hrest⟩ | ⟨rest, rfl, hrest⟩
    · cases rest with
      | nil => exact .inr ⟨rfl, rfl, by simpa using hpaired⟩
      | cons e rest =>
        have hlength := congrArg List.length hrest
        simp at hlength
    · cases rest with
      | nil => exact .inr ⟨rfl, rfl, by simpa using hpaired⟩
      | cons e rest =>
        obtain ⟨rfl, rfl⟩ := List.cons.inj hrest
        exact .inl ⟨before, rest, rfl, hpaired, fun k r h => hnot k r (List.mem_append_left _ h)⟩
  · exact .inl (h.of_append hsame).1

/-- The events of a handshake say nothing about who is paired. -/
private theorem httpPair_exchange {Cert : Type} {crypto : PairCrypto Cert}
    {server : ServerIdentity} {headers : Query} {clientIp : Bytes} {rand : PairRandom}
    {cached : Option PairCache} :
    (∀ key r, .unpair key r ∉
      (httpPair crypto server headers clientIp rand request cached).1) := by
  intro key r
  unfold httpPair pairPhase1 pairLaterPhase pairPhase2 pairPhase3 pairPhase4 refuse
  repeat' split
  all_goals simp

end Log

/-! ### The invariant -/

section Invariant

variable (hash : Bytes → ℕ)

/-- What an `/unpair` has not removed yet, it is going to. -/
structure UnpairInv (st : PairState) : Prop where
  /-- An `/unpair` that has something left to do has not been answered. -/
  pending : ∀ key request, .unpair key request ∈ st.log →
    ∃ cached rest, st.tasks[request]? = some rest ∧ rest.IsSuffix (unpair cached) ∧
      (rest ≠ [] → ∀ reply, (request, reply) ∉ st.replies)
  replied : ∀ task reply, (task, reply) ∈ st.replies → task < st.tasks.length
  absent : ∀ key request c, UnpairedSince st.log key request c →
    ¬ Stored st.store c ∨
      (∃ rest, st.tasks[request]? = some rest ∧ .removePairedClient c ∈ rest) ∧
        ¬ HeldElsewhere st.store.dir (clientFile hash c) c

variable {hash} {st : PairState}

theorem UnpairInv.takesEffect (h : UnpairInv hash st) : UnpairTakesEffect st := by
  rintro key request c hsince ⟨reply, hreply, -⟩
  have hmem : .unpair key request ∈ st.log := by
    obtain ⟨before, after, hlog, -⟩ := hsince
    rw [hlog]
    exact List.mem_append_right _ (List.mem_cons_self ..)
  obtain ⟨cached, rest, htask, -, hunanswered⟩ := h.pending key request hmem
  -- it has been answered, so nothing is left to do
  have hrest : rest = [] := by_contra fun hne => hunanswered hne reply hreply
  rcases h.absent key request c hsince with habsent | ⟨⟨rest', htask', hremove⟩, -⟩
  · exact habsent
  · rw [htask, hrest] at htask'
    rw [← Option.some.inj htask'] at hremove
    cases hremove

/-- What is left of an `/unpair` is a removal and a reply, or a reply. -/
private theorem unpair_suffix {cached : Option PairCache} {action : PairAction}
    {rest : List PairAction} (h : (action :: rest).IsSuffix (unpair cached)) :
    (∃ reply, action = .reply reply ∧ rest = []) ∨
      (∃ c reply, action = .removePairedClient c ∧ rest = [.reply reply]) := by
  cases cached with
  | none =>
    rw [unpair, List.suffix_cons_iff] at h
    rcases h with h | h
    · obtain ⟨rfl, rfl⟩ := List.cons.inj h
      exact .inl ⟨_, rfl, rfl⟩
    · exact absurd (List.suffix_nil.mp h) (List.cons_ne_nil _ _)
  | some cache =>
    rw [unpair, List.suffix_cons_iff, List.suffix_cons_iff] at h
    rcases h with h | h | h
    · obtain ⟨rfl, rfl⟩ := List.cons.inj h
      exact .inr ⟨_, _, rfl, rfl⟩
    · obtain ⟨rfl, rfl⟩ := List.cons.inj h
      exact .inl ⟨_, rfl, rfl⟩
    · exact absurd (List.suffix_nil.mp h) (List.cons_ne_nil _ _)

/-- What goes to the log keeps the invariant, as long as it is no `/unpair`. -/
private theorem UnpairInv.addLog (h : UnpairInv hash st) {events : List PairEvent}
    (hevents : ∀ key request, .unpair key request ∉ events) :
    UnpairInv hash { st with log := st.log ++ events } where
  pending key request hmem :=
    h.pending key request ((List.mem_append.mp hmem).resolve_right (hevents key request))
  replied := h.replied
  absent key request c hsince :=
    h.absent key request c (hsince.of_append (hevents key request)).1

/-- So does a task that starts. -/
private theorem UnpairInv.startTask (h : UnpairInv hash st) {actions : List PairAction} :
    UnpairInv hash { st with tasks := st.tasks ++ [actions] } where
  pending key request hmem := by
    obtain ⟨cached, rest, htask, hsuffix⟩ := h.pending key request hmem
    have hlt := (List.getElem?_eq_some_iff.mp htask).1
    exact ⟨cached, rest, by rw [List.getElem?_append_left hlt, htask], hsuffix⟩
  replied task reply hmem := by
    rw [List.length_append]
    exact Nat.lt_add_right _ (h.replied task reply hmem)
  absent key request c hsince := by
    refine (h.absent key request c hsince).imp_right ?_
    rintro ⟨⟨rest, htask, hremove⟩, hheld⟩
    have hlt := (List.getElem?_eq_some_iff.mp htask).1
    exact ⟨⟨rest, by rw [List.getElem?_append_left hlt, htask], hremove⟩, hheld⟩

end Invariant

section Step

variable {Cert : Type} (crypto : PairCrypto Cert)

/-- An `/unpair` finds the certificates the client has completed pairing with, as far as they
are still stored, and no other file holds one of them. -/
def FindsCertificate (st : PairState) : PairStep → Prop
  | .unpair headers clientIp =>
    ∀ key c, requestKey headers clientIp.text = some key → (∃ r, .paired key r c ∈ st.log) →
      Stored st.store c →
      (∃ cache, st.pairingCache key = some cache ∧ cache.clientCert = c) ∧
        ¬ HeldElsewhere st.store.dir (clientFile crypto.stdHash c) c
  | _ => True

variable {crypto} {server : ServerIdentity} {st st' : PairState}

/-- An `/unpair` that finds the certificates starts. -/
private theorem UnpairInv.startUnpair (h : UnpairInv crypto.stdHash st) {headers : Query}
    {clientIp : ClientIp} (hfinds : FindsCertificate crypto st (.unpair headers clientIp))
    {key : Bytes} (hkey : requestKey headers clientIp.text = some key) :
    UnpairInv crypto.stdHash { st with
      tasks := st.tasks ++ [unpair (st.pairingCache key)]
      log := st.log ++ [.unpair key st.tasks.length] } where
  pending key' request hmem := by
    rcases List.mem_append.mp hmem with hmem | hmem
    · exact h.startTask.pending key' request hmem
    · obtain ⟨rfl, rfl⟩ := PairEvent.unpair.inj (List.mem_singleton.mp hmem)
      refine ⟨_, _, List.getElem?_concat_length, List.suffix_rfl, fun _ reply hreply => ?_⟩
      exact absurd (h.replied _ reply hreply) (lt_irrefl _)
  replied := h.startTask.replied
  absent key' request c hsince := by
    rcases hsince.of_append_unpair with hsince | ⟨rfl, rfl, hpaired⟩
    · exact h.startTask.absent key' request c hsince
    · by_cases hstored : Stored st.store c
      · obtain ⟨⟨cache, hcache, rfl⟩, hheld⟩ := hfinds key' c hkey hpaired hstored
        refine .inr ⟨⟨_, List.getElem?_concat_length, ?_⟩, hheld⟩
        rw [hcache]
        exact List.mem_cons_self ..
      · exact .inl hstored

variable (crypto st) in
/-- What is promised of a certificate is kept by an action, unless it pairs the certificate. -/
private theorem absent_perform (task : ℕ) {action : PairAction} {c : Bytes}
    (hadd : ∀ key r, action ≠ .addPairedClient key r c) :
    (¬ Stored st.store c → ¬ Stored (st.perform crypto task action).store c) ∧
      (¬ HeldElsewhere st.store.dir (clientFile crypto.stdHash c) c →
        ¬ HeldElsewhere (st.perform crypto task action).store.dir
          (clientFile crypto.stdHash c) c) := by
  cases action with
  | addPairedClient key request clientCert =>
    have hne : c ≠ clientCert := by
      rintro rfl
      exact hadd key request rfl
    exact ⟨mt (stored_of_add hne), mt heldElsewhere_of_add⟩
  | removePairedClient clientCert => exact ⟨mt stored_of_remove, mt heldElsewhere_of_remove⟩
  | _ => exact ⟨id, id⟩

private theorem unpair_notMem_events {action : PairAction} (key : Bytes) (request : ℕ) :
    .unpair key request ∉ action.events := by
  cases action <;> simp [PairAction.events]

/-- An action takes effect. -/
private theorem UnpairInv.act (h : UnpairInv crypto.stdHash st) {task : ℕ} {action : PairAction}
    {rest : List PairAction} (htask : st.tasks[task]? = some (action :: rest)) :
    UnpairInv crypto.stdHash
      ({ st with tasks := st.tasks.set task rest }.perform crypto task action) where
  pending key request hmem := by
    rw [log_perform] at hmem
    obtain ⟨cached, left, hleft, hsuffix, hunanswered⟩ := h.pending key request
      ((List.mem_append.mp hmem).resolve_right (unpair_notMem_events key request))
    rw [tasks_perform, replies_perform]
    by_cases heq : request = task
    · subst heq
      rw [htask] at hleft
      obtain rfl := Option.some.inj hleft
      refine ⟨cached, rest, List.getElem?_set_self (List.getElem?_eq_some_iff.mp htask).1,
        (List.suffix_cons action rest).trans hsuffix, fun hne reply hreply => ?_⟩
      rcases unpair_suffix hsuffix with ⟨r, -, hnil⟩ | ⟨c, r, rfl, -⟩
      · exact hne hnil
      · -- the removal answers nothing
        exact hunanswered (List.cons_ne_nil _ _) reply (by simpa [PairAction.answers] using hreply)
    · refine ⟨cached, left, by rw [List.getElem?_set_ne (Ne.symm heq), hleft], hsuffix,
        fun hne reply hreply => ?_⟩
      rcases List.mem_append.mp hreply with hreply | hreply
      · exact hunanswered hne reply hreply
      · cases action with
        | reply r => exact heq (Prod.mk.inj (List.mem_singleton.mp hreply)).1
        | _ => cases hreply
  replied t reply hmem := by
    rw [replies_perform] at hmem
    rw [tasks_perform, List.length_set]
    rcases List.mem_append.mp hmem with hmem | hmem
    · exact h.replied t reply hmem
    · cases action with
      | reply r =>
        obtain ⟨rfl, -⟩ := Prod.mk.inj (List.mem_singleton.mp hmem)
        exact (List.getElem?_eq_some_iff.mp htask).1
      | _ => cases hmem
  absent key request c hsince := by
    rw [log_perform] at hsince
    obtain ⟨hsince, hnot⟩ := hsince.of_append (unpair_notMem_events key request)
    have hadd : ∀ key r, action ≠ .addPairedClient key r c := by
      rintro key r rfl
      exact hnot key r (List.mem_singleton_self _)
    obtain ⟨hstored, hheld⟩ := absent_perform crypto
      { st with tasks := st.tasks.set task rest } task hadd
    rw [tasks_perform]
    rcases h.absent key request c hsince with habsent | ⟨⟨left, hleft, hremove⟩, hnotHeld⟩
    · exact .inl (hstored habsent)
    · by_cases heq : request = task
      · subst heq
        rw [htask] at hleft
        obtain rfl := Option.some.inj hleft
        rcases List.mem_cons.mp hremove with rfl | hremove
        · exact .inl (not_stored_remove hnotHeld)
        · exact .inr ⟨⟨rest, List.getElem?_set_self (List.getElem?_eq_some_iff.mp htask).1,
            hremove⟩, hheld hnotHeld⟩
      · exact .inr ⟨⟨left, by rw [List.getElem?_set_ne (Ne.symm heq), hleft], hremove⟩,
          hheld hnotHeld⟩

/-- Every step that meets the condition keeps the invariant. -/
theorem unpairInv_step {event : PairStep} (h : UnpairInv crypto.stdHash st)
    (hfinds : FindsCertificate crypto st event)
    (hstep : pairStep crypto server st event = some st') : UnpairInv crypto.stdHash st' := by
  cases event with
  | request headers clientIp rand =>
    obtain rfl := Option.some.inj hstep
    exact (h.addLog httpPair_exchange).startTask
  | unpair headers clientIp =>
    obtain rfl := Option.some.inj hstep
    cases hkey : requestKey headers clientIp.text with
    | none => exact (h.addLog fun key request => List.not_mem_nil).startTask
    | some key => exact h.startUnpair hfinds hkey
  | act task =>
    obtain ⟨action, rest, htask, rfl⟩ := pairStep_act_iff.mp hstep
    exact h.act htask
  | postPin secret pin =>
    simp only [pairStep] at hstep
    split at hstep
    · obtain rfl := Option.some.inj hstep
      exact h
    · obtain rfl := Option.some.inj hstep
      have hpin : ∀ key request, .unpair key request ∉ [PairEvent.pin secret pin] := by simp
      have hlog := h.addLog hpin
      exact ⟨hlog.pending, hlog.replied, hlog.absent⟩
  | pinReady thread =>
    obtain ⟨w, pin, -, -, -, rfl⟩ := pairStep_pinReady_iff.mp hstep
    exact ⟨h.startTask.pending, h.startTask.replied, h.startTask.absent⟩
  | pinTimeout thread =>
    obtain ⟨w, -, -, -, rfl⟩ := pairStep_pinTimeout_iff.mp hstep
    exact ⟨h.startTask.pending, h.startTask.replied, h.startTask.absent⟩

end Step

/-! ### Runs -/

section Runs

variable {Cert : Type} (crypto : PairCrypto Cert) (server : ServerIdentity) (store : ClientStore)

theorem unpairInv_isInvariantUnder :
    System.IsInvariantUnder (pairSystem crypto server store) (FindsCertificate crypto)
      (UnpairInv crypto.stdHash) where
  init := by
    refine ⟨?_, ?_, ?_⟩
    · intro key request h
      cases h
    · intro task reply h
      cases h
    · rintro key request c ⟨before, after, hlog, -⟩
      exact absurd hlog.symm (List.append_ne_nil_of_right_ne_nil _ (List.cons_ne_nil _ _))
  step := unpairInv_step

/-- **When unpairing takes effect.** In a run in which every `/unpair` finds the certificates
its client has completed pairing with and that are still stored, and no other file holds one of
them, a client that has been answered 200 is unpaired until it pairs again, in every state the
run reaches. -/
theorem unpairTakesEffect_of_findsCertificate {events : List PairStep} {st : PairState}
    (hfinds : (pairSystem crypto server store).Along (FindsCertificate crypto)
      (pairSystem crypto server store).init events)
    (hrun : (pairSystem crypto server store).run (pairSystem crypto server store).init events =
      some st) : UnpairTakesEffect st :=
  ((unpairInv_isInvariantUnder crypto server store).run
    (unpairInv_isInvariantUnder crypto server store).init hfinds hrun).takesEffect

/-! ### Paired, then unpaired -/

/-- A client pairs. -/
def pairing : List PairStep :=
  threePhases ++ [pairRequest [(ascii "clientpairingsecret", List.replicate 512 48)],
    .act 4, .act 4, .act 4]

/-- It is unpaired. -/
def unpairing (task : ℕ) : List PairStep :=
  [.unpair (queryWith []) someIp, .act task, .act task]

/-- A client pairs, and is then told that it is unpaired: its certificate is still there. -/
theorem not_unpairTakesEffect_paired :
    ∃ st, emptySystem.run emptySystem.init (pairing ++ (unpairing 5).take 2) = some st ∧
      ¬ UnpairTakesEffect st := by
  have hend : ((emptySystem.run emptySystem.init (pairing ++ (unpairing 5).take 2)).any fun st =>
      st.log.getLast? = some (.unpair (ascii "moonlight@192.168.1.20") 5) ∧
      .paired (ascii "moonlight@192.168.1.20") 4 (ascii "--") ∈ st.log.dropLast ∧
      st.replies.any (fun reply => reply.1 = 5 ∧ reply.2.statusCode = 200) ∧
      ascii "--" ∈ st.store.pairedClients) = true := by
    decide +kernel
  obtain ⟨st, hst, hfacts⟩ := (Option.any_eq_true _ _).mp hend
  obtain ⟨hlast, hpaired, hreplies, hstored⟩ := of_decide_eq_true hfacts
  refine ⟨st, hst, fun heffect => ?_⟩
  obtain ⟨⟨task, reply⟩, hreply, hstatus⟩ := List.any_eq_true.mp hreplies
  obtain ⟨rfl, hok⟩ := of_decide_eq_true hstatus
  refine heffect (ascii "moonlight@192.168.1.20") 5 (ascii "--")
    ⟨st.log.dropLast, [], (List.dropLast_append_getLast? _ hlast).symm, ⟨4, hpaired⟩, ?_⟩
    ⟨reply, hreply, hok⟩ (.inl hstored)
  exact fun k r => List.not_mem_nil

/-- The client pairs again, as far as the first phase, and is then unpaired. -/
def pairingAgain : List PairStep :=
  pairing ++ [pairRequest [(ascii "salt", ascii "a0c2"), (ascii "clientcert", ascii "2d2d")],
    .act 5, .postPin (strToHex (List.replicate 8 1)) (ascii "7284"), .pinReady 1, .act 6, .act 6]

/-- Then the entry in the cache has its certificate. -/
private theorem findsCertificate_pairingAgain {st : PairState}
    (hst : emptySystem.run emptySystem.init pairingAgain = some st) :
    FindsCertificate emptyCrypto st (.unpair (queryWith []) someIp) := by
  have hend : ((emptySystem.run emptySystem.init pairingAgain).all fun st =>
      st.pairingCache (ascii "moonlight@192.168.1.20") = some firstCache ∧
      st.store.pairedClients = [ascii "--"] ∧
      st.store.dir.entries = [⟨ascii "7.pem", ascii "--"⟩]) = true := by
    decide +kernel
  rw [hst, Option.all_some] at hend
  obtain ⟨hcache, hmemory, hentries⟩ := of_decide_eq_true hend
  have hdir : st.store.dir = AList.singleton (ascii "7.pem") (ascii "--") := AList.ext hentries
  have hloaded : loadClients (AList.singleton (ascii "7.pem") (ascii "--")) = [ascii "--"] := by
    decide
  intro key c hkey _ hstored
  have hc : c = ascii "--" := by
    rw [Stored, hmemory, hdir, hloaded, or_self, List.mem_singleton] at hstored
    exact hstored
  have hkey' : key = ascii "moonlight@192.168.1.20" := (Option.some.inj hkey).symm
  subst hc hkey'
  refine ⟨⟨firstCache, hcache, rfl⟩, ?_⟩
  rintro ⟨name, hname, -, hlookup⟩
  rw [hdir] at hlookup
  have hmem := AList.lookup_isSome.mp (Option.isSome_iff_exists.mpr ⟨_, hlookup⟩)
  exact hname (List.mem_singleton.mp (AList.mem_keys.mp hmem))

/-- What `unpairTakesEffect_of_findsCertificate` says of that run. -/
theorem unpairTakesEffect_of_findsCertificate_again :
    ∃ st, emptySystem.run emptySystem.init (pairingAgain ++ unpairing 7) = some st ∧
      UnpairTakesEffect st := by
  obtain ⟨st, hst⟩ : ∃ st, emptySystem.run emptySystem.init (pairingAgain ++ unpairing 7) =
      some st := Option.isSome_iff_exists.mp (by decide +kernel)
  refine ⟨st, hst, unpairTakesEffect_of_findsCertificate _ _ _ ?_ hst⟩
  refine System.along_append_iff.mpr ⟨System.along_of_forall ?_, fun s hs => ?_⟩
  · -- no `/unpair` so far
    have hother : (pairingAgain.all fun event => !(event matches .unpair ..)) = true := by
      decide +kernel
    intro event hevent t
    have hevent := List.all_eq_true.mp hother event hevent
    cases event with
    | unpair headers clientIp => cases hevent
    | _ => trivial
  · exact ⟨findsCertificate_pairingAgain hs, fun _ _ => ⟨trivial, fun _ _ => ⟨trivial,
      fun _ _ => trivial⟩⟩⟩

end Runs

end SteamStream.Pairing
