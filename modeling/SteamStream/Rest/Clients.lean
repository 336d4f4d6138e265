import Mathlib.Data.List.Nodup
import SteamStream.Rest.Launch

/-!
# One session per client

A launch adds a session only when its address has none, and a resume moves the session it falls
back to only when its address has none. So no two registered sessions share an address, and
since every launch takes a new id, none share an id (`Distinct`).

What the endpoints leave behind for the address of a request follows: a launch or a resume that
is answered leaves its one session, a cancel that is answered leaves none
(`one_session_per_client`). A request that the certificate gate turns away changes nothing, not
even a cancel.
-/

namespace SteamStream.Session

open Wire

namespace SessionRegistry

variable (reg : SessionRegistry)

/-- The ids of the registered sessions, in registration order. -/
def ids : List ℕ := reg.sessions.map fun r => (reg.object r).sessionId

/-- The client addresses of the registered sessions, in registration order. -/
def clientIps : List Bytes := reg.sessions.map fun r => (reg.object r).clientIp

/-- No two registered sessions share an id or a client address, and the next id is new. -/
structure Distinct : Prop where
  ids : reg.ids.Nodup
  clientIps : reg.clientIps.Nodup
  lt_nextSessionId : ∀ id ∈ reg.ids, id < reg.nextSessionId

variable {reg} {r r' : SessionRef} {s : StreamSession} {ip : Bytes}

theorem distinct_initial : initial.Distinct := ⟨List.nodup_nil, List.nodup_nil, nofun⟩

theorem Distinct.sessions (h : reg.Distinct) : reg.sessions.Nodup := List.Nodup.of_map _ h.ids

/-- A registered session is known by its address. -/
theorem Distinct.eq_of_clientIp (h : reg.Distinct) (hr : r ∈ reg.sessions)
    (hr' : r' ∈ reg.sessions) (heq : (reg.object r).clientIp = (reg.object r').clientIp) :
    r = r' :=
  List.inj_on_of_nodup_map h.clientIps hr hr' heq

/-! ### Searching for an address -/

/-- An address without a session is none of the addresses. -/
theorem not_mem_clientIps (h : reg.getByClientIp ip = none) : ip ∉ reg.clientIps := by
  intro hmem
  obtain ⟨r, hr, heq⟩ := List.mem_map.mp hmem
  exact List.find?_eq_none.mp h r hr (decide_eq_true heq)

theorem mem_clientIps_of_getByClientIp (h : reg.getByClientIp ip = some r) :
    ip ∈ reg.clientIps :=
  List.mem_map.mpr ⟨r, mem_of_getByClientIp h, clientIp_of_getByClientIp h⟩

/-- The search finds a registered session by its address. -/
theorem Distinct.getByClientIp_clientIp (h : reg.Distinct) (hr : r ∈ reg.sessions) :
    reg.getByClientIp (reg.object r).clientIp = some r := by
  cases hfind : reg.getByClientIp (reg.object r).clientIp with
  | none => exact absurd (List.mem_map.mpr ⟨r, hr, rfl⟩) (not_mem_clientIps hfind)
  | some r' =>
    have heq := clientIp_of_getByClientIp hfind
    rw [h.eq_of_clientIp (mem_of_getByClientIp hfind) hr heq]

/-! ### What keeps sessions distinct -/

/-- Objects with the same ids and addresses under the same registrations. -/
theorem Distinct.congr {reg' : SessionRegistry} (h : reg.Distinct)
    (hsessions : reg'.sessions = reg.sessions)
    (hid : ∀ r ∈ reg.sessions, (reg'.object r).sessionId = (reg.object r).sessionId)
    (hip : ∀ r ∈ reg.sessions, (reg'.object r).clientIp = (reg.object r).clientIp)
    (hnext : reg.nextSessionId ≤ reg'.nextSessionId) : reg'.Distinct := by
  have hids : reg'.ids = reg.ids := by
    rw [SessionRegistry.ids, hsessions]
    exact List.map_congr_left hid
  have hips : reg'.clientIps = reg.clientIps := by
    rw [SessionRegistry.clientIps, hsessions]
    exact List.map_congr_left hip
  exact ⟨hids ▸ h.ids, hips ▸ h.clientIps,
    fun id hmem => (h.lt_nextSessionId id (hids ▸ hmem)).trans_le hnext⟩

theorem Distinct.nextId (h : reg.Distinct) : reg.nextId.2.Distinct :=
  h.congr rfl (fun _ _ => rfl) (fun _ _ => rfl) (Nat.le_succ _)

/-- A write that keeps id and address. -/
theorem Distinct.modify (h : reg.Distinct) {f : StreamSession → StreamSession}
    (hid : ∀ s, (f s).sessionId = s.sessionId) (hip : ∀ s, (f s).clientIp = s.clientIp) :
    (reg.modify r f).Distinct := by
  have hobject : ∀ r' ∈ reg.sessions, (reg.modify r f).object r' = reg.object r' ∨
      (reg.modify r f).object r' = f (reg.object r') := by
    intro r' hr'
    by_cases heq : r = r'
    · exact .inr (heq ▸ object_modify_self (heq ▸ reg.sessions_lt r' hr'))
    · exact .inl (object_modify_of_ne heq)
  refine h.congr rfl (fun r' hr' => ?_) (fun r' hr' => ?_) le_rfl
  · rcases hobject r' hr' with hsame | hf
    · rw [hsame]
    · rw [hf, hid]
  · rcases hobject r' hr' with hsame | hf
    · rw [hsame]
    · rw [hf, hip]

theorem Distinct.remove (h : reg.Distinct) (id : ℕ) : (reg.remove id).Distinct := by
  have hsub : (reg.remove id).sessions.Sublist reg.sessions := List.filter_sublist
  exact ⟨h.ids.sublist (hsub.map _), h.clientIps.sublist (hsub.map _),
    fun id' hmem => h.lt_nextSessionId id' ((hsub.map _).subset hmem)⟩

/-- A new session is added behind the others. -/
theorem map_sessions_add {α : Type*} (f : StreamSession → α) :
    (reg.add s).sessions.map (fun r => f ((reg.add s).object r)) =
      reg.sessions.map (fun r => f (reg.object r)) ++ [f s] := by
  have hold : ∀ r ∈ reg.sessions, f ((reg.add s).object r) = f (reg.object r) := by
    intro r hr
    rw [object_add_of_lt (reg.sessions_lt r hr)]
  change List.map _ (reg.sessions ++ [reg.objects.length]) = _
  rw [List.map_append, List.map_congr_left hold, List.map_singleton, object_add_self]

/-- So it can be added if its address has no session and its id is the one just taken. -/
theorem Distinct.add (h : reg.Distinct) (hid : s.sessionId = reg.nextSessionId)
    (hip : s.clientIp ∉ reg.clientIps) : (reg.nextId.2.add s).Distinct := by
  have hids : (reg.nextId.2.add s).ids = reg.ids ++ [s.sessionId] :=
    map_sessions_add StreamSession.sessionId
  have hips : (reg.nextId.2.add s).clientIps = reg.clientIps ++ [s.clientIp] :=
    map_sessions_add StreamSession.clientIp
  refine ⟨?_, ?_, fun id hmem => ?_⟩
  · rw [hids, ← List.concat_eq_append]
    exact h.ids.concat fun hmem => (h.lt_nextSessionId _ hmem).ne hid
  · rw [hips, ← List.concat_eq_append]
    exact h.clientIps.concat hip
  · change id < reg.nextSessionId + 1
    rw [hids] at hmem
    rcases List.mem_append.mp hmem with hold | hnew
    · exact Nat.lt_succ_of_lt (h.lt_nextSessionId id hold)
    · rw [List.mem_singleton.mp hnew, hid]
      exact Nat.lt_succ_self _

/-- Moving a session to an address that has none. -/
theorem Distinct.move (h : reg.Distinct) (hip : ip ∉ reg.clientIps) :
    (reg.modify r fun s => { s with clientIp := ip }).Distinct := by
  have hids : (reg.modify r fun s => { s with clientIp := ip }).ids = reg.ids :=
    List.map_congr_left fun r' hr' =>
      (extends_modify (r := r) (f := fun s => { s with clientIp := ip }) fun _ => rfl).sessionId r'
        (reg.sessions_lt r' hr')
  refine ⟨hids ▸ h.ids, ?_, fun id hmem => h.lt_nextSessionId id (hids ▸ hmem)⟩
  refine List.Nodup.map_on (fun r₁ hr₁ r₂ hr₂ heq => ?_) h.sessions
  have hold : ∀ r' ∈ reg.sessions, (reg.object r').clientIp ≠ ip := fun r' hr' hsame =>
    hip (List.mem_map.mpr ⟨r', hr', hsame⟩)
  have hself : ∀ r' ∈ reg.sessions, r = r' →
      ((reg.modify r fun s => { s with clientIp := ip }).object r').clientIp = ip := by
    rintro r' hr' rfl
    rw [object_modify_self (reg.sessions_lt r hr')]
  by_cases h₁ : r = r₁ <;> by_cases h₂ : r = r₂
  · exact h₁.symm.trans h₂
  · rw [hself r₁ hr₁ h₁, object_modify_of_ne h₂] at heq
    exact absurd heq.symm (hold r₂ hr₂)
  · rw [hself r₂ hr₂ h₂, object_modify_of_ne h₁] at heq
    exact absurd heq (hold r₁ hr₁)
  · rw [object_modify_of_ne h₁, object_modify_of_ne h₂] at heq
    exact h.eq_of_clientIp hr₁ hr₂ heq

end SessionRegistry

end SteamStream.Session

namespace SteamStream.Rest

open Wire CText Session X509 Runs

/-! ### Handlers -/

section Handlers

variable {Cert : Type*} {ssl : OpenSSL Cert} {state state' : AppState} {req : Request Cert}
  {event : Event Cert}

/-- A created session has a new id and the address of its client. -/
theorem createLaunchSession_some {headers : Query} {clientIp : Bytes} {rand : LaunchRandom}
    {s : StreamSession} (h : createLaunchSession state headers clientIp rand = (some s, state')) :
    s.sessionId = state.sessions.nextSessionId ∧ s.clientIp = clientIp := by
  unfold createLaunchSession at h
  dsimp only at h
  split at h
  · cases (Prod.mk.inj h).1
  · obtain rfl := Option.some.inj (Prod.mk.inj h).1
    exact ⟨rfl, rfl⟩

theorem captureKey_distinct {reg : SessionRegistry} {sess : SessionRef} {headers : Query}
    (h : reg.Distinct) : (captureKey reg sess headers).Distinct := by
  unfold captureKey
  dsimp only
  split_ifs
  · exact h.modify (fun _ => rfl) fun _ => rfl
  · exact h

/-- A resume finds the session of its address, or moves the running one there. -/
theorem adoptClient_distinct {reg : SessionRegistry} {sess : SessionRef} {clientIp : Bytes}
    (h : reg.Distinct) (hsess : (reg.getByClientIp clientIp).or reg.getRunning = some sess) :
    (adoptClient reg sess clientIp).Distinct := by
  unfold adoptClient
  split_ifs with hip
  · rcases Option.or_eq_some_iff.mp hsess with hfound | ⟨hnone, -⟩
    · exact absurd (SessionRegistry.clientIp_of_getByClientIp hfound) hip
    · exact h.move (SessionRegistry.not_mem_clientIps hnone)
  · exact h

/-- Every handler keeps sessions distinct. -/
theorem handle_distinct (h : state.sessions.Distinct) :
    (handle ssl state event).state.sessions.Distinct := by
  cases event with
  | launch req rand =>
    simp only [handle, launch]
    split
    · exact h
    · split
      · exact h
      · rename_i hnone
        rcases hnew : createLaunchSession state req.headers req.clientIp rand with
          ⟨_ | s, state'⟩
        · have hsnd := (congrArg Prod.snd hnew).symm.trans createLaunchSession_snd
          obtain rfl : state' = _ := hsnd
          exact h.nextId
        · have hsnd := (congrArg Prod.snd hnew).symm.trans createLaunchSession_snd
          obtain rfl : state' = _ := hsnd
          obtain ⟨hid, hip⟩ := createLaunchSession_some hnew
          exact h.add hid (hip.symm ▸ SessionRegistry.not_mem_clientIps hnone)
  | resume req =>
    simp only [handle, resume]
    split
    · exact h
    · split
      · exact h
      · rename_i sess hsess
        exact captureKey_distinct (adoptClient_distinct h hsess)
  | cancel req =>
    simp only [handle, cancel]
    split
    · exact h
    · split
      · exact h
      · exact h.remove _

/-! ### What a request leaves behind -/

/-- After a resume its session has the address of the request. -/
theorem mem_clientIps_resume {reg : SessionRegistry} {sess : SessionRef} {clientIp : Bytes}
    {headers : Query} (hsess : sess ∈ reg.sessions) :
    clientIp ∈ (captureKey (adoptClient reg sess clientIp) sess headers).clientIps := by
  have hadopt : ((adoptClient reg sess clientIp).object sess).clientIp = clientIp := by
    unfold adoptClient
    split_ifs with hip
    · rw [SessionRegistry.object_modify_self (reg.sessions_lt sess hsess)]
    · exact not_not.mp hip
  have hlt : sess < (adoptClient reg sess clientIp).objects.length := by
    rw [adoptClient_length]
    exact reg.sessions_lt sess hsess
  have hcapture : ((captureKey (adoptClient reg sess clientIp) sess headers).object sess).clientIp =
      clientIp := by
    unfold captureKey
    dsimp only
    split_ifs
    · rw [SessionRegistry.object_modify_self hlt]
      exact hadopt
    · exact hadopt
  refine List.mem_map.mpr ⟨sess, ?_, hcapture⟩
  rwa [sessions_captureKey, sessions_adoptClient]

/-- Removing the session found for an address leaves the sessions of all other addresses. -/
theorem sessions_remove_of_getByClientIp {reg : SessionRegistry} {sess : SessionRef} {ip : Bytes}
    (h : reg.Distinct) (hsess : reg.getByClientIp ip = some sess) :
    (reg.remove (reg.object sess).sessionId).sessions =
      reg.sessions.filter fun r => (reg.object r).clientIp ≠ ip := by
  have hmem := SessionRegistry.mem_of_getByClientIp hsess
  have hip := SessionRegistry.clientIp_of_getByClientIp hsess
  refine List.filter_congr fun r hr =>
    decide_eq_decide.mpr (not_congr ⟨fun hid => ?_, fun heq => ?_⟩)
  · obtain rfl := List.inj_on_of_nodup_map h.ids hr hmem hid
    exact hip
  · rw [h.eq_of_clientIp hr hmem (heq.trans hip.symm)]

/-- The registry after a request: no two sessions share an id or an address; if it was answered, a
launch or a resume has left one session under its address, and a cancel has left none there and
every other session as it was. -/
structure OneSessionPerClient (ssl : OpenSSL Cert) (state : AppState) (event : Event Cert) :
    Prop where
  ids : (handle ssl state event).state.sessions.ids.Nodup
  clientIps : (handle ssl state event).state.sessions.clientIps.Nodup
  launch_or_resume : ∀ reply req, (handle ssl state event).reply = some reply →
    reply.statusCode = 200 → (event = .resume req ∨ ∃ rand, event = .launch req rand) →
      (handle ssl state event).state.sessions.clientIps.count req.clientIp = 1
  cancel : ∀ reply req, (handle ssl state event).reply = some reply → reply.statusCode = 200 →
    event = .cancel req →
      req.clientIp ∉ (handle ssl state event).state.sessions.clientIps ∧
      (handle ssl state event).state.sessions.sessions =
        state.sessions.sessions.filter
          (fun r => (state.sessions.object r).clientIp ≠ req.clientIp) ∧
      (handle ssl state event).state.sessions.objects = state.sessions.objects

/-- An answered launch or resume leaves a session under its address. -/
theorem mem_clientIps_handle {reply : Reply} (hreply : (handle ssl state event).reply = some reply)
    (hok : reply.statusCode = 200)
    (hevent : event = .resume req ∨ ∃ rand, event = .launch req rand) :
    req.clientIp ∈ (handle ssl state event).state.sessions.clientIps := by
  rcases hevent with rfl | ⟨rand, rfl⟩
  · simp only [handle, resume] at hreply ⊢
    split at hreply
    · obtain rfl := Option.some.inj hreply
      cases hok
    · split at hreply
      · obtain rfl := Option.some.inj hreply
        cases hok
      · rename_i sess hsess
        refine mem_clientIps_resume ?_
        rcases Option.or_eq_some_iff.mp hsess with hfound | ⟨-, hrunning⟩
        · exact SessionRegistry.mem_of_getByClientIp hfound
        · exact SessionRegistry.mem_of_getRunning hrunning
  · simp only [handle, launch] at hreply ⊢
    split at hreply
    · obtain rfl := Option.some.inj hreply
      cases hok
    · split at hreply
      · rename_i sess hsess
        exact SessionRegistry.mem_clientIps_of_getByClientIp hsess
      · split at hreply
        · cases hreply
        · rename_i s state' hnew
          have hips :
              (state'.sessions.add s).clientIps = state'.sessions.clientIps ++ [s.clientIp] :=
            SessionRegistry.map_sessions_add StreamSession.clientIp
          change req.clientIp ∈ (state'.sessions.add s).clientIps
          rw [hips, (createLaunchSession_some hnew).2]
          exact List.mem_append_right _ (List.mem_singleton_self _)

/-- An answered cancel leaves the sessions of all other addresses. -/
theorem sessions_cancel (h : state.sessions.Distinct) {reply : Reply}
    (hreply : (cancel ssl state req).reply = some reply) (hok : reply.statusCode = 200) :
    (cancel ssl state req).state.sessions.sessions =
        state.sessions.sessions.filter
          (fun r => (state.sessions.object r).clientIp ≠ req.clientIp) ∧
      (cancel ssl state req).state.sessions.objects = state.sessions.objects := by
  unfold cancel at hreply ⊢
  split at hreply
  · obtain rfl := Option.some.inj hreply
    cases hok
  · dsimp only at hreply ⊢
    split at hreply
    · rename_i hnone
      refine ⟨(List.filter_eq_self.mpr fun r hr => ?_).symm, rfl⟩
      rw [decide_eq_true_iff]
      intro heq
      exact SessionRegistry.not_mem_clientIps hnone (List.mem_map.mpr ⟨r, hr, heq⟩)
    · rename_i sess hsess
      exact ⟨sessions_remove_of_getByClientIp h hsess, rfl⟩

theorem handle_oneSessionPerClient (h : state.sessions.Distinct) :
    OneSessionPerClient ssl state event where
  ids := (handle_distinct h).ids
  clientIps := (handle_distinct h).clientIps
  launch_or_resume reply req hreply hok hevent :=
    List.count_eq_one_of_mem (handle_distinct h).clientIps
      (mem_clientIps_handle hreply hok hevent)
  cancel reply req hreply hok hevent := by
    subst hevent
    obtain ⟨hsessions, hobjects⟩ := sessions_cancel h hreply hok
    refine ⟨fun hmem => ?_, hsessions, hobjects⟩
    obtain ⟨r, hr, heq⟩ := List.mem_map.mp hmem
    change r ∈ (cancel ssl state req).state.sessions.sessions at hr
    rw [hsessions] at hr
    have hobject : (cancel ssl state req).state.sessions.object r = state.sessions.object r := by
      rw [SessionRegistry.object, hobjects, SessionRegistry.object]
    change ((cancel ssl state req).state.sessions.object r).clientIp = req.clientIp at heq
    rw [hobject] at heq
    exact absurd heq (of_decide_eq_true (List.mem_filter.mp hr).2)

end Handlers

/-! ### Runs -/

section Runs

variable {Cert : Type*} (ssl : OpenSSL Cert) (start : AppState)

/-- A server that has just been started. -/
def AppState.fresh (start : AppState) : AppState := { start with sessions := .initial }

theorem distinct_isInvariant :
    (launchSystem ssl start.fresh).IsInvariant fun state => state.sessions.Distinct where
  init := SessionRegistry.distinct_initial
  step h hstep := Option.some.inj hstep ▸ handle_distinct h

/-- **One session per client.** So it is after every request a server has handled since its start,
in whatever order and from whatever addresses they came. -/
theorem one_session_per_client (events : List (Event Cert)) :
    (launchSystem ssl start.fresh).Along (OneSessionPerClient ssl) start.fresh events :=
  (distinct_isInvariant ssl start).along (fun _ _ h => handle_oneSessionPerClient h)
    (distinct_isInvariant ssl start).init

/-! ### A cancel that is turned away -/

/-- After every cancel its address has no session. -/
def CancelsAll (state : AppState) : Event Cert → Prop
  | .cancel req =>
    req.clientIp ∉ (handle ssl state (.cancel req)).state.sessions.clientIps
  | _ => True

/-- Somebody whose certificate has not been paired cancels from the address of a paired client that
has just launched. The request is answered 401 and the session stays. -/
theorem not_cancelsAll_unpaired :
    ¬ (launchSystem leafSsl pairedStart.fresh).Along (CancelsAll leafSsl) pairedStart.fresh
      [launchWith "9d804e9d3a7d8f1b2c3d4e5f60718293" "16909060",
        .cancel {
          path := ascii "/cancel"
          clientCert := some ⟨2, 2⟩
          clientIp := ascii "192.168.1.20"
          localIp := ascii "192.168.1.2"
          headers := [] }] := by
  rintro ⟨-, hrest⟩
  obtain ⟨hcancel, -⟩ := hrest _ rfl
  exact hcancel (List.mem_singleton_self _)

end Runs

end SteamStream.Rest
