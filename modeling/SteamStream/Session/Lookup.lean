import SteamStream.Session.Registry
import Mathlib.Data.List.Nodup

/-!
# Whose RTSP request it is

A request names its session by the fake IP in its URI or its `Host` option; the peer address is for
a client that has sent no host. `get_for_rtsp` asks both of one session before it goes on to the
next, so a session found by its peer address hides the named one if it was registered before it
(`fakeIpFirst_iff`). What remains true of every order is that the session returned passes one of
the two tests, and that the answer is the named session if the request has a host.
-/

namespace SteamStream.Session

open Wire

/-- The fake IP of the session is the one in the URI or the one in the `Host` option. -/
def StreamSession.NamedBy (s : StreamSession) (uriIp hostOpt : Bytes) : Prop :=
  s.rtspFakeIp = uriIp ∨ hostOpt = s.rtspFakeIp

instance (s : StreamSession) (uriIp hostOpt : Bytes) : Decidable (s.NamedBy uriIp hostOpt) :=
  inferInstanceAs (Decidable (_ ∨ _))

/-- The client has sent no host of its own. -/
def NoHost (hostOpt : Bytes) : Prop := hostOpt = ascii "0.0.0.0" ∨ hostOpt = []

instance (hostOpt : Bytes) : Decidable (NoHost hostOpt) := inferInstanceAs (Decidable (_ ∨ _))

namespace SessionRegistry

/-- The fake IP in the URI and the one in the `Host` option are those of two sessions. -/
def NamesTwo (reg : SessionRegistry) (uriIp hostOpt : Bytes) : Prop :=
  ∃ r ∈ reg.sessions, ∃ r' ∈ reg.sessions, (reg.object r).rtspFakeIp = uriIp ∧
    (reg.object r').rtspFakeIp = hostOpt ∧ r ≠ r'

/-- The fake IP comes first, the peer address second, and the order of registration decides nothing
a client could tell apart. -/
structure FakeIpFirst (reg : SessionRegistry) (uriIp hostOpt peerIp : Bytes) : Prop where
  named : (∃ r ∈ reg.sessions, (reg.object r).NamedBy uriIp hostOpt) →
    ∃ r, reg.getForRtsp uriIp hostOpt peerIp = some r ∧ (reg.object r).NamedBy uriIp hostOpt
  peer : (∀ r ∈ reg.sessions, ¬ (reg.object r).NamedBy uriIp hostOpt) → NoHost hostOpt →
    ∀ r ∈ reg.sessions, (reg.object r).clientIp = peerIp →
      reg.getForRtsp uriIp hostOpt peerIp = some r
  none : (∀ r ∈ reg.sessions, ¬ (reg.object r).NamedBy uriIp hostOpt) →
    (NoHost hostOpt → ∀ r ∈ reg.sessions, (reg.object r).clientIp ≠ peerIp) →
      reg.getForRtsp uriIp hostOpt peerIp = none
  order : ¬ reg.NamesTwo uriIp hostOpt → ∀ reg' : SessionRegistry, reg'.objects = reg.objects →
    reg'.sessions.Perm reg.sessions →
      reg'.getForRtsp uriIp hostOpt peerIp = reg.getForRtsp uriIp hostOpt peerIp

/-- No session is found by its peer address in place of one that is named: if the request has no
host and names a session, the session of the peer is a named one too, or the request names two
sessions and one of them comes before that of the peer. -/
def PeerHidesNone (reg : SessionRegistry) (uriIp hostOpt peerIp : Bytes) : Prop :=
  NoHost hostOpt → (∃ r ∈ reg.sessions, (reg.object r).NamedBy uriIp hostOpt) →
    ∀ before r after, reg.sessions = before ++ r :: after → (reg.object r).clientIp = peerIp →
      ¬ (reg.object r).NamedBy uriIp hostOpt →
        reg.NamesTwo uriIp hostOpt ∧ ∃ r' ∈ before, (reg.object r').NamedBy uriIp hostOpt

/-- The first match does not depend on the order when there is one match only. -/
theorem find?_eq_of_perm {α : Type*} {p : α → Bool} {l l' : List α} (hperm : l.Perm l')
    (hunique : ∀ x ∈ l, ∀ y ∈ l, p x = true → p y = true → x = y) : l.find? p = l'.find? p := by
  cases hfind : l'.find? p with
  | none =>
    rw [List.find?_eq_none] at hfind ⊢
    exact fun x hx => hfind x (hperm.mem_iff.mp hx)
  | some y =>
    have hy : y ∈ l := hperm.mem_iff.mpr (List.mem_of_find?_eq_some hfind)
    have hpy : p y = true := List.find?_some hfind
    obtain ⟨x, hx⟩ := Option.isSome_iff_exists.mp (List.find?_isSome.mpr ⟨y, hy, hpy⟩)
    rw [hx, hunique x (List.mem_of_find?_eq_some hx) y hy (List.find?_some hx) hpy]

section Rtsp

variable {reg : SessionRegistry} {uriIp hostOpt peerIp : Bytes} {r : SessionRef}

/-- The test one session is put to. -/
def IsForRtsp (s : StreamSession) (uriIp hostOpt peerIp : Bytes) : Prop :=
  s.NamedBy uriIp hostOpt ∨ (NoHost hostOpt ∧ s.clientIp = peerIp)

instance (s : StreamSession) (uriIp hostOpt peerIp : Bytes) :
    Decidable (IsForRtsp s uriIp hostOpt peerIp) := inferInstanceAs (Decidable (_ ∨ _))

theorem getForRtsp_eq_some_iff : reg.getForRtsp uriIp hostOpt peerIp = some r ↔
    IsForRtsp (reg.object r) uriIp hostOpt peerIp ∧ ∃ before after,
      reg.sessions = before ++ r :: after ∧
        ∀ r' ∈ before, ¬ IsForRtsp (reg.object r') uriIp hostOpt peerIp := by
  rw [getForRtsp, find?, List.find?_eq_some_iff_append]
  simp only [Bool.not_eq_true', decide_eq_true_eq, decide_eq_false_iff_not]
  rfl

theorem getForRtsp_eq_none_iff : reg.getForRtsp uriIp hostOpt peerIp = Option.none ↔
    ∀ r ∈ reg.sessions, ¬ IsForRtsp (reg.object r) uriIp hostOpt peerIp := by
  rw [getForRtsp, find?, List.find?_eq_none]
  simp only [decide_eq_true_eq]
  rfl

theorem exists_getForRtsp (hr : r ∈ reg.sessions)
    (h : IsForRtsp (reg.object r) uriIp hostOpt peerIp) :
    ∃ r', reg.getForRtsp uriIp hostOpt peerIp = some r' := by
  rw [← Option.ne_none_iff_exists']
  exact fun hnone => getForRtsp_eq_none_iff.mp hnone r hr h

/-- Two sessions of one name are one, unless the request names two. -/
theorem eq_of_namedBy {r' : SessionRef} (hfake :
    (reg.sessions.map fun r => (reg.object r).rtspFakeIp).Nodup) (htwo : ¬ reg.NamesTwo uriIp hostOpt)
    (hr : r ∈ reg.sessions) (hr' : r' ∈ reg.sessions)
    (h : (reg.object r).NamedBy uriIp hostOpt) (h' : (reg.object r').NamedBy uriIp hostOpt) :
    r = r' := by
  have hinj := List.inj_on_of_nodup_map hfake
  by_contra hne
  rcases h with h | h
  · rcases h' with h' | h'
    · exact hne (hinj hr hr' (h.trans h'.symm))
    · exact htwo ⟨r, hr, r', hr', h, h'.symm, hne⟩
  · rcases h' with h' | h'
    · exact htwo ⟨r', hr', r, hr, h', h.symm, fun heq => hne heq.symm⟩
    · exact hne (hinj hr hr' (h.symm.trans h'))

/-- Where no named session is hidden, the session returned is a named one if there is one. -/
theorem namedBy_of_getForRtsp (hpeer : reg.PeerHidesNone uriIp hostOpt peerIp)
    (hnamed : ∃ r ∈ reg.sessions, (reg.object r).NamedBy uriIp hostOpt)
    (h : reg.getForRtsp uriIp hostOpt peerIp = some r) : (reg.object r).NamedBy uriIp hostOpt := by
  obtain ⟨hfor, before, after, hsessions, hbefore⟩ := getForRtsp_eq_some_iff.mp h
  by_contra hr
  obtain ⟨hhost, hip⟩ := hfor.resolve_left hr
  obtain ⟨-, r', hr', hname⟩ := hpeer hhost hnamed before r after hsessions hip hr
  exact hbefore r' hr' (.inl hname)

/-- Where no named session is hidden and the request does not name two, one session at most is the
one it can be about. -/
theorem eq_of_isForRtsp {r' : SessionRef}
    (hfake : (reg.sessions.map fun r => (reg.object r).rtspFakeIp).Nodup)
    (hips : (reg.sessions.map fun r => (reg.object r).clientIp).Nodup)
    (hpeer : reg.PeerHidesNone uriIp hostOpt peerIp) (htwo : ¬ reg.NamesTwo uriIp hostOpt)
    (hr : r ∈ reg.sessions) (hr' : r' ∈ reg.sessions)
    (h : IsForRtsp (reg.object r) uriIp hostOpt peerIp)
    (h' : IsForRtsp (reg.object r') uriIp hostOpt peerIp) : r = r' := by
  -- a session that is not named is not found by its peer address next to a named one
  have hnamed : ∀ {s s'}, s ∈ reg.sessions → s' ∈ reg.sessions →
      (reg.object s).NamedBy uriIp hostOpt → IsForRtsp (reg.object s') uriIp hostOpt peerIp →
        (reg.object s').NamedBy uriIp hostOpt := by
    intro s s' hs hs' hname hfor
    by_contra hnot
    obtain ⟨hhost, hip⟩ := hfor.resolve_left hnot
    obtain ⟨before, after, hsessions⟩ := List.append_of_mem hs'
    exact htwo (hpeer hhost ⟨s, hs, hname⟩ before s' after hsessions hip hnot).1
  by_cases hname : (reg.object r).NamedBy uriIp hostOpt
  · exact eq_of_namedBy hfake htwo hr hr' hname (hnamed hr hr' hname h')
  · have hname' : ¬ (reg.object r').NamedBy uriIp hostOpt :=
      fun hname' => hname (hnamed hr' hr hname' h)
    exact List.inj_on_of_nodup_map hips hr hr'
      ((h.resolve_left hname).2.trans (h'.resolve_left hname').2.symm)

/-- With the session of the peer registered first, it is found. -/
theorem getForRtsp_of_head {rest : List SessionRef} (hsessions : reg.sessions = r :: rest)
    (h : IsForRtsp (reg.object r) uriIp hostOpt peerIp) :
    reg.getForRtsp uriIp hostOpt peerIp = some r :=
  getForRtsp_eq_some_iff.mpr ⟨h, [], rest, hsessions, List.forall_mem_nil _⟩

/-- The same sessions, the given one registered first. -/
theorem exists_perm_head (hr : r ∈ reg.sessions) : ∃ reg' : SessionRegistry,
    reg'.objects = reg.objects ∧ reg'.sessions.Perm reg.sessions ∧
      ∃ rest, reg'.sessions = r :: rest := by
  have hperm : (r :: reg.sessions.erase r).Perm reg.sessions := (List.perm_cons_erase hr).symm
  exact ⟨{ reg with
    sessions := r :: reg.sessions.erase r
    sessions_lt := fun r' hr' => reg.sessions_lt r' (hperm.mem_iff.mp hr') }, rfl, hperm, _, rfl⟩

theorem object_eq_of_objects {reg' : SessionRegistry} (h : reg'.objects = reg.objects) :
    reg'.object = reg.object := by
  funext r
  rw [object, object, h]

/-- A session that the peer address hides a named one behind would break the law in one order of
registration or another. -/
theorem peerHidesNone_of_fakeIpFirst
    (hips : (reg.sessions.map fun r => (reg.object r).clientIp).Nodup)
    (h : reg.FakeIpFirst uriIp hostOpt peerIp) : reg.PeerHidesNone uriIp hostOpt peerIp := by
  intro hhost hnamed before r after hsessions hip hr
  have hmem : r ∈ reg.sessions := by
    rw [hsessions]
    exact List.mem_append_right _ (List.mem_cons_self ..)
  have hfor : IsForRtsp (reg.object r) uriIp hostOpt peerIp := .inr ⟨hhost, hip⟩
  obtain ⟨found, hfound, hname⟩ := h.named hnamed
  constructor
  · -- otherwise the session of the peer could have been registered first, and found
    by_contra htwo
    obtain ⟨reg', hobjects, hperm, rest, hfirst⟩ := exists_perm_head hmem
    have hhead := getForRtsp_of_head hfirst (by rwa [object_eq_of_objects hobjects])
    rw [h.order htwo reg' hobjects hperm, hfound] at hhead
    exact hr (Option.some.inj hhead ▸ hname)
  · -- and without a named session before it, it is found as things are
    by_contra hnone
    push Not at hnone
    have hfirst : ∀ r' ∈ before, ¬ IsForRtsp (reg.object r') uriIp hostOpt peerIp := by
      rintro r' hr' (hname' | ⟨-, hip'⟩)
      · exact hnone r' hr' hname'
      · rw [hsessions, List.map_append, List.map_cons] at hips
        exact List.disjoint_of_nodup_append hips (List.mem_map_of_mem hr')
          (by rw [hip', ← hip]; exact List.mem_cons_self ..)
    rw [getForRtsp_eq_some_iff.mpr ⟨hfor, before, after, hsessions, hfirst⟩] at hfound
    exact hr (Option.some.inj hfound ▸ hname)

theorem fakeIpFirst_of_peerHidesNone
    (hfake : (reg.sessions.map fun r => (reg.object r).rtspFakeIp).Nodup)
    (hips : (reg.sessions.map fun r => (reg.object r).clientIp).Nodup)
    (h : reg.PeerHidesNone uriIp hostOpt peerIp) : reg.FakeIpFirst uriIp hostOpt peerIp := by
  refine ⟨fun hnamed => ?_, fun hnone hhost r hr hip => ?_, fun hnone hpeer => ?_,
    fun htwo reg' hobjects hperm => ?_⟩
  · obtain ⟨r, hr, hname⟩ := hnamed
    have hfor : IsForRtsp (reg.object r) uriIp hostOpt peerIp := .inl hname
    obtain ⟨found, hfound⟩ := exists_getForRtsp hr hfor
    exact ⟨found, hfound, namedBy_of_getForRtsp h ⟨r, hr, hname⟩ hfound⟩
  · obtain ⟨found, hfound⟩ := exists_getForRtsp hr (.inr ⟨hhost, hip⟩)
    obtain ⟨hmem, -⟩ := find?_eq_some hfound
    have hfor := (getForRtsp_eq_some_iff.mp hfound).1
    rw [hfound, List.inj_on_of_nodup_map hips hmem hr
      ((hfor.resolve_left (hnone found hmem)).2.trans hip.symm)]
  · rw [getForRtsp_eq_none_iff]
    rintro r hr (hname | ⟨hhost, hip⟩)
    · exact hnone r hr hname
    · exact hpeer hhost r hr hip
  · rw [getForRtsp, getForRtsp, find?, find?, object_eq_of_objects hobjects]
    refine (find?_eq_of_perm hperm.symm fun x hx y hy hpx hpy => ?_).symm
    exact eq_of_isForRtsp hfake hips h htwo hx hy (of_decide_eq_true hpx) (of_decide_eq_true hpy)

/-- **The fake IP comes first exactly where the peer address hides no named session.** -/
theorem fakeIpFirst_iff (hfake : (reg.sessions.map fun r => (reg.object r).rtspFakeIp).Nodup)
    (hips : (reg.sessions.map fun r => (reg.object r).clientIp).Nodup) :
    reg.FakeIpFirst uriIp hostOpt peerIp ↔ reg.PeerHidesNone uriIp hostOpt peerIp :=
  ⟨peerHidesNone_of_fakeIpFirst hips, fakeIpFirst_of_peerHidesNone hfake hips⟩

end Rtsp

/-- Two clients, each with a session. -/
def ofTwoClients : SessionRegistry where
  objects :=
    [{ sessionId := 1, clientIp := ascii "10.0.0.1", rtspFakeIp := ascii "0.1.1.1" },
      { sessionId := 2, clientIp := ascii "10.0.0.2", rtspFakeIp := ascii "0.2.2.2" }]
  sessions := [0, 1]
  nextSessionId := 3
  sessions_lt := by decide

/-- A request for the second session that comes from the first client's address without a host is
taken to be about the first session. -/
theorem not_fakeIpFirst_ofTwoClients :
    (ofTwoClients.sessions.map fun r => (ofTwoClients.object r).rtspFakeIp).Nodup ∧
      (ofTwoClients.sessions.map fun r => (ofTwoClients.object r).clientIp).Nodup ∧
      ¬ ofTwoClients.FakeIpFirst (ascii "0.2.2.2") [] (ascii "10.0.0.1") := by
  refine ⟨by decide, by decide, fun h => ?_⟩
  obtain ⟨r, hr, hname⟩ := h.named ⟨1, by decide, by decide⟩
  have hfirst : ofTwoClients.getForRtsp (ascii "0.2.2.2") [] (ascii "10.0.0.1") = some 0 := by decide
  rw [hfirst] at hr
  exact absurd hname (Option.some.inj hr ▸ by decide)

/-- The same request is served with a host in it. -/
theorem fakeIpFirst_ofTwoClients :
    ofTwoClients.FakeIpFirst (ascii "0.2.2.2") (ascii "0.2.2.2") (ascii "10.0.0.1") :=
  (fakeIpFirst_iff (by decide) (by decide)).mpr fun hhost => absurd hhost (by decide)

end SessionRegistry

end SteamStream.Session
