import SteamStream.Control.Client
import SteamStream.Library.History
import SteamStream.Server.Isolation
import SteamStream.Server.Objects

/-!
# What clients send, through all of the server

A client knows the key it sent with the last request that was answered with the address of its
session; the server keeps it in the session, where a resume rotates it under the connections that
are already there. `keyLog` is what the clients of a run know, and `holdsLast_isInvariantUnder`
says that the sessions hold it, as long as no launch runs into a session with another key.

So whatever the threads of the server do in between, the messages the clients have packed under
their keys have exactly the reactions they ask for, in the order in which they arrive
(`outputs_clientSystem`).
-/

namespace SteamStream.Server

open Wire Session Control Rest Runs X509

/-! ### The keys clients know -/

/-- A key that is agreed on: the session whose address a reply names, and the key of the request. -/
abbrev Agreed := SessionRef × Bytes

section Keys

variable {Cert : Type} (ssl : OpenSSL Cert)

/-- What a request agrees on. -/
def agreed (state : AppState) (event : Event Cert) : Option Agreed :=
  match (handle ssl state event).session, getHeader event.req.headers "rikey",
      getHeader event.req.headers "rikeyid" with
  | some sess, some key, some iv => if key ≠ [] ∧ iv ≠ [] then some (sess, key) else none
  | _, _, _ => none

/-- The key of a session, if an entry is about that session. -/
def Agreed.keyOf (sess : SessionRef) (entry : Agreed) : Option Bytes :=
  if entry.1 = sess then some entry.2 else none

theorem Agreed.keyOf_self {sess : SessionRef} {key : Bytes} :
    Agreed.keyOf sess (sess, key) = some key := if_pos rfl

theorem Agreed.keyOf_of_ne {sess named : SessionRef} {key : Bytes} (h : named ≠ sess) :
    Agreed.keyOf sess (named, key) = none := if_neg h

/-- The key the client of a session knows. -/
def lastKey (sess : SessionRef) (log : List Agreed) : Option Bytes :=
  History.last (Agreed.keyOf sess) log

variable {ssl} {state : AppState} {event : Event Cert}

theorem agreed_eq_some {sess : SessionRef} {key : Bytes} :
    agreed ssl state event = some (sess, key) ↔
      (handle ssl state event).session = some sess ∧ ∃ iv, CarriesKey event.req.headers key iv := by
  unfold agreed CarriesKey
  cases (handle ssl state event).session with
  | none => simp
  | some named =>
    cases getHeader event.req.headers "rikey" with
    | none => simp
    | some rikey =>
      cases getHeader event.req.headers "rikeyid" with
      | none => simp
      | some rikeyid =>
        simp only [Option.ite_none_right_eq_some, Option.some.injEq, Prod.mk.injEq]
        constructor
        · rintro ⟨⟨hkey, hiv⟩, rfl, rfl⟩
          exact ⟨rfl, rikeyid, rfl, rfl, hkey, hiv⟩
        · rintro ⟨rfl, iv, rfl, rfl, hkey, hiv⟩
          exact ⟨⟨hkey, hiv⟩, rfl, rfl⟩

theorem aesKey_adoptClient {reg : SessionRegistry} {sess r : SessionRef} {clientIp : Bytes} :
    ((adoptClient reg sess clientIp).object r).aesKey = (reg.object r).aesKey := by
  unfold adoptClient
  split_ifs
  · exact SessionRegistry.field_modify (fun _ => rfl)
  · rfl

/-- Without a key in the query, or for another session, nothing is captured. -/
theorem aesKey_captureKey {reg : SessionRegistry} {sess r : SessionRef} {headers : Query}
    (h : sess = r → ∀ key iv, ¬ CarriesKey headers key iv) :
    ((captureKey reg sess headers).object r).aesKey = (reg.object r).aesKey := by
  unfold captureKey
  dsimp only
  split_ifs with hcarries
  · refine congrArg StreamSession.aesKey (SessionRegistry.object_modify_of_ne fun hsess => ?_)
    obtain ⟨hkey, hiv⟩ := hcarries
    cases hrikey : getHeader headers "rikey" with
    | none => exact hkey (by rw [hrikey]; rfl)
    | some key =>
      cases hrikeyid : getHeader headers "rikeyid" with
      | none => exact hiv (by rw [hrikeyid]; rfl)
      | some iv =>
        rw [hrikey] at hkey
        rw [hrikeyid] at hiv
        exact h hsess key iv ⟨hrikey, hrikeyid, hkey, hiv⟩
  · rfl

/-- A request leaves the keys of the sessions alone, but for the one it agrees on. -/
theorem aesKey_handle {r : SessionRef} (hr : r < state.sessions.objects.length)
    (h : ∀ key, agreed ssl state event ≠ some (r, key)) :
    ((handle ssl state event).state.sessions.object r).aesKey =
      (state.sessions.object r).aesKey := by
  rcases @handle_objects Cert ssl state event with
    ⟨-, hobjects⟩ | ⟨sess, hmem, hnamed, hobjects | hsessions⟩ | ⟨-, s, -, -, -, -, hobjects⟩
  · rw [SessionRegistry.object, hobjects, SessionRegistry.object]
  · rw [SessionRegistry.object, hobjects, SessionRegistry.object]
  · rw [hsessions, aesKey_captureKey, aesKey_adoptClient]
    rintro rfl key iv hcarries
    exact h key (agreed_eq_some.mpr ⟨hnamed, iv, hcarries⟩)
  · rw [object_of_append hr hobjects]

/-- Only requests change the key of a session. -/
theorem aesKey_serverStep {st st' : ServerState} {e : ServerEvent Cert} {r : SessionRef}
    (h : serverStep ssl st e = some st') (hhttps : ∀ request, e ≠ .https request) :
    (st'.sessions.object r).aesKey = (st.sessions.object r).aesKey := by
  rcases serverStep_objects h with ⟨request, heq, -⟩ | ⟨sess, video, audio, hsessions⟩ |
    ⟨sess, hsessions⟩ | hsessions
  · exact absurd heq (hhttps request)
  · rw [hsessions]
    exact SessionRegistry.field_modify (fun _ => rfl)
  · rw [hsessions]
    exact SessionRegistry.field_modify (fun _ => rfl)
  · rw [hsessions]

end Keys

/-! ### The server with its clients -/

/-- The state of the server, and what has been agreed on so far. -/
structure ClientState where
  server : ServerState
  log : List Agreed := []

/-- A step of the server; when it is a packet some client has packed, the message in it. -/
structure ClientEvent (Cert : Type) where
  event : ServerEvent Cert
  message : Option Message := none

section System

variable {Cert : Type} (ssl : OpenSSL Cert) (encrypt : Encryption)

/-- What a step agrees on. -/
def newlyAgreed (st : ServerState) : ServerEvent Cert → List Agreed
  | .https event => (agreed ssl st.app event).toList
  | _ => []

/-- The server, with the keys its clients know. -/
def clientSystem (app : AppState) : System ClientState (ClientEvent Cert) where
  init := { server := { app := app } }
  step st turn :=
    (serverStep ssl st.server turn.event).map fun server =>
      { server := server, log := st.log ++ newlyAgreed ssl st.server turn.event }

/-- Sessions hold the keys their clients know. -/
def HoldsLast (st : ClientState) : Prop :=
  ∀ sess key, lastKey sess st.log = some key → sess < st.server.sessions.objects.length ∧
    (st.server.sessions.object sess).aesKey = key

/-- What clients do in a step: they do not launch into a session with another key, and a packet
of a connected peer is a message packed under the last key its client knows, or not encrypted. -/
def Sent (st : ClientState) (turn : ClientEvent Cert) : Prop :=
  match turn.event with
  | .https event => RelaunchKeyHeld ssl st.server.app event
  | .receive machine peer pkt =>
    Opens machine.evp encrypt ∧ ∀ sess, st.server.control.session? peer = some sess →
      match turn.message with
      | none => packetType pkt ≠ some .encrypted
      | some m => ∃ key seq bytes, lastKey sess st.log = some key ∧
          encryptPacket encrypt key seq m.bytes = some bytes ∧ Carries pkt bytes
  | _ => True

/-- The reactions of a step. -/
def stepReactions (st : ClientState) (turn : ClientEvent Cert) : List Reaction :=
  match turn.event with
  | .receive machine peer pkt =>
    if st.server.controlPc = .idle then reactions (packetEffects st.server machine peer pkt)
    else []
  | _ => []

/-- The reactions a message asks for, in the session of the peer it comes from. -/
def askedReactions (st : ClientState) (turn : ClientEvent Cert) : List Reaction :=
  match turn.event, turn.message with
  | .receive _ peer _, some m =>
    if st.server.controlPc = .idle then
      (st.server.control.session? peer).toList.flatMap fun sess =>
        m.reactions st.server.control (st.server.sessions.object sess) st.server.holder
    else []
  | _, _ => []

variable {ssl encrypt} {st st' : ClientState} {turn : ClientEvent Cert}

/-- A step that clients may take keeps what they know true. -/
theorem holdsLast_step (hst : HoldsLast st) (hsent : Sent ssl encrypt st turn) {app : AppState}
    (h : (clientSystem ssl app).step st turn = some st') : HoldsLast st' := by
  obtain ⟨server, hserver, rfl⟩ := Option.map_eq_some_iff.mp h
  intro sess key hlast
  have hlength := (serverStep_extends hserver).sessions.length_le
  by_cases hhttps : ∃ request, turn.event = .https request
  · obtain ⟨request, hrequest⟩ := hhttps
    have hfresh : KeyFresh ssl st.server.app request := by
      rw [Sent, hrequest] at hsent
      exact (keyFresh_iff _ _).mpr hsent
    rw [hrequest] at hserver hlast
    have hsessions : server.sessions = (handle ssl st.server.app request).state.sessions := by
      simp only [serverStep] at hserver
      split_ifs at hserver
      exact Option.some.inj hserver ▸ rfl
    dsimp only [newlyAgreed] at hlast ⊢
    -- the last key of a session nothing new is agreed for
    have hkeep : lastKey sess st.log = some key →
        (∀ key', agreed ssl st.server.app request ≠ some (sess, key')) →
        sess < server.sessions.objects.length ∧ (server.sessions.object sess).aesKey = key := by
      intro hold hnot
      obtain ⟨hlt, hkey⟩ := hst sess key hold
      refine ⟨hlt.trans_le hlength, ?_⟩
      rw [hsessions, aesKey_handle hlt hnot]
      exact hkey
    cases hagreed : agreed ssl st.server.app request with
    | none =>
      rw [hagreed, Option.toList_none, List.append_nil] at hlast
      exact hkeep hlast fun key' => by rw [hagreed]; exact Option.some_ne_none _ |>.symm
    | some entry =>
      obtain ⟨named, newKey⟩ := entry
      rw [hagreed, Option.toList_some, lastKey] at hlast
      by_cases hnamed : named = sess
      · subst hnamed
        rw [History.last_concat_of_some Agreed.keyOf_self] at hlast
        obtain rfl := Option.some.inj hlast
        obtain ⟨hsession, iv, hcarries⟩ := agreed_eq_some.mp hagreed
        obtain ⟨reply, hreply, hok, -⟩ := handle_sessionUrl hsession
        rw [hsessions]
        exact ⟨session_lt hsession, (hfresh reply named newKey iv hreply hok hsession hcarries).1⟩
      · rw [History.last_concat_of_none (Agreed.keyOf_of_ne hnamed)] at hlast
        refine hkeep hlast fun key' hkey' => hnamed ?_
        exact (Prod.mk.inj (Option.some.inj (hagreed.symm.trans hkey'))).1
  · have hevent : ∀ request, turn.event ≠ .https request := fun request heq =>
      hhttps ⟨request, heq⟩
    have hnothing : newlyAgreed ssl st.server turn.event = [] := by
      unfold newlyAgreed
      split
      · rename_i request heq
        exact absurd heq (hevent request)
      · rfl
    dsimp only at hlast ⊢
    rw [hnothing, List.append_nil] at hlast
    obtain ⟨hlt, hkey⟩ := hst sess key hlast
    exact ⟨hlt.trans_le hlength, (aesKey_serverStep hserver hevent).trans hkey⟩

theorem holdsLast_isInvariantUnder (app : AppState) :
    (clientSystem ssl app).IsInvariantUnder (Sent ssl encrypt) HoldsLast where
  init := fun _ _ h => nomatch h
  step hst hsent h := holdsLast_step hst hsent h

/-- Whatever arrives, if it is what clients send, has the reactions that are asked for. -/
theorem does_packetEffects {machine : Machine} {peer : ENetPeer} {pkt : Buffer}
    (hst : HoldsLast st) (hsent : Sent ssl encrypt st turn)
    (hevent : turn.event = .receive machine peer pkt) (hidle : st.server.controlPc = .idle) :
    Does (packetEffects st.server machine peer pkt) () (askedReactions st turn) := by
  rw [Sent, hevent] at hsent
  obtain ⟨hopens, hpacket⟩ := hsent
  rw [askedReactions, hevent, packetEffects]
  cases hpeer : st.server.control.session? peer with
  | none =>
    rw [receive_of_unknown hpeer]
    cases turn.message with
    | none => exact does_pure
    | some m =>
      dsimp only
      rw [if_pos hidle, hpeer]
      exact does_pure
  | some sess =>
    have hthis := hpacket sess hpeer
    cases hmessage : turn.message with
    | none =>
      rw [hmessage] at hthis
      exact does_receive_of_not_encrypted hthis
    | some m =>
      rw [hmessage] at hthis
      obtain ⟨key, seq, bytes, hlast, hbytes, hcarries⟩ := hthis
      dsimp only
      rw [if_pos hidle, hpeer, Option.toList_some, List.flatMap_singleton]
      exact does_receive hopens hpeer ((hst sess key hlast).2.symm ▸ hbytes) hcarries

/-- **What clients send is done.** In every interleaving of the threads of the server in which
clients pack their messages under the last key they know, the reactions of the control server are
those the messages ask for, in order, and no packet stops it. -/
theorem outputs_clientSystem (app : AppState) (turns : List (ClientEvent Cert))
    (h : (clientSystem ssl app).Along (Sent ssl encrypt) (clientSystem ssl app).init turns) :
    (clientSystem ssl app).outputs stepReactions (clientSystem ssl app).init turns =
        (clientSystem ssl app).outputs askedReactions (clientSystem ssl app).init turns ∧
      (clientSystem ssl app).Along (fun st turn => ∀ machine peer pkt,
        turn.event = .receive machine peer pkt → st.server.controlPc = .idle →
          ∃ st', (clientSystem ssl app).step st turn = some st')
        (clientSystem ssl app).init turns := by
  have hinv := @holdsLast_isInvariantUnder Cert ssl encrypt app
  constructor
  · refine System.outputs_congr (hinv.along (fun st turn hst hsent => ?_) hinv.init h)
    unfold stepReactions
    split
    · rename_i machine peer pkt hevent
      split_ifs with hidle
      · exact (does_packetEffects hst hsent hevent hidle).reactions
      · rw [askedReactions, hevent]
        cases turn.message with
        | none => rfl
        | some m => exact (if_neg hidle).symm
    · rename_i hother
      unfold askedReactions
      split
      · rename_i machine peer pkt m hevent hmessage
        exact absurd hevent (hother machine peer pkt)
      · rfl
  · refine hinv.along (fun st turn hst hsent machine peer pkt hevent hidle => ?_) hinv.init h
    have hdoes := does_packetEffects hst hsent hevent hidle
    have hserver : ∃ server, serverStep ssl st.server turn.event = some server := by
      rw [hevent, serverStep, if_pos hidle]
      simp only [hdoes.result]
      exact ⟨_, rfl⟩
    obtain ⟨server, hserver⟩ := hserver
    exact ⟨_, congrArg (Option.map _) hserver⟩

/-! ### A client that resumes -/

/-- The key the client launches with. -/
def launchKey : Bytes := beBytes 16 0x9d804e9d3a7d8f1b2c3d4e5f60718293

/-- The key it resumes with. -/
def resumeKey : Bytes := beBytes 16 0x00112233445566778899aabbccddeeff

/-- The key stream of AES-GCM for a key and an initialisation vector, for the two packets the client
sends; nothing for others. -/
def gcmKeyStream (key iv : Bytes) : Bytes :=
  if key = launchKey ∧ iv = 1 :: List.replicate 15 0 then
    beBytes 16 0x2c9bad7382d486b9e90727679445d22f
  else if key = resumeKey ∧ iv = 2 :: List.replicate 15 0 then
    beBytes 18 0x1ef6fde967e9ef67e67d9f4468d313e0fa4f
  else []

/-- AES-GCM adds its key stream, in both directions. -/
def gcmAdd (key iv text : Bytes) : Bytes :=
  text.mapIdx fun i b => b ^^^ (gcmKeyStream key iv).getD i 0

/-- OpenSSL, which accepts the tags. -/
def gcmMachine : Machine where
  evp := {
    status := fun _ => 1
    update := gcmAdd
    length_update := fun _ _ _ => List.length_mapIdx }
  afterPlaintext _ := 0

/-- AES-GCM on the client's side, with the tags of the two packets. -/
def gcmEncrypt : Encryption := fun key iv msg =>
  (gcmAdd key iv msg, beBytes gcmTagSize <|
    if key = launchKey then 0x2974632e8043f438444d0ae87a1b55a3
    else if key = resumeKey then 0xaee3400926ca5ab16abb46eb592aeebe
    else 0)

theorem opens_gcm : Opens gcmMachine.evp gcmEncrypt where
  update_encrypt key iv msg := by
    refine List.ext_getElem? fun i => ?_
    simp only [gcmMachine, gcmEncrypt, gcmAdd, List.getElem?_mapIdx, Option.map_map]
    cases msg[i]? with
    | none => rfl
    | some b =>
      simp only [Option.map_some, Function.comp_apply, UInt8.xor_assoc, UInt8.xor_self,
        UInt8.xor_zero]
  length_tag _ _ _ := length_beBytes ..

/-- The whole struct of a message. -/
def packed (key : String) (seq : UInt32) (m : Message) : Buffer where
  bytes := (encryptPacket gcmEncrypt (ascii key) seq m.bytes).getD []
  beyond _ := 0

/-- A packet with a message in it. -/
def sends (key : String) (seq : UInt32) (m : Message) : ClientEvent LeafCert where
  event := .receive gcmMachine 0 (packed key seq m)
  message := some m

/-- The client moves its mouse. -/
def moveMouse : Message := .input 16 12 (.mouseMoveRel 42 (-7))

/-- It presses a key. -/
def pressKey : Message := .input 18 14 (.keyboard true 0 0x41 2 0)

/-- A client launches, plays and connects. -/
def launchAndPlay : List (ClientEvent LeafCert) :=
  [launchFrom "192.168.1.20" 7,
    .play (ascii "7.7.7.7") (ascii "7.7.7.7") (ascii "192.168.1.20"), .playLookup, .playRead,
    .playCheck, .playSwap, .playStarted true, .playPublish,
    .connect 0 7 (ascii "192.168.1.20")].map fun event => { event := event }

/-- The resume with which it sends another key. -/
def resumeWith (rikey rikeyid : String) : ClientEvent LeafCert where
  event := .https (.resume {
    path := ascii "/resume"
    clientCert := some ⟨1, 1⟩
    clientIp := ascii "192.168.1.20"
    localIp := ascii "192.168.1.2"
    headers := [(ascii "rikey", ascii rikey), (ascii "rikeyid", ascii rikeyid)] })

/-- It moves its mouse, resumes, and presses a key under the new key. -/
def rekeyedClient : List (ClientEvent LeafCert) :=
  launchAndPlay ++ [sends "9d804e9d3a7d8f1b2c3d4e5f60718293" 1 moveMouse,
    resumeWith "00112233445566778899aabbccddeeff" "305419896",
    sends "00112233445566778899aabbccddeeff" 2 pressKey]

/-- What the client sends under the key it knows. -/
theorem sent_sends {st : ClientState} {key : String} {seq : UInt32} {m : Message}
    (hpeer : st.server.control.session? 0 = some 0) (hlast : lastKey 0 st.log = some (ascii key))
    (hpacket : (encryptPacket gcmEncrypt (ascii key) seq m.bytes).isSome) :
    Sent leafSsl gcmEncrypt st (sends key seq m) := by
  refine ⟨opens_gcm, fun sess hsess => ?_⟩
  obtain rfl := Option.some.inj (hpeer.symm.trans hsess)
  obtain ⟨bytes, hbytes⟩ := Option.isSome_iff_exists.mp hpacket
  refine ⟨ascii key, seq, bytes, hlast, hbytes, bytes.drop (fullSize bytes), ?_⟩
  rw [packed, hbytes, Option.getD_some, List.take_append_drop]

theorem along_rekeyedClient : (clientSystem leafSsl pairedStart).Along (Sent leafSsl gcmEncrypt)
    (clientSystem leafSsl pairedStart).init rekeyedClient := by
  rw [rekeyedClient, launchAndPlay, List.map_cons, System.along_append_iff]
  refine ⟨⟨fun _ _ _ _ _ h => (nomatch h), fun st _ => ?_⟩, fun st hst => ?_⟩
  · exact System.along_of_forall (by simp [Sent])
  · obtain rfl := Option.some.inj hst
    refine ⟨sent_sends rfl rfl rfl, fun st hst => ?_⟩
    obtain rfl := Option.some.inj hst
    refine ⟨trivial, fun st hst => ?_⟩
    obtain rfl := Option.some.inj hst
    exact ⟨sent_sends rfl rfl rfl, fun _ _ => trivial⟩

/-- The mouse moves, and the key is pressed. -/
theorem outputs_rekeyedClient :
    (clientSystem leafSsl pairedStart).outputs stepReactions
        (clientSystem leafSsl pairedStart).init rekeyedClient =
      [.input 0 (.mouseMoveRel 42 (-7)), .input 0 (.keyboardKey 30 true)] :=
  (outputs_clientSystem pairedStart rekeyedClient along_rekeyedClient).1.trans (by decide +kernel)
end System

end SteamStream.Server
