import SteamStream.Control.Decrypt
import SteamStream.Control.Input

/-!
# The control server

`ControlServer::run` takes ENet events one at a time. A connect binds the peer to a session, a
disconnect forgets it, and a received packet of type `ENCRYPTED` is decrypted with the key of
the peer's session and dispatched on the type of its plaintext: input goes to the media
session, an IDR request and a termination to the callbacks `main` has installed.

A packet whose tag OpenSSL rejects should have no effect. Since a failing
`EVP_DecryptFinal_ex` is only reported, its plaintext is dispatched like any other
(`dropsUnauthenticated_iff`).
-/

namespace SteamStream.Control

open Wire Session

/-- A peer of the ENet host. -/
abbrev ENetPeer := ℕ

/-- The control server: the session of every connected peer, and which accessors and callbacks
are installed. -/
structure ControlServer where
  clients : List (ENetPeer × SessionRef) := []
  hasMediaAccessor : Bool := true
  hasIdrCallback : Bool := true
  hasStopCallback : Bool := true

/-! ### Connections -/

/-- The running session, when the connect data or the address fits it. -/
def matchSession (reg : SessionRegistry) (connectData : UInt32) (ip : Bytes) :
    Option SessionRef :=
  match reg.getRunning with
  | none => none
  | some s =>
    if (reg.object s).enetSecretPayload = connectData ∨ (reg.object s).clientIp = ip then some s
    else none

namespace ControlServer

variable (srv : ControlServer)

/-- The session of a connected peer. -/
def session? (peer : ENetPeer) : Option SessionRef := srv.clients.lookup peer

/-- Forget a peer. -/
def disconnect (peer : ENetPeer) : ControlServer :=
  { srv with clients := srv.clients.filter fun c => c.1 ≠ peer }

/-- Bind a connecting peer to the session it matches; without one the peer is thrown out. -/
def connect (reg : SessionRegistry) (peer : ENetPeer) (connectData : UInt32) (ip : Bytes) :
    ControlServer :=
  match matchSession reg connectData ip with
  | none => srv
  | some s => { srv with clients := (peer, s) :: (srv.disconnect peer).clients }

end ControlServer

/-- Dropping the entries of another peer does not change what a peer is bound to. -/
private theorem lookup_filter_ne {clients : List (ENetPeer × SessionRef)} {peer p : ENetPeer}
    (h : p ≠ peer) : (clients.filter fun c => c.1 ≠ peer).lookup p = clients.lookup p := by
  induction clients with
  | nil => rfl
  | cons c clients ih =>
    by_cases hc : c.1 = peer
    · have hp : (p == c.1) = false := by rw [hc]; exact beq_false_of_ne h
      rw [List.filter_cons_of_neg (by simpa using hc), ih, List.lookup_cons, hp]
    · rw [List.filter_cons_of_pos (by simpa using hc), List.lookup_cons, List.lookup_cons, ih]

namespace ControlServer

variable {srv : ControlServer} {reg : SessionRegistry} {peer p : ENetPeer}
  {connectData : UInt32} {ip : Bytes} {s : SessionRef}

theorem session?_disconnect_of_ne (h : p ≠ peer) :
    (srv.disconnect peer).session? p = srv.session? p := lookup_filter_ne h

@[simp]
theorem session?_disconnect_self : (srv.disconnect peer).session? peer = none := by
  unfold session? disconnect
  rw [List.lookup_eq_none_iff]
  intro c hc
  have hne : c.1 ≠ peer := by simpa using (List.mem_filter.mp hc).2
  exact bne_iff_ne.mpr hne.symm

/-- A peer that matches no session leaves the connections alone. -/
theorem connect_of_none (h : matchSession reg connectData ip = none) :
    srv.connect reg peer connectData ip = srv := by
  unfold connect
  rw [h]

/-- A connecting peer is bound to the session it matches, the others stay. -/
theorem session?_connect_of_some (h : matchSession reg connectData ip = some s) :
    (srv.connect reg peer connectData ip).session? p =
      if p = peer then some s else srv.session? p := by
  unfold connect
  rw [h]
  simp only [session?, List.lookup_cons]
  by_cases hp : p = peer
  · simp [hp]
  · rw [if_neg hp, beq_false_of_ne hp]
    exact session?_disconnect_of_ne hp

/-- What a peer is bound to is among the connections. -/
theorem mem_clients_of_session? (h : srv.session? p = some s) :
    s ∈ srv.clients.map Prod.snd := by
  obtain ⟨as, bs, hsplit, -⟩ := List.lookup_eq_some_iff.mp h
  rw [hsplit]
  simp

end ControlServer

/-! ### Packets -/

/-- The buffer of a `std::string`: a NUL follows its bytes. -/
def stringBuffer (s : Bytes) (beyond : ℕ → UInt8) : Buffer where
  bytes := s
  beyond i := if i = s.length then 0 else beyond i

/-- A plaintext is dispatched on its type. -/
def dispatch (srv : ControlServer) (dev : StreamSession) (decrypted : Buffer)
    (media : Option MediaRef) : Action Unit := do
  let subType ← decrypted.loadLE ControlPacket.type
  match PacketType.ofCode subType with
  | some .inputData => handleInput dev decrypted (if srv.hasMediaAccessor then media else none)
  | some .idrFrame =>
    if srv.hasIdrCallback then .emit (.idr dev.sessionId) else pure ()
  | some .termination =>
    if srv.hasStopCallback then .emit (.stop dev.sessionId) else pure ()
  | _ => pure ()

/-- What the machine adds to a received packet: OpenSSL's answers, and the memory behind the
plaintext. -/
structure Machine where
  evp : Evp
  afterPlaintext : ℕ → UInt8

/-- An encrypted packet of a connected peer. -/
def receiveEncrypted (machine : Machine) (srv : ControlServer) (dev : StreamSession)
    (media : Option MediaRef) (pkt : Buffer) : Action Unit := do
  let decrypted ← decryptPacket machine.evp pkt dev.aesKey
  dispatch srv dev (stringBuffer decrypted machine.afterPlaintext) media

/-- The type of a packet. -/
def packetType (pkt : Buffer) : Option PacketType :=
  PacketType.ofCode (ofLE (pkt.load ControlPacket.type))

/-- A received packet. Exceptions are caught and logged. -/
def receive (machine : Machine) (srv : ControlServer) (reg : SessionRegistry)
    (media : Option MediaRef) (peer : ENetPeer) (pkt : Buffer) : Action Unit :=
  match srv.session? peer with
  | none => pure ()
  | some sess => do
    let type ← pkt.loadLE ControlPacket.type
    if PacketType.ofCode type = some .encrypted then
      (receiveEncrypted machine srv (reg.object sess) media pkt).handle fun
        | .exception _ => some (pure ())
        | .undefined => none
    else pure ()

/-! ### What a received packet does -/

section Receive

variable {machine : Machine} {srv : ControlServer} {reg : SessionRegistry}
  {media : Option MediaRef} {peer : ENetPeer} {pkt : Buffer} {dev : StreamSession}
  {sess : SessionRef} {P : Effect → Prop}

/-- A packet of an unknown peer is dropped. -/
theorem receive_of_unknown (h : srv.session? peer = none) :
    receive machine srv reg media peer pkt = pure () := by
  unfold receive
  rw [h]

/-- A packet of a known peer is looked at, and handled when it is encrypted. -/
theorem receive_all (hpeer : srv.session? peer = some sess) :
    (receive machine srv reg media peer pkt).All P ↔
      P (.access (.load pkt.bytes ControlPacket.type)) ∧
        (packetType pkt = some .encrypted →
          (receiveEncrypted machine srv (reg.object sess) media pkt).All P) := by
  unfold receive
  rw [hpeer]
  dsimp only
  rw [Traced.all_bind_ok (Buffer.result_loadLE ..), Buffer.all_loadLE]
  refine and_congr_right fun _ => ?_
  rw [← packetType]
  split_ifs with htype
  · rw [Traced.all_handle]
    refine ⟨fun h _ => h.1, fun h => ⟨h htype, fun e y _ hy => ?_⟩⟩
    cases e with
    | exception what =>
      obtain rfl := Option.some.inj hy
      exact Traced.all_pure
    | undefined => cases hy
  · exact iff_of_true Traced.all_pure fun h => absurd h htype

/-- Handling an encrypted packet is decrypting it and, if its length field covers tag and
sequence number, dispatching whatever OpenSSL wrote. -/
theorem receiveEncrypted_all :
    (receiveEncrypted machine srv dev media pkt).All P ↔
      (decryptPacket machine.evp pkt dev.aesKey).All P ∧
        (20 ≤ lengthField pkt →
          (dispatch srv dev (stringBuffer
            (unauthenticatedPlaintext machine.evp pkt dev.aesKey) machine.afterPlaintext)
            media).All P) := by
  rw [receiveEncrypted, Traced.all_bind, decryptPacket_result]
  refine and_congr_right fun _ => ?_
  split_ifs with h
  · exact ⟨fun hall _ => hall _ rfl, fun hall a ha => Except.ok.inj ha ▸ hall h⟩
  · exact iff_of_true (fun a ha => nomatch ha) fun hge => absurd hge h

/-- What a dispatch can do: read, enter `handle_input`, call the media session it was given,
and run a callback with the id of the session. -/
theorem dispatch_all {decrypted : Buffer} (haccess : ∀ a, P (.access a))
    (henter : P .handleInput) (hinput : ∀ m c, media = some m → P (.input m c))
    (hidr : P (.idr dev.sessionId)) (hstop : P (.stop dev.sessionId)) :
    (dispatch srv dev decrypted media).All P := by
  rw [dispatch, Traced.all_bind_ok (Buffer.result_loadLE ..), Buffer.all_loadLE]
  refine ⟨haccess _, ?_⟩
  split
  · refine handleInput_all haccess henter fun m c hm => hinput m c ?_
    split_ifs at hm
    exact hm
  · split_ifs
    · exact Traced.all_emit.mpr hidr
    · exact Traced.all_pure
  · split_ifs
    · exact Traced.all_emit.mpr hstop
    · exact Traced.all_pure
  · exact Traced.all_pure

/-- An IDR request runs the IDR callback. -/
theorem dispatch_idr {decrypted : Buffer} (htype : packetType decrypted = some .idrFrame)
    (hidr : srv.hasIdrCallback = true) (h : (dispatch srv dev decrypted media).All P) :
    P (.idr dev.sessionId) := by
  rw [dispatch, Traced.all_bind_ok (Buffer.result_loadLE ..), ← packetType, htype] at h
  simp only [hidr, if_true, Traced.all_emit] at h
  exact h.2

/-- Decryption dispatches nothing. -/
theorem decryptPacket_notDispatched {key : Bytes} :
    (decryptPacket machine.evp pkt key).All Effect.NotDispatched := by
  refine (decryptPacket_all (fun _ => ?_) machine.evp pkt key).mpr ⟨?_, ?_, ?_, ?_, fun _ => ?_⟩ <;>
    exact trivial

/-- An empty plaintext has no type that is dispatched: its first byte reads as NUL. -/
theorem dispatch_nil_notDispatched {beyond : ℕ → UInt8} :
    (dispatch srv dev (stringBuffer [] beyond) media).All Effect.NotDispatched := by
  have hcode : ofLE ((stringBuffer [] beyond).load ControlPacket.type) % 256 = 0 := by
    have hload : (stringBuffer [] beyond).load ControlPacket.type = [0, beyond 1] := rfl
    rw [hload, ofLE]
    simp
  rw [dispatch, Traced.all_bind_ok (Buffer.result_loadLE ..), Buffer.all_loadLE]
  refine ⟨trivial, ?_⟩
  split
  -- the three dispatched types have a low byte
  · rename_i h
    exact absurd hcode (PacketType.code_of_ofCode h ▸ by decide)
  · rename_i h
    exact absurd hcode (PacketType.code_of_ofCode h ▸ by decide)
  · rename_i h
    exact absurd hcode (PacketType.code_of_ofCode h ▸ by decide)
  · exact Traced.all_pure

/-! ### Unauthenticated packets -/

/-- Decryption throws, or returns no byte. -/
def YieldsNoPlaintext (x : Action Bytes) : Prop :=
  (∃ what, x.result = .error (.exception what)) ∨ x.result = .ok []

/-- An encrypted packet whose tag check fails yields no plaintext, and neither input nor a
callback comes of it. -/
def DropsUnauthenticated (machine : Machine) (srv : ControlServer) (reg : SessionRegistry)
    (media : Option MediaRef) (peer : ENetPeer) (pkt : Buffer) : Prop :=
  packetType pkt = some .encrypted → machine.evp.status .final ≠ 1 →
    (∀ sess, srv.session? peer = some sess →
      YieldsNoPlaintext (decryptPacket machine.evp pkt (reg.object sess).aesKey)) ∧
    (receive machine srv reg media peer pkt).All Effect.NotDispatched

/-- Nothing comes out of decryption exactly when there is nothing to decrypt. -/
theorem yieldsNoPlaintext_decryptPacket_iff {evp : Evp} {key : Bytes} :
    YieldsNoPlaintext (decryptPacket evp pkt key) ↔ lengthField pkt = 20 := by
  rw [YieldsNoPlaintext, decryptPacket_result]
  constructor
  · rintro (⟨what, hwhat⟩ | hok)
    · split_ifs at hwhat
      cases Except.error.inj hwhat
    · split_ifs at hok with h
      have hlen := congrArg List.length (Except.ok.inj hok)
      rw [length_unauthenticatedPlaintext] at hlen
      have hnil : ([] : Bytes).length = 0 := rfl
      omega
  · intro h
    rw [if_pos h.ge]
    refine .inr (congrArg _ (List.eq_nil_of_length_eq_zero ?_))
    rw [length_unauthenticatedPlaintext]
    omega

/-- **When a rejected packet is dropped.** An encrypted packet whose tag check fails is dropped
if and only if its peer is unknown or it carries no ciphertext. -/
theorem dropsUnauthenticated_iff (machine : Machine) (srv : ControlServer)
    (reg : SessionRegistry) (media : Option MediaRef) (peer : ENetPeer) (pkt : Buffer) :
    DropsUnauthenticated machine srv reg media peer pkt ↔
      (packetType pkt = some .encrypted → machine.evp.status .final ≠ 1 →
        srv.session? peer = none ∨ lengthField pkt = 20) := by
  refine forall₂_congr fun htype hfinal => ?_
  cases hpeer : srv.session? peer with
  | none =>
    rw [receive_of_unknown hpeer]
    exact iff_of_true ⟨fun sess h => (nomatch h), Traced.all_pure⟩ (.inl rfl)
  | some sess =>
    simp only [yieldsNoPlaintext_decryptPacket_iff, reduceCtorEq, false_or]
    refine ⟨fun h => h.1 sess rfl, fun h20 => ⟨fun _ _ => h20, ?_⟩⟩
    have hnil : unauthenticatedPlaintext machine.evp pkt (reg.object sess).aesKey = [] := by
      refine List.eq_nil_of_length_eq_zero ?_
      rw [length_unauthenticatedPlaintext]
      omega
    rw [receive_all hpeer, receiveEncrypted_all, hnil]
    exact ⟨trivial, fun _ => ⟨decryptPacket_notDispatched, fun _ => dispatch_nil_notDispatched⟩⟩

end Receive

/-! ### A forged termination -/

/-- A registry with the session of one launch. -/
def oneSession : SessionRegistry :=
  SessionRegistry.initial.nextId.2.add {
    sessionId := 1
    clientIp := ascii "192.168.1.20"
    aesKey := ascii "9d804e9d3a7d8f1b2c3d4e5f60718293"
    aesIv := ascii "16909060"
    enetSecretPayload := 7 }

/-- OpenSSL writes the plaintext and then rejects the tag. -/
def rejectingMachine : Machine where
  evp := .passThrough fun call => if call = .final then 0 else 1
  afterPlaintext _ := 0

/-- An encrypted packet with a zero tag, whose two bytes of ciphertext come out as the type of a
termination. -/
def forgedTermination : Buffer where
  bytes := [1, 0, 22, 0, 1, 0, 0, 0] ++ List.replicate 16 0 ++ [0x09, 0x01]
  beyond _ := 0

/-- The peer of the session sends it: the session is stopped. -/
theorem not_dropsUnauthenticated_forged :
    ¬ DropsUnauthenticated rejectingMachine
      (({} : ControlServer).connect oneSession 0 7 (ascii "192.168.1.20")) oneSession none 0
      forgedTermination := by
  intro h
  obtain ⟨-, hnone⟩ := h (by decide) (by decide)
  exact hnone (.stop 1) (List.mem_of_getLast? rfl)

end SteamStream.Control
