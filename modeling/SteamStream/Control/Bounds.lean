import SteamStream.Control.Server

/-!
# Which reads of a received packet stay in bounds

Nothing in `ControlServer::run` compares a length with anything: the type and the header are
read by a cast, the ciphertext is as long as the length field says, and the members of an input
packet are read from a plaintext of that length. A read logs the access it makes, so the reads
of a packet are in bounds when every effect of `receive` is.

The sizes a packet has to have come out part by part: `decryptPacket_inBounds` for the
datagram, `dispatch_inBounds` for the plaintext, and `receive_inBounds_iff` for the whole.
-/

namespace SteamStream.Control

open Wire Session

variable {machine : Machine} {srv : ControlServer} {reg : SessionRegistry}
  {media : Option MediaRef} {peer : ENetPeer} {pkt : Buffer} {dev : StreamSession}
  {key : Bytes}

/-- The size of the ciphertext does not wrap around exactly when the length field covers tag
and sequence number. -/
theorem viewSize_eq_iff {len : ℕ} (hlt : len < 2 ^ 16) :
    (viewSize len : ℤ) = len - gcmTagSize - 4 ↔ 20 ≤ len := by
  rcases le_or_gt 20 len with h | h
  · rw [viewSize_of_le h hlt, gcmTagSize]
    omega
  · rw [viewSize_of_lt h, gcmTagSize]
    omega

/-- The length of the ciphertext the length field announces is there, and the tag, read as a C
string, ends inside the packet. -/
theorem decryptPacket_inBounds :
    (decryptPacket machine.evp pkt key).All Effect.InBounds ↔
      20 ≤ lengthField pkt ∧ lengthField pkt + 4 ≤ pkt.bytes.length ∧
        0 ∈ pkt.bytes.drop ControlEncryptedPacket.gcmTag.off := by
  have hlt := lengthField_lt pkt
  rw [decryptPacket_all fun _ => trivial]
  simp only [Effect.InBounds, Access.InBounds, viewSize_eq_iff hlt, Field.stop,
    ControlEncryptedPacket.seq, ControlPacket.length, ControlEncryptedPacket.payload,
    ControlEncryptedPacket.gcmTag]
  constructor
  · rintro ⟨-, -, ⟨h20, hview⟩, hscan, -⟩
    rw [viewSize_of_le h20 hlt] at hview
    exact ⟨h20, by omega, hscan⟩
  · rintro ⟨h20, hlen, hscan⟩
    rw [viewSize_of_le h20 hlt]
    exact ⟨by omega, by omega, ⟨h20, by omega⟩, hscan, fun _ => by omega⟩

/-- The media session `handle_input` gets. -/
def inputMedia (srv : ControlServer) (media : Option MediaRef) : Option MediaRef :=
  if srv.hasMediaAccessor then media else none

/-- A plaintext is long enough for what its dispatch reads. -/
def PlaintextFits (srv : ControlServer) (media : Option MediaRef) (decrypted : Buffer) : Prop :=
  ControlPacket.type.stop ≤ decrypted.bytes.length ∧
    (packetType decrypted = some .inputData →
      inputSize (InputType.ofCode (ofLE (decrypted.load InputPkt.type))) (inputMedia srv media) ≤
        decrypted.bytes.length)

theorem dispatch_inBounds {decrypted : Buffer} :
    (dispatch srv dev decrypted media).All Effect.InBounds ↔
      PlaintextFits srv media decrypted := by
  rw [dispatch, Traced.all_bind_ok (Buffer.result_loadLE ..), Buffer.all_loadLE, PlaintextFits]
  refine and_congr Iff.rfl ?_
  rw [packetType]
  split
  · rename_i h
    rw [h, inputMedia, handleInput_inBounds]
    exact ⟨fun hsize _ => hsize, fun hsize => hsize rfl⟩
  · -- the other types make no access
    rename_i h
    refine iff_of_true ?_ fun hinput => absurd (h.symm.trans hinput) (by decide)
    split_ifs
    · exact Traced.all_emit.mpr trivial
    · exact Traced.all_pure
  · rename_i h
    refine iff_of_true ?_ fun hinput => absurd (h.symm.trans hinput) (by decide)
    split_ifs
    · exact Traced.all_emit.mpr trivial
    · exact Traced.all_pure
  · rename_i h _ _
    exact iff_of_true Traced.all_pure fun hinput => absurd hinput h

/-- A packet is long enough for what handling it reads: its type, and if that is `ENCRYPTED` a
ciphertext as long as the length field says, behind a tag that ends as a C string, with a
plaintext that is long enough in its turn. -/
def PacketFits (machine : Machine) (srv : ControlServer) (dev : StreamSession)
    (media : Option MediaRef) (pkt : Buffer) : Prop :=
  ControlPacket.type.stop ≤ pkt.bytes.length ∧
    (packetType pkt = some .encrypted →
      20 ≤ lengthField pkt ∧ lengthField pkt + 4 ≤ pkt.bytes.length ∧
        0 ∈ pkt.bytes.drop ControlEncryptedPacket.gcmTag.off ∧
        PlaintextFits srv media (stringBuffer
          (unauthenticatedPlaintext machine.evp pkt dev.aesKey) machine.afterPlaintext))

/-- **When every read is in bounds.** Handling a received packet of a connected peer reads only
bytes of the datagram and of the plaintext if and only if both are long enough. -/
theorem receive_inBounds_iff (machine : Machine) (srv : ControlServer) (reg : SessionRegistry)
    (media : Option MediaRef) (peer : ENetPeer) (pkt : Buffer) :
    (receive machine srv reg media peer pkt).All Effect.InBounds ↔
      ∀ sess, srv.session? peer = some sess →
        PacketFits machine srv (reg.object sess) media pkt := by
  cases hpeer : srv.session? peer with
  | none =>
    rw [receive_of_unknown hpeer]
    exact iff_of_true Traced.all_pure fun sess h => nomatch h
  | some sess =>
    have hfits : (receive machine srv reg media peer pkt).All Effect.InBounds ↔
        PacketFits machine srv (reg.object sess) media pkt := by
      rw [receive_all hpeer, receiveEncrypted_all, decryptPacket_inBounds, dispatch_inBounds,
        PacketFits]
      refine and_congr Iff.rfl (forall_congr' fun _ => ?_)
      constructor
      · rintro ⟨⟨h20, hlen, hscan⟩, hplain⟩
        exact ⟨h20, hlen, hscan, hplain h20⟩
      · rintro ⟨h20, hlen, hscan, hplain⟩
        exact ⟨⟨h20, hlen, hscan⟩, fun _ => hplain⟩
    rw [hfits]
    exact ⟨fun h _ hsess => Option.some.inj hsess ▸ h, fun h => h sess rfl⟩

/-- Two bytes that claim to be an encrypted packet. -/
def headerlessPacket : Buffer where
  bytes := [1, 0]
  beyond _ := 0

/-- The header of a packet is read although the datagram ends before it. -/
theorem not_receive_inBounds_headerless :
    ¬ (receive rejectingMachine
      (({} : ControlServer).connect oneSession 0 7 (ascii "192.168.1.20")) oneSession none 0
      headerlessPacket).All Effect.InBounds := by
  intro h
  have hread : ControlPacket.length.stop ≤ headerlessPacket.bytes.length :=
    h (.access (.load headerlessPacket.bytes ControlPacket.length))
      (List.mem_of_getElem? (i := 2) rfl)
  exact absurd hread (by decide)

end SteamStream.Control
