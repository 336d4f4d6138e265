import SteamStream.Control.Packets
import SteamStream.Crypto.Hex

/-!
# Decrypting a control packet

`decrypt_packet` and the chain of AES functions under it. OpenSSL answers each call with a
status; `EVP_DecryptUpdate` writes as many bytes as it reads and `EVP_DecryptFinal_ex` only
compares the tag. Every failing status goes to `handle_openssl_error`, which prints and
returns.

So the statuses do not decide the result (`decryptPacket_result`): the plaintext is returned
whenever the length field is at least 20, and below that the size of the plaintext buffer is
negative.
-/

namespace SteamStream.Control

open Wire CText Crypto

/-! ### OpenSSL -/

/-- The calls made for one packet, in order. -/
inductive EvpCall
  | initCipher | setPadding | setIvLen | initKey | reinit | update | setTag | final
  deriving DecidableEq, Repr

/-- OpenSSL's answers while one packet is handled. -/
structure Evp where
  /-- What each call returns, 1 for success. -/
  status : EvpCall → ℤ
  /-- What `EVP_DecryptUpdate` writes, from the key, the initialisation vector and the
  ciphertext. -/
  update : Bytes → Bytes → Bytes → Bytes
  length_update : ∀ key iv ciphertext, (update key iv ciphertext).length = ciphertext.length

/-- A cipher whose keystream is zero. -/
def Evp.passThrough (status : EvpCall → ℤ) : Evp where
  status := status
  update _ _ ciphertext := ciphertext
  length_update _ _ _ := rfl

variable (evp : Evp)

/-- `handle_openssl_error`: the error is printed. -/
def handleOpensslError (msg : String) : Action Unit := .emit (.print msg)

/-- A call whose failure is reported. -/
def checked (call : EvpCall) (msg : String) : Action Unit :=
  if evp.status call ≠ 1 then handleOpensslError msg else pure ()

/-- `aes::init`, for decryption. -/
def aesInit : Action Unit := do
  checked evp .initCipher "EVP_DecryptInit_ex failed"
  checked evp .setPadding "EVP_CIPHER_CTX_set_padding failed"

/-- A view into a packet: its first position and its size. -/
structure View where
  off : ℕ
  size : ℕ
  deriving DecidableEq, Repr

/-- `aes::decrypt_authenticated`. The plaintext lives in an array of `(int)` the ciphertext's
length; a negative length has no meaning. -/
def decryptAuthenticated (key iv : Bytes) (pkt : Buffer) (ciphertext : View) (tag : Field) :
    Action Bytes := do
  let cipherLength := toInt32 ciphertext.size
  if cipherLength < 0 then .fault .undefined else
    checked evp .reinit "EVP_DecryptInit_ex failed"
    checked evp .update "EVP_DecryptUpdate failed"
    let plaintext := evp.update key iv (pkt.load ⟨ciphertext.off, cipherLength.toNat⟩)
    .emit (.access (.load pkt.bytes tag))
    checked evp .setTag "EVP_CTRL_GCM_SET_TAG failed"
    checked evp .final "EVP_DecryptFinal_ex failed"
    pure plaintext

/-- `crypto::aes_decrypt_gcm` with the length of the initialisation vector given. -/
def aesDecryptGcm (key iv : Bytes) (pkt : Buffer) (msg : View) (tag : Field) :
    Action Bytes := do
  aesInit evp
  checked evp .setIvLen "EVP_CTRL_GCM_SET_IVLEN failed"
  checked evp .initKey "EVP_DecryptInit_ex (2) failed"
  decryptAuthenticated evp key iv pkt msg tag

/-! ### The packet -/

/-- The length field of a packet. -/
def lengthField (pkt : Buffer) : ℕ := ofLE (pkt.load ControlPacket.length)

/-- The size of the ciphertext, `len - GCM_TAG_SIZE - sizeof(seq)` in `size_t`. -/
def viewSize (len : ℕ) : ℕ := (len + (2 ^ 64 - gcmTagSize - 4)) % 2 ^ 64

/-- `encrypted_msg`. -/
def encryptedMsg (pkt : Buffer) : Action View := do
  let len ← pkt.loadLE ControlPacket.length
  .emit (.access (.view pkt.bytes ControlEncryptedPacket.payload (viewSize len)
    (len - gcmTagSize - 4 : ℤ)))
  pure ⟨ControlEncryptedPacket.payload, viewSize len⟩

/-- The initialisation vector of a packet: its first byte is the low byte of the sequence
number. -/
def packetIv (pkt : Buffer) : Bytes :=
  UInt8.ofNat (ofLE (pkt.load ControlEncryptedPacket.seq)) :: List.replicate (gcmTagSize - 1) 0

/-- The key a session's `rikey` stands for. -/
def packetKey (gcmKeyHex : Bytes) : Bytes := hexToStr (cString gcmKeyHex) true

/-- `decrypt_packet`. The tag is passed as a C string, whose length is looked for although
nothing uses it. -/
def decryptPacket (pkt : Buffer) (gcmKeyHex : Bytes) : Action Bytes := do
  let _ ← pkt.loadLE ControlEncryptedPacket.seq
  let msg ← encryptedMsg pkt
  .emit (.access (.scan pkt.bytes ControlEncryptedPacket.gcmTag.off))
  aesDecryptGcm evp (packetKey gcmKeyHex) (packetIv pkt) pkt msg ControlEncryptedPacket.gcmTag

/-- The ciphertext of a packet whose length field covers tag and sequence number. -/
def ciphertextField (pkt : Buffer) : Field :=
  ⟨ControlEncryptedPacket.payload, lengthField pkt - 20⟩

/-- What OpenSSL writes for a packet before the tag is looked at. -/
def unauthenticatedPlaintext (pkt : Buffer) (gcmKeyHex : Bytes) : Bytes :=
  evp.update (packetKey gcmKeyHex) (packetIv pkt) (pkt.load (ciphertextField pkt))

@[simp]
theorem length_unauthenticatedPlaintext (pkt : Buffer) (gcmKeyHex : Bytes) :
    (unauthenticatedPlaintext evp pkt gcmKeyHex).length = lengthField pkt - 20 := by
  simp [unauthenticatedPlaintext, evp.length_update, ciphertextField]

/-! ### What comes back -/

variable {evp} {pkt : Buffer} {gcmKeyHex : Bytes} {P : Effect → Prop}

theorem lengthField_lt (pkt : Buffer) : lengthField pkt < 2 ^ 16 := by
  have h := ofLE_lt (pkt.load ControlPacket.length)
  rw [Buffer.length_load] at h
  exact h

theorem viewSize_of_le {len : ℕ} (h : 20 ≤ len) (hlt : len < 2 ^ 16) :
    viewSize len = len - 20 := by
  unfold viewSize gcmTagSize
  omega

theorem viewSize_of_lt {len : ℕ} (h : len < 20) : viewSize len = 2 ^ 64 - 20 + len := by
  unfold viewSize gcmTagSize
  omega

@[simp]
theorem result_checked {call : EvpCall} {msg : String} : (checked evp call msg).result = .ok () := by
  unfold checked
  split_ifs <;> rfl

/-- A reported failure is no access and no dispatch. -/
theorem all_checked {call : EvpCall} {msg : String} (hprint : ∀ msg, P (.print msg)) :
    (checked evp call msg).All P := by
  unfold checked
  split_ifs
  · exact Traced.all_emit.mpr (hprint msg)
  · exact Traced.all_pure

@[simp]
theorem result_aesInit : (aesInit evp).result = .ok () := by
  rw [aesInit, Traced.result_bind_ok result_checked, result_checked]

theorem all_aesInit (hprint : ∀ msg, P (.print msg)) : (aesInit evp).All P := by
  rw [aesInit, Traced.all_bind_ok result_checked]
  exact ⟨all_checked hprint, all_checked hprint⟩

theorem result_encryptedMsg :
    (encryptedMsg pkt).result =
      .ok ⟨ControlEncryptedPacket.payload, viewSize (lengthField pkt)⟩ := by
  rw [encryptedMsg, Traced.result_bind_ok (Buffer.result_loadLE ..),
    Traced.result_bind_ok Traced.result_emit, Traced.result_pure, lengthField]

theorem all_encryptedMsg :
    (encryptedMsg pkt).All P ↔
      P (.access (.load pkt.bytes ControlPacket.length)) ∧
        P (.access (.view pkt.bytes ControlEncryptedPacket.payload (viewSize (lengthField pkt))
          ((lengthField pkt : ℤ) - gcmTagSize - 4))) := by
  rw [encryptedMsg, Traced.all_bind_ok (Buffer.result_loadLE ..),
    Traced.all_bind_ok Traced.result_emit, Buffer.all_loadLE, Traced.all_emit,
    iff_true_intro Traced.all_pure, and_true, lengthField]

/-- Decryption of a view whose size fits an `int` returns what OpenSSL wrote, whatever it
answered. -/
theorem result_decryptAuthenticated_of_nonneg {key iv : Bytes} {off size : ℕ} {tag : Field}
    (h : size < 2 ^ 31) :
    (decryptAuthenticated evp key iv pkt ⟨off, size⟩ tag).result =
      .ok (evp.update key iv (pkt.load ⟨off, size⟩)) := by
  have hint : toInt32 size = size := by unfold toInt32; omega
  rw [decryptAuthenticated]
  dsimp only
  rw [hint, if_neg (by omega), Int.toNat_natCast]
  simp only [Traced.result_bind_ok result_checked, Traced.result_bind_ok Traced.result_emit,
    Traced.result_pure]

/-- The accesses of such a decryption: the tag. -/
theorem all_decryptAuthenticated_of_nonneg {key iv : Bytes} {off size : ℕ} {tag : Field}
    (h : size < 2 ^ 31) (hprint : ∀ msg, P (.print msg)) :
    (decryptAuthenticated evp key iv pkt ⟨off, size⟩ tag).All P ↔
      P (.access (.load pkt.bytes tag)) := by
  have hint : toInt32 size = size := by unfold toInt32; omega
  rw [decryptAuthenticated]
  dsimp only
  rw [hint, if_neg (by omega)]
  simp only [Traced.all_bind_ok result_checked, Traced.all_bind_ok Traced.result_emit,
    Traced.all_emit, all_checked hprint, Traced.all_pure, true_and, and_true]

/-- A size that wrapped around is negative as an `int`. -/
theorem decryptAuthenticated_of_wrapped {key iv : Bytes} {off len : ℕ} {tag : Field}
    (h : len < 20) :
    decryptAuthenticated evp key iv pkt ⟨off, viewSize len⟩ tag = .fault .undefined := by
  rw [decryptAuthenticated]
  dsimp only
  refine if_pos ?_
  rw [viewSize_of_lt h]
  unfold toInt32
  omega

/-- Everything before the decryption proper succeeds. -/
private theorem result_decryptPacket_eq :
    (decryptPacket evp pkt gcmKeyHex).result =
      (decryptAuthenticated evp (packetKey gcmKeyHex) (packetIv pkt) pkt
        ⟨ControlEncryptedPacket.payload, viewSize (lengthField pkt)⟩
        ControlEncryptedPacket.gcmTag).result := by
  rw [decryptPacket, Traced.result_bind_ok (Buffer.result_loadLE ..),
    Traced.result_bind_ok result_encryptedMsg, Traced.result_bind_ok Traced.result_emit,
    aesDecryptGcm, Traced.result_bind_ok result_aesInit, Traced.result_bind_ok result_checked,
    Traced.result_bind_ok result_checked]

/-- **What `decrypt_packet` returns** does not depend on any status of OpenSSL. -/
theorem decryptPacket_result (evp : Evp) (pkt : Buffer) (gcmKeyHex : Bytes) :
    (decryptPacket evp pkt gcmKeyHex).result =
      if 20 ≤ lengthField pkt then .ok (unauthenticatedPlaintext evp pkt gcmKeyHex)
      else .error .undefined := by
  have hlt := lengthField_lt pkt
  rw [result_decryptPacket_eq]
  split_ifs with h
  · have hsize : viewSize (lengthField pkt) < 2 ^ 31 := by
      rw [viewSize_of_le h hlt]
      omega
    rw [result_decryptAuthenticated_of_nonneg hsize, viewSize_of_le h hlt,
      unauthenticatedPlaintext, ciphertextField]
  · rw [decryptAuthenticated_of_wrapped (not_le.mp h), Traced.result_fault]

/-- What `decrypt_packet` reads. -/
theorem decryptPacket_all (hprint : ∀ msg, P (.print msg)) (evp : Evp) (pkt : Buffer)
    (gcmKeyHex : Bytes) :
    (decryptPacket evp pkt gcmKeyHex).All P ↔
      P (.access (.load pkt.bytes ControlEncryptedPacket.seq)) ∧
      P (.access (.load pkt.bytes ControlPacket.length)) ∧
      P (.access (.view pkt.bytes ControlEncryptedPacket.payload (viewSize (lengthField pkt))
        ((lengthField pkt : ℤ) - gcmTagSize - 4))) ∧
      P (.access (.scan pkt.bytes ControlEncryptedPacket.gcmTag.off)) ∧
      (20 ≤ lengthField pkt → P (.access (.load pkt.bytes ControlEncryptedPacket.gcmTag))) := by
  rw [decryptPacket, Traced.all_bind_ok (Buffer.result_loadLE ..), Buffer.all_loadLE,
    Traced.all_bind_ok result_encryptedMsg, all_encryptedMsg,
    Traced.all_bind_ok Traced.result_emit, Traced.all_emit, aesDecryptGcm,
    Traced.all_bind_ok result_aesInit, Traced.all_bind_ok result_checked,
    Traced.all_bind_ok result_checked]
  simp only [all_aesInit hprint, all_checked hprint, true_and, and_assoc]
  have hlt := lengthField_lt pkt
  refine and_congr_right fun _ => and_congr_right fun _ => and_congr_right fun _ =>
    and_congr_right fun _ => ?_
  by_cases h : 20 ≤ lengthField pkt
  · rw [viewSize_of_le h hlt, all_decryptAuthenticated_of_nonneg (by omega) hprint]
    exact ⟨fun htag _ => htag, fun htag => htag h⟩
  · rw [decryptAuthenticated_of_wrapped (by omega)]
    exact iff_of_true Traced.all_fault fun hge => absurd hge h

end SteamStream.Control
