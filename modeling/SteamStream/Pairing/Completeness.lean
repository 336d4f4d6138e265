import Mathlib.Data.Bool.AllAny
import Mathlib.Logic.Equiv.Basic
import SteamStream.Pairing.Client
import SteamStream.Pairing.Safety

/-!
# Whoever follows the phases gets paired

A client that follows the four phases, and whose user enters the PIN, is paired after sixteen
steps of its own, whatever other clients do in between (`jointSystem_pairs`).

Two things carry the proof. `Progress` says where the pairing stands after a number of own
steps; it depends on the client's own cache entry, task, thread and PIN only. `Apart` says that
every other task and thread belongs to someone else, so that it cannot touch these: the cache
key of another address is another key (`cacheKey_ne`), and its PIN has another secret.
-/

namespace SteamStream.Pairing

open Wire CText Crypto Rest Runs State

/-! ### What is assumed -/

section Assumptions

variable {Cert : Type}

/-- Decryption inverts encryption on whole blocks, and a digest has 64 digits. -/
structure PairCrypto.Lawful (crypto : PairCrypto Cert) : Prop where
  aesDecryptEcb_aesEncryptEcb : ∀ plain key, key.length = 16 → 16 ∣ plain.length →
    crypto.aesDecryptEcb (crypto.aesEncryptEcb plain key) key = plain
  length_sha256 : ∀ s, (crypto.sha256 s).length = 64
  isConvertable_sha256 : ∀ s, ∀ c ∈ crypto.sha256 s, isConvertable c = true

/-- The private key belongs to the certificate: `verify` accepts what `sign` makes of the
secret. -/
structure Client.HasKeyPair (client : Client Cert) (crypto : PairCrypto Cert) : Prop where
  readPem : crypto.readPem (cString client.certPem) = some client.cert
  verify_sign : crypto.verify client.clientSecret
    (crypto.sign client.clientSecret client.privateKey) (crypto.certPublicKey client.cert) = true
  length_sign : (crypto.sign client.clientSecret client.privateKey).length = 256

end Assumptions

/-! ### The handshake both sides arrive at -/

section Handshake

variable {Cert : Type} (crypto : PairCrypto Cert) (server : ServerIdentity)
variable (client : Client Cert) (draw : PairPhase → PairRandom)

/-- The hash of phase 3. -/
def Client.clientHash : Bytes :=
  digest crypto ((draw .clientChallenge).serverChallenge ++ crypto.certSignature client.cert ++
    client.clientSecret)

/-- The cache entry after a phase. -/
def Client.entry : PairPhase → Option PairCache
  | .none | .clientPairingSecret => none
  | .getServerCert => some {
      clientCert := client.certPem
      aesKey := client.aesKey crypto
      lastPhase := .getServerCert }
  | .clientChallenge => some {
      clientCert := client.certPem
      aesKey := client.aesKey crypto
      lastPhase := .clientChallenge
      serverSecret := some (draw .clientChallenge).serverSecret
      serverChallenge := some (draw .clientChallenge).serverChallenge }
  | .serverChallengeResp => some {
      clientCert := client.certPem
      aesKey := client.aesKey crypto
      lastPhase := .serverChallengeResp
      serverSecret := some (draw .clientChallenge).serverSecret
      serverChallenge := some (draw .clientChallenge).serverChallenge
      clientHash := some (client.clientHash crypto draw) }

/-- The request of a phase. -/
def Client.message : PairPhase → Query
  | .none => []
  | .getServerCert => client.sendCert
  | .clientChallenge => client.sendChallenge crypto
  | .serverChallengeResp => client.sendHash crypto (draw .clientChallenge).serverChallenge
  | .clientPairingSecret => client.sendSecret crypto

/-- The reply to a phase. -/
def Client.answer : PairPhase → Reply
  | .none => { statusCode := 0, xml := [] }
  | .getServerCert =>
    { statusCode := 200, xml := pairedXml "plaincert" (Crypto.strToHex server.certPem) }
  | .clientChallenge =>
    { statusCode := 200
      xml := sendServerChallenge crypto (client.aesKey crypto)
        (client.strToHex (crypto.aesEncryptEcb client.clientChallenge (client.aesKey crypto)))
        server.certSignature (draw .clientChallenge).serverSecret
        (draw .clientChallenge).serverChallenge }
  | .serverChallengeResp =>
    { statusCode := 200
      xml := (getClientHash crypto (client.aesKey crypto) (draw .clientChallenge).serverSecret
        (client.strToHex
          (crypto.aesEncryptEcb (client.clientHash crypto draw) (client.aesKey crypto)))
        server.privateKey).1 }
  | .clientPairingSecret =>
    { statusCode := 200
      xml := [("paired", toDecimal 1), ("<xmlattr>.status_code", toDecimal 200)] }

/-- The thread phase 1 starts. -/
def Client.waiting : WaitingPin where
  key := client.cacheKey
  salt := client.strToHex client.salt
  clientCert := client.strToHex client.certPem
  secret := pinSecret draw

/-- The phase after the given one. -/
def PairPhase.next : PairPhase → PairPhase
  | .none => .getServerCert
  | .getServerCert => .clientChallenge
  | .clientChallenge => .serverChallengeResp
  | .serverChallengeResp | .clientPairingSecret => .clientPairingSecret

variable {crypto} {server} {client} {draw}

theorem length_digest (hcrypto : crypto.Lawful) (s : Bytes) : (digest crypto s).length = 32 := by
  have hcount : (crypto.sha256 s).countP isConvertable = 64 := by
    rw [List.countP_eq_length.mpr (hcrypto.isConvertable_sha256 s), hcrypto.length_sha256]
  rw [digest, length_hexToStr, hcount]

theorem length_aesKey (hcrypto : crypto.Lawful) : (client.aesKey crypto).length = 16 := by
  rw [Client.aesKey, List.length_take, length_digest hcrypto]
  rfl

/-- Both sides derive the same key. -/
theorem genAesKey_eq (hcrypto : crypto.Lawful) :
    genAesKey crypto (client.strToHex client.salt) client.pin = client.aesKey crypto := by
  simp only [genAesKey, client.hexToStr_strToHex, length_digest hcrypto]
  exact List.append_nil _

/-- The server reads what the client has encrypted. -/
theorem decrypt_hexToStr (hcrypto : crypto.Lawful) {plain : Bytes} (h : 16 ∣ plain.length) :
    crypto.aesDecryptEcb (hexToStr
      (client.strToHex (crypto.aesEncryptEcb plain (client.aesKey crypto))) true)
      (client.aesKey crypto) = plain := by
  rw [client.hexToStr_strToHex]
  exact hcrypto.aesDecryptEcb_aesEncryptEcb plain _ (length_aesKey hcrypto) h

/-- The client finds the challenge in the server's second reply. -/
theorem readChallenge_eq (hcrypto : crypto.Lawful) (s : Bytes) (rand : PairRandom) :
    client.readChallenge crypto (Crypto.strToHex (crypto.aesEncryptEcb
      (digest crypto s ++ rand.serverChallenge) (client.aesKey crypto))) =
      rand.serverChallenge := by
  have hlength : (digest crypto s ++ rand.serverChallenge).length = 48 := by
    rw [List.length_append, length_digest hcrypto, rand.length_serverChallenge]
  rw [Client.readChallenge, hexToStr_strToHex, hcrypto.aesDecryptEcb_aesEncryptEcb _ _
    (length_aesKey hcrypto) (by rw [hlength]; decide), ← length_digest hcrypto s,
    List.drop_left]

/-- Told that a phase has gone well, the client sends the next request. -/
theorem next_answer (hcrypto : crypto.Lawful) {phase : PairPhase}
    (hphase : phase ≠ .clientPairingSecret) (reply : Option Reply)
    (hreply : phase ≠ .none → reply = some (client.answer crypto server draw phase)) :
    client.next crypto phase reply =
      some (phase.next, client.message crypto draw phase.next) := by
  cases phase with
  | none => rfl
  | clientPairingSecret => exact absurd rfl hphase
  | getServerCert => rw [hreply (by decide)]; rfl
  | clientChallenge =>
    rw [hreply (by decide)]
    change some (PairPhase.serverChallengeResp, client.sendHash crypto
      (client.readChallenge crypto (Crypto.strToHex (crypto.aesEncryptEcb _ _)))) = _
    rw [readChallenge_eq hcrypto]
    rfl
  | serverChallengeResp => rw [hreply (by decide)]; rfl

/-! ### The server's part -/

/-- The parameters of a request, as the handler looks them up. -/
theorem getHeader_query {parameters : Query} {name : String} (hname : name ∈ pairParameters) :
    getHeader (client.query parameters) name =
      getHeader ((ascii "uniqueid", client.uniqueId) :: parameters) name := by
  have hother := client.getHeader_otherHeaders name hname
  rw [getHeader, Option.map_eq_none_iff] at hother
  rw [getHeader, getHeader, Client.query, List.find?_append, hother, Option.or_none]

theorem requestKey_query {parameters : Query} :
    requestKey (client.query parameters) client.ip.text = some client.cacheKey := by
  rw [requestKey, getHeader_query (by decide)]
  rfl

variable (crypto server client draw) in
/-- Phase 1 starts the thread. -/
theorem httpPair_message_one {request : ℕ} :
    httpPair crypto server (client.query (client.message crypto draw .getServerCert))
      client.ip.text (draw .getServerCert) request none =
      ([], [.registerPin (client.waiting draw) client.ip.text]) := by
  have hsalt : getHeader (client.query client.sendCert) "salt" =
      some (client.strToHex client.salt) := by
    rw [getHeader_query (by decide)]
    rfl
  have hcert : getHeader (client.query client.sendCert) "clientcert" =
      some (client.strToHex client.certPem) := by
    rw [getHeader_query (by decide)]
    rfl
  simp only [httpPair, Client.message, requestKey_query, hsalt, hcert]
  rfl

/-- The thread stores the entry of phase 1 and answers. -/
theorem completePhase1_waiting (hcrypto : crypto.Lawful) {cache : PairCache}
    (hcache : client.entry crypto draw .getServerCert = some cache) :
    completePhase1 crypto server { client.waiting draw with pin := some client.pin } client.pin =
      [.setPairCache client.cacheKey cache,
        .reply (client.answer crypto server draw .getServerCert)] := by
  obtain rfl := Option.some.inj hcache
  simp only [completePhase1, getServerCert, Client.waiting, client.hexToStr_strToHex,
    genAesKey_eq hcrypto]
  rfl

variable (server) in
/-- Phases 2 and 3 store the next entry and answer. -/
theorem httpPair_message_later (hcrypto : crypto.Lawful) {request : ℕ} {phase : PairPhase}
    {cache cache' : PairCache} (hcache : client.entry crypto draw phase = some cache)
    (hcache' : client.entry crypto draw phase.next = some cache') :
    ∃ events, httpPair crypto server (client.query (client.message crypto draw phase.next))
      client.ip.text (draw phase.next) request (some cache) =
      (events, [.setPairCache client.cacheKey cache',
        .reply (client.answer crypto server draw phase.next)]) := by
  cases phase with
  | none => cases hcache
  | clientPairingSecret => cases hcache
  | serverChallengeResp => cases hcache'
  | getServerCert =>
    obtain rfl := Option.some.inj hcache
    obtain rfl := Option.some.inj hcache'
    refine ⟨[.phase2 client.cacheKey (draw .clientChallenge).serverChallenge], ?_⟩
    simp only [httpPair, Client.message, PairPhase.next, requestKey_query]
    rw [getHeader_query (by decide)]
    rfl
  | clientChallenge =>
    obtain rfl := Option.some.inj hcache
    obtain rfl := Option.some.inj hcache'
    have hhash : 16 ∣ (client.clientHash crypto draw).length := by
      rw [Client.clientHash, length_digest hcrypto]
      decide
    have hget : getClientHash crypto (client.aesKey crypto) (draw .clientChallenge).serverSecret
        (client.strToHex (crypto.aesEncryptEcb (client.clientHash crypto draw)
          (client.aesKey crypto))) server.privateKey =
        ((client.answer crypto server draw .serverChallengeResp).xml,
          client.clientHash crypto draw) :=
      Prod.ext rfl (decrypt_hexToStr hcrypto hhash)
    refine ⟨[.phase3 client.cacheKey (client.strToHex (crypto.aesEncryptEcb
      (client.clientHash crypto draw) (client.aesKey crypto)))], ?_⟩
    simp only [httpPair, Client.message, PairPhase.next, requestKey_query]
    rw [getHeader_query (by decide : "salt" ∈ pairParameters)]
    simp only [pairLaterPhase]
    rw [getHeader_query (by decide : "clientchallenge" ∈ pairParameters)]
    change pairPhase3 crypto server client.cacheKey (client.strToHex (crypto.aesEncryptEcb
      (client.clientHash crypto draw) (client.aesKey crypto))) _ _ = _
    rw [pairPhase3, if_neg (not_not_intro rfl), hget]
    rfl

variable (server) in
/-- Phase 4 pairs the client. -/
theorem httpPair_message_four (hclient : client.HasKeyPair crypto) {request : ℕ}
    {cache : PairCache}
    (hcache : client.entry crypto draw .serverChallengeResp = some cache) :
    ∃ events, httpPair crypto server
      (client.query (client.message crypto draw .clientPairingSecret)) client.ip.text
      (draw .clientPairingSecret) request (some cache) =
      (events, completePhase4 client.cacheKey request client.certPem) := by
  obtain rfl := Option.some.inj hcache
  -- the sixteen bytes of the secret stand in front of the signature
  have hsecret : hexToStr (client.strToHex (client.clientSecret ++
      crypto.sign client.clientSecret client.privateKey)) true =
      client.clientSecret ++ crypto.sign client.clientSecret client.privateKey :=
    client.hexToStr_strToHex _
  have htake : (client.clientSecret ++ crypto.sign client.clientSecret client.privateKey).take 16 =
      client.clientSecret := by
    rw [← client.length_clientSecret, List.take_left]
  have hdrop : ((client.clientSecret ++
      crypto.sign client.clientSecret client.privateKey).drop 16).take digestSize =
      crypto.sign client.clientSecret client.privateKey := by
    rw [← client.length_clientSecret, List.drop_left, digestSize, ← hclient.length_sign,
      List.take_length]
  have hpaired : (clientPair crypto (draw .clientChallenge).serverChallenge
      (client.clientHash crypto draw) (client.strToHex (client.clientSecret ++
        crypto.sign client.clientSecret client.privateKey))
      (crypto.certSignature client.cert) (crypto.certPublicKey client.cert)).1 = true := by
    rw [clientPair_fst_eq_true_iff, hsecret, htake, hdrop]
    refine ⟨?_, rfl, hclient.verify_sign⟩
    rw [List.length_append, hclient.length_sign]
    exact Nat.le_add_left _ _
  refine ⟨[.phase4 client.cacheKey request (client.strToHex (client.clientSecret ++
    crypto.sign client.clientSecret client.privateKey))], ?_⟩
  simp only [httpPair, Client.message, requestKey_query]
  rw [getHeader_query (by decide : "salt" ∈ pairParameters)]
  simp only [pairLaterPhase]
  rw [getHeader_query (by decide : "clientchallenge" ∈ pairParameters),
    getHeader_query (by decide : "serverchallengeresp" ∈ pairParameters)]
  exact pairPhase4_of_paired crypto rfl hclient.readPem hpaired

end Handshake

/-! ### All but one -/

section AllBut

variable {α : Type} {P : α → Prop} {own : Option ℕ} {i : ℕ} {x : α} {xs : List α}

/-- Every entry of the list meets `P`, the one at `own` apart. -/
def AllBut (own : Option ℕ) (P : α → Prop) (xs : List α) : Prop :=
  ∀ i x, xs[i]? = some x → own = some i ∨ P x

theorem AllBut.append (h : AllBut own P xs) (hx : own = some xs.length ∨ P x) :
    AllBut own P (xs ++ [x]) := by
  intro i y hy
  rw [List.getElem?_append] at hy
  split_ifs at hy with hlt
  · exact h i y hy
  · obtain ⟨hindex, rfl⟩ := List.getElem?_eq_some_iff.mp hy
    have hi : i = xs.length := by
      rw [List.length_singleton] at hindex
      omega
    simpa [hi] using hx

/-- A new entry may be the one. -/
theorem AllBut.append_own (h : AllBut none P xs) : AllBut (some xs.length) P (xs ++ [x]) :=
  AllBut.append (fun i y hy => .inr ((h i y hy).resolve_left nofun)) (.inl rfl)

theorem AllBut.set (h : AllBut own P xs) (hx : own = some i ∨ P x) : AllBut own P (xs.set i x) := by
  intro j y hy
  rw [List.getElem?_set] at hy
  split_ifs at hy with heq hlt
  · obtain rfl := Option.some.inj hy
    exact heq ▸ hx
  · exact h j y hy

/-- The one entry may come to meet `P` too. -/
theorem AllBut.release (h : AllBut (some i) P xs) (hx : P x) : AllBut none P (xs.set i x) := by
  intro j y hy
  rw [List.getElem?_set] at hy
  split_ifs at hy with heq hlt
  · obtain rfl := Option.some.inj hy
    exact .inr hx
  · exact .inr ((h j y hy).resolve_left fun hij => heq (Option.some.inj hij))

theorem AllBut.modify {f : α → α} (h : AllBut own P xs) (hf : ∀ x, P x → P (f x)) :
    AllBut own P (xs.modify i f) := by
  intro j y hy
  rw [List.getElem?_modify] at hy
  obtain ⟨x, hx, rfl⟩ := Option.map_eq_some_iff.mp hy
  refine (h j x hx).imp_right fun hPx => ?_
  split_ifs
  · exact hf x hPx
  · exact hPx

end AllBut

/-! ### What belongs to others -/

section Others

variable {Cert : Type} (crypto : PairCrypto Cert) (client : Client Cert)
variable (draw : PairPhase → PairRandom)

/-- The actions of other pairings. -/
def Foreign : PairAction → Prop
  | .setPairCache key _ | .removePairCache key => key ≠ client.cacheKey
  | .registerPin waiting clientIp =>
    waiting.key ≠ client.cacheKey ∧ waiting.secret ≠ pinSecret draw ∧ clientIp ≠ client.ip.text
  | .dropPin secret => secret ≠ pinSecret draw
  | .removePairedClient _ => False
  | .addPairedClient _ _ _ | .reply _ => True

/-- All tasks and threads but those of the pairing at hand belong to others, or have finished. -/
structure Apart (st : PairState) (pc : PairingPc) : Prop where
  tasks : AllBut pc.task (fun actions => ∀ action ∈ actions, Foreign client draw action) st.tasks
  waiting : AllBut pc.thread
    (fun w => w.done = true ∨ w.key ≠ client.cacheKey ∧ w.secret ≠ pinSecret draw) st.waiting

/-- The certificate is stored: in memory, and in its file unless another one that has been paired
in the run goes by the same name. -/
structure Client.IsStored (st : PairState) : Prop where
  mem : client.certPem ∈ st.store.pairedClients
  file : (∀ key request c, .paired key request c ∈ st.log →
      clientFile crypto.stdHash c = clientFile crypto.stdHash client.certPem →
        c = client.certPem) →
    st.store.dir.lookup (clientFile crypto.stdHash client.certPem) = some client.certPem

/-- What a step of someone else leaves as it is. -/
structure Keeps (pc : PairingPc) (st st' : PairState) : Prop where
  cache : st'.pairingCache client.cacheKey = st.pairingCache client.cacheKey
  pending : ∀ p, p.clientIp = client.ip.text → st.pendingPins (pinSecret draw) = some p →
    st'.pendingPins (pinSecret draw) = some p
  task : ∀ task actions, pc.task = some task → st.tasks[task]? = some actions →
    st'.tasks[task]? = some actions
  thread : ∀ thread w, pc.thread = some thread → w.secret = pinSecret draw →
    st.waiting[thread]? = some w → st'.waiting[thread]? = some w
  stored : client.IsStored crypto st → client.IsStored crypto st'

variable {crypto client draw}

/-- The address stands behind the last `@`. -/
theorem takeWhile_cacheKey (clientId : Bytes) (ip : ClientIp) :
    (cacheKey clientId ip.text).reverse.takeWhile (· ≠ 64) = ip.text.reverse := by
  have hnot : ∀ c ∈ ip.text.reverse, (decide (c ≠ 64)) = true := by
    intro c hc
    rw [decide_eq_true_eq]
    rintro rfl
    exact ip.at_notMem (List.mem_reverse.mp hc)
  have hreverse : (cacheKey clientId ip.text).reverse =
      ip.text.reverse ++ 64 :: clientId.reverse := by
    simp only [cacheKey, List.reverse_append]
    rfl
  rw [hreverse, List.takeWhile_append_of_pos hnot]
  exact List.append_nil _

/-- So no two addresses share a cache key. -/
theorem cacheKey_ne {clientId : Bytes} {ip : ClientIp} (h : ip.text ≠ client.ip.text) :
    cacheKey clientId ip.text ≠ client.cacheKey := by
  intro hkey
  have hlast := takeWhile_cacheKey clientId ip
  rw [hkey, Client.cacheKey, takeWhile_cacheKey] at hlast
  exact h (List.reverse_injective hlast.symm)

theorem strToHex_injective : Function.Injective Crypto.strToHex :=
  Function.LeftInverse.injective (g := fun s => hexToStr s true) hexToStr_strToHex

/-- A handler of another address acts on entries of its own. -/
theorem foreign_httpPair {server : ServerIdentity} {headers : Query} {ip : ClientIp}
    {rand : PairRandom} {request : ℕ} {cached : Option PairCache}
    (hip : ip.text ≠ client.ip.text)
    (hsecret : rand.pinSecret ≠ (draw .getServerCert).pinSecret) :
    ∀ action ∈ (httpPair crypto server headers ip.text rand request cached).2,
      Foreign client draw action := by
  have hforeign : ∀ key, requestKey headers ip.text = some key → key ≠ client.cacheKey := by
    intro key hkey
    obtain ⟨clientId, -, rfl⟩ := Option.map_eq_some_iff.mp hkey
    exact cacheKey_ne hip
  have hpin : Crypto.strToHex rand.pinSecret ≠ pinSecret draw :=
    fun h => hsecret (strToHex_injective h)
  unfold httpPair
  split
  · simp [Foreign]
  · rename_i key hkey
    have hne := hforeign key hkey
    unfold pairPhase1 pairLaterPhase pairPhase2 pairPhase3 pairPhase4 refuse
    repeat' split
    all_goals simp [Foreign, hne, hpin, hip]

/-! ### Steps of others -/

variable {st st' : PairState} {pc : PairingPc}

/-- A step that leaves the store and the pairings of the log leaves what is stored. -/
theorem Client.IsStored.mono (h : client.IsStored crypto st) (hstore : st'.store = st.store)
    (hlog : st.log <+: st'.log) : client.IsStored crypto st' where
  mem := hstore ▸ h.mem
  file hname := by
    rw [hstore]
    exact h.file fun key request c hpaired => hname key request c (hlog.subset hpaired)

/-- Adding a certificate leaves the ones that are stored. -/
theorem Client.IsStored.add (h : client.IsStored crypto st) (task : ℕ) (key : Bytes) (request : ℕ)
    (clientCert : Bytes) : client.IsStored crypto
      (st.perform crypto task (.addPairedClient key request clientCert)) where
  mem := List.mem_append_left _ h.mem
  file hname := by
    simp only [PairState.perform, ClientStore.addPairedClient, addOps,
      lookup_perform_writeFile isPem_clientFile] at hname ⊢
    split_ifs with hfile
    · rw [hname key request clientCert (List.mem_append_right _ (List.mem_singleton_self _))
        hfile.symm]
    · exact h.file fun key request c hpaired => hname key request c (List.mem_append_left _ hpaired)

/-- The certificate is stored once it is added. -/
theorem Client.isStored_add (task : ℕ) (key : Bytes) (request : ℕ) : client.IsStored crypto
    (st.perform crypto task (.addPairedClient key request client.certPem)) where
  mem := List.mem_append_right _ (List.mem_singleton_self _)
  file _ := by
    simp only [PairState.perform, ClientStore.addPairedClient, addOps,
      lookup_perform_writeFile isPem_clientFile, if_true]

theorem Keeps.refl : Keeps crypto client draw pc st st :=
  ⟨rfl, fun _ _ h => h, fun _ _ _ h => h, fun _ _ _ _ h => h, id⟩

theorem Keeps.trans {st'' : PairState} (h : Keeps crypto client draw pc st st')
    (h' : Keeps crypto client draw pc st' st'') : Keeps crypto client draw pc st st'' where
  cache := h'.cache.trans h.cache
  pending p hip hp := h'.pending p hip (h.pending p hip hp)
  task task actions hpc htask := h'.task task actions hpc (h.task task actions hpc htask)
  thread thread w hpc hw hthread := h'.thread thread w hpc hw (h.thread thread w hpc hw hthread)
  stored := h'.stored ∘ h.stored

/-- A task that starts. -/
theorem Keeps.startTask {actions : List PairAction} {log : List PairEvent}
    (hlog : st.log <+: log) :
    Keeps crypto client draw pc st { st with tasks := st.tasks ++ [actions], log := log } where
  cache := rfl
  pending _ _ h := h
  task task actions _ htask := by
    rw [List.getElem?_append_left (List.getElem?_eq_some_iff.mp htask).1, htask]
  thread _ _ _ _ h := h
  stored h := h.mono rfl hlog

/-- A thread that finishes, and is not the one waited for. -/
theorem Keeps.setDone {thread : ℕ} {w : WaitingPin} (hthread : pc.thread ≠ some thread) :
    Keeps crypto client draw pc st { st with waiting := st.waiting.set thread w } where
  cache := rfl
  pending _ _ h := h
  task _ _ _ h := h
  thread own v hown _ hv := by
    have hne : thread ≠ own := fun heq => hthread (heq ▸ hown)
    rw [List.getElem?_set_ne hne, hv]
  stored h := h.mono rfl (List.prefix_refl _)

/-- An action of someone else. -/
theorem Keeps.perform {task : ℕ} {action : PairAction} (h : Foreign client draw action) :
    Keeps crypto client draw pc st (st.perform crypto task action) := by
  have hkeep : Keeps crypto client draw pc st st := .refl
  cases action with
  | setPairCache key cache =>
    exact ⟨if_neg (Ne.symm h), hkeep.pending, hkeep.task, hkeep.thread,
      fun h => h.mono rfl (List.prefix_refl _)⟩
  | removePairCache key =>
    exact ⟨if_neg (Ne.symm h), hkeep.pending, hkeep.task, hkeep.thread,
      fun h => h.mono rfl (List.prefix_refl _)⟩
  | addPairedClient key request clientCert =>
    exact ⟨rfl, hkeep.pending, hkeep.task, hkeep.thread,
      fun h => h.add task key request clientCert⟩
  | removePairedClient clientCert => exact h.elim
  | dropPin secret =>
    refine ⟨rfl, fun p _ hp => ?_, hkeep.task, hkeep.thread,
      fun h => h.mono rfl (List.prefix_refl _)⟩
    exact (if_neg (Ne.symm h)).trans hp
  | reply reply =>
    exact ⟨rfl, hkeep.pending, hkeep.task, hkeep.thread,
      fun h => h.mono rfl (List.prefix_refl _)⟩
  | registerPin waiting clientIp =>
    obtain ⟨-, hsecret, hip⟩ := h
    refine ⟨rfl, fun p hp hpending => ?_, hkeep.task, fun thread w _ _ hw => ?_,
      fun h => h.mono rfl (List.prefix_append ..)⟩
    · -- only the requests of its own address are displaced
      have hstays : p.clientIp ≠ clientIp := fun heq => hip (heq.symm.trans hp)
      simp only [PairState.perform, if_neg (Ne.symm hsecret), hpending, Option.filter_some,
        hstays, decide_true, if_true, ne_eq, not_false_eq_true]
    · rw [PairState.perform, List.getElem?_append_left (List.getElem?_eq_some_iff.mp hw).1, hw]

/-- A PIN for another secret goes to another thread. -/
theorem Keeps.postPin (hinv : PairInv crypto st) {secret pin : Bytes} {p : PendingPin}
    (hsecret : secret ≠ pinSecret draw) (hp : st.pendingPins secret = some p)
    {log : List PairEvent} (hlog : st.log <+: log) :
    Keeps crypto client draw pc st { st with
      waiting := st.waiting.modify p.thread fun w => { w with pin := some pin }
      pendingPins := fun s => if s = secret then none else st.pendingPins s
      log := log } where
  cache := rfl
  pending _ _ h := (if_neg (Ne.symm hsecret)).trans h
  task _ _ _ h := h
  thread own w _ hw hown := by
    obtain ⟨w', hw', hws⟩ := hinv.pending secret p hp
    have hne : p.thread ≠ own := by
      rintro rfl
      rw [hw'] at hown
      exact hsecret (hws.symm.trans ((Option.some.inj hown) ▸ hw))
    exact (List.getElem?_modify_ne _ _ hne).trans hown
  stored h := h.mono rfl hlog

/-- An action of someone else leaves everything with others that was with others. -/
theorem Apart.perform (h : Apart client draw st pc) {task : ℕ} {action : PairAction}
    (hforeign : Foreign client draw action) :
    Apart client draw (st.perform crypto task action) pc where
  tasks := by
    rw [tasks_perform]
    exact h.tasks
  waiting := by
    cases action with
    | registerPin waiting clientIp =>
      exact h.waiting.append (.inr (.inr ⟨hforeign.1, hforeign.2.1⟩))
    | _ => exact h.waiting

/-- Of two tasks only one is taken on. -/
theorem Keeps.popTask {task : ℕ} {rest : List PairAction} (hothers : pc.task ≠ some task) :
    Keeps crypto client draw pc st { st with tasks := st.tasks.set task rest } where
  cache := rfl
  pending _ _ h := h
  task own actions hown hactions := by
    have hne : task ≠ own := fun heq => hothers (heq ▸ hown)
    rw [List.getElem?_set_ne hne, hactions]
  thread _ _ _ _ h := h
  stored h := h.mono rfl (List.prefix_refl _)

/-- A thread that still waits, and is not the one waited for. -/
private theorem foreign_of_waiting (hapart : Apart client draw st pc) {thread : ℕ} {w : WaitingPin}
    (hothers : pc.thread ≠ some thread) (hw : st.waiting[thread]? = some w)
    (hdone : w.done = false) : w.key ≠ client.cacheKey ∧ w.secret ≠ pinSecret draw := by
  rcases (hapart.waiting thread w hw).resolve_left hothers with hdone' | hother
  · rw [hdone] at hdone'
    cases hdone'
  · exact hother

/-- **A step of someone else** changes nothing the pairing relies on, and starts nothing but
tasks and threads of others. -/
theorem othersStep_keeps {server : ServerIdentity} {step : PairStep}
    (hapart : Apart client draw st pc) (hinv : PairInv crypto st)
    (hothers : OthersStep client draw pc step)
    (hstep : pairStep crypto server st step = some st') :
    Keeps crypto client draw pc st st' ∧ Apart client draw st' pc := by
  cases step with
  | request headers clientIp rand =>
    obtain ⟨hip, hsecret⟩ := hothers
    obtain rfl := Option.some.inj hstep
    exact ⟨.startTask (List.prefix_append ..),
      hapart.tasks.append (.inr (foreign_httpPair hip hsecret)), hapart.waiting⟩
  | unpair headers clientIp => exact hothers.elim
  | act task =>
    obtain ⟨action, rest, htask, rfl⟩ := pairStep_act_iff.mp hstep
    have hforeign : ∀ a ∈ action :: rest, Foreign client draw a :=
      (hapart.tasks task _ htask).resolve_left hothers
    obtain ⟨haction, hrest⟩ := List.forall_mem_cons.mp hforeign
    have hpop : Apart client draw { st with tasks := st.tasks.set task rest } pc :=
      ⟨hapart.tasks.set (.inr hrest), hapart.waiting⟩
    exact ⟨(Keeps.popTask hothers).trans (.perform haction), hpop.perform haction⟩
  | postPin secret pin =>
    simp only [pairStep] at hstep
    split at hstep
    · obtain rfl := Option.some.inj hstep
      exact ⟨.refl, hapart⟩
    · rename_i p hp
      obtain rfl := Option.some.inj hstep
      exact ⟨.postPin hinv hothers hp (List.prefix_append ..), hapart.tasks,
        hapart.waiting.modify fun w hw => hw⟩
  | pinReady thread =>
    obtain ⟨w, pin, hw, hdone, -, rfl⟩ := pairStep_pinReady_iff.mp hstep
    have hother := foreign_of_waiting hapart hothers hw hdone
    refine ⟨(Keeps.setDone hothers).trans (.startTask (List.prefix_refl _)), ?_, ?_⟩
    · refine hapart.tasks.append (.inr ?_)
      simp [completePhase1, Foreign, hother.1]
    · exact hapart.waiting.set (.inr (.inl rfl))
  | pinTimeout thread =>
    obtain ⟨w, hw, hdone, -, rfl⟩ := pairStep_pinTimeout_iff.mp hstep
    have hother := foreign_of_waiting hapart hothers hw hdone
    refine ⟨(Keeps.setDone hothers).trans (.startTask (List.prefix_refl _)), ?_, ?_⟩
    · refine hapart.tasks.append (.inr ?_)
      simp [timeoutPhase1, Foreign, hother.2]
    · exact hapart.waiting.set (.inr (.inl rfl))

end Others

/-! ### How far a pairing has got -/

/-- The steps a pairing has taken when a phase has been answered. -/
def PairPhase.ownSteps : PairPhase → ℕ
  | .none => 0
  | .getServerCert => 6
  | .clientChallenge => 9
  | .serverChallengeResp => 12
  | .clientPairingSecret => 16

section Progress

variable {Cert : Type} (crypto : PairCrypto Cert) (server : ServerIdentity)
variable (client : Client Cert) (draw : PairPhase → PairRandom)

/-- Where a pairing stands after a number of its own steps. -/
inductive Progress (st : PairState) : ℕ → PairingPc → Prop
  | answered (phase : PairPhase) (reply : Option Reply) (hphase : phase ≠ .clientPairingSecret)
    (hreply : phase ≠ .none → reply = some (client.answer crypto server draw phase))
    (hcache : st.pairingCache client.cacheKey = client.entry crypto draw phase) :
    Progress st phase.ownSteps (.answered phase reply)
  | registering (task : ℕ)
    (htask : st.tasks[task]? = some [.registerPin (client.waiting draw) client.ip.text]) :
    Progress st 1 (.handled .getServerCert task none)
  | typing (thread : ℕ) (hwaiting : st.waiting[thread]? = some (client.waiting draw))
    (hpending : st.pendingPins (pinSecret draw) = some ⟨thread, client.ip.text⟩) :
    Progress st 2 (.typing thread)
  | typed (thread : ℕ)
    (hwaiting : st.waiting[thread]? =
      some { client.waiting draw with pin := some client.pin }) :
    Progress st 3 (.typed thread)
  | storing (phase : PairPhase) (task n : ℕ) (cache : PairCache)
    (hentry : client.entry crypto draw phase = some cache) (hn : n + 2 = phase.ownSteps)
    (htask : st.tasks[task]? = some [.setPairCache client.cacheKey cache,
      .reply (client.answer crypto server draw phase)]) :
    Progress st n (.handled phase task none)
  | replying (phase : PairPhase) (task n : ℕ) (cache : PairCache)
    (hentry : client.entry crypto draw phase = some cache) (hn : n + 1 = phase.ownSteps)
    (htask : st.tasks[task]? = some [.reply (client.answer crypto server draw phase)])
    (hcache : st.pairingCache client.cacheKey = some cache) :
    Progress st n (.handled phase task none)
  | pairing (task : ℕ)
    (htask : st.tasks[task]? = some (completePhase4 client.cacheKey task client.certPem)) :
    Progress st 13 (.handled .clientPairingSecret task none)
  | adding (task : ℕ)
    (htask : st.tasks[task]? = some [.addPairedClient client.cacheKey task client.certPem,
      .removePairCache client.cacheKey]) :
    Progress st 14 (.handled .clientPairingSecret task
      (some (client.answer crypto server draw .clientPairingSecret)))
  | removing (task : ℕ) (htask : st.tasks[task]? = some [.removePairCache client.cacheKey])
    (hstored : client.IsStored crypto st) :
    Progress st 15 (.handled .clientPairingSecret task
      (some (client.answer crypto server draw .clientPairingSecret)))
  | paired (hstored : client.IsStored crypto st) :
    Progress st 16 (.answered .clientPairingSecret
      (some (client.answer crypto server draw .clientPairingSecret)))

variable {crypto server client draw} {st st' : PairState} {pc pc' : PairingPc} {n : ℕ}

/-- Steps of others do not set a pairing back. -/
theorem Progress.keep (h : Progress crypto server client draw st n pc)
    (hkeep : Keeps crypto client draw pc st st') : Progress crypto server client draw st' n pc := by
  cases h with
  | answered phase reply hphase hreply hcache =>
    exact .answered phase reply hphase hreply (hkeep.cache.trans hcache)
  | registering task htask => exact .registering task (hkeep.task task _ rfl htask)
  | typing thread hwaiting hpending =>
    exact .typing thread (hkeep.thread thread _ rfl rfl hwaiting) (hkeep.pending _ rfl hpending)
  | typed thread hwaiting => exact .typed thread (hkeep.thread thread _ rfl rfl hwaiting)
  | storing phase task n cache hentry hn htask =>
    exact .storing phase task n cache hentry hn (hkeep.task task _ rfl htask)
  | replying phase task n cache hentry hn htask hcache =>
    exact .replying phase task n cache hentry hn (hkeep.task task _ rfl htask)
      (hkeep.cache.trans hcache)
  | pairing task htask => exact .pairing task (hkeep.task task _ rfl htask)
  | adding task htask => exact .adding task (hkeep.task task _ rfl htask)
  | removing task htask hstored =>
    exact .removing task (hkeep.task task _ rfl htask) (hkeep.stored hstored)
  | paired hstored => exact .paired (hkeep.stored hstored)

/-- The next action of the task the pairing waits for. -/
theorem ownStep_handled {phase : PairPhase} {task : ℕ} {reply : Option Reply}
    {action : PairAction} {rest : List PairAction}
    (htask : st.tasks[task]? = some (action :: rest)) :
    ownStep crypto server client draw st (.handled phase task reply) =
      some ({ st with tasks := st.tasks.set task rest }.perform crypto task action,
        .afterAction phase task st.waiting.length reply (action :: rest)) := by
  have hact : pairStep crypto server st (.act task) = some _ :=
    pairStep_act_iff.mpr ⟨action, rest, htask, rfl⟩
  simp only [ownStep, htask, hact, Option.bind_some, Option.map_some]

/-- The next request. -/
theorem ownStep_answered {phase : PairPhase} {reply : Option Reply} {cached : Option PairCache}
    {events : List PairEvent} {actions : List PairAction}
    (hcache : st.pairingCache client.cacheKey = cached) (hnext : client.next crypto phase reply =
      some (phase.next, client.message crypto draw phase.next))
    (hpair : httpPair crypto server (client.query (client.message crypto draw phase.next))
      client.ip.text (draw phase.next) st.tasks.length cached = (events, actions)) :
    ownStep crypto server client draw st (.answered phase reply) =
      some ({ st with tasks := st.tasks ++ [actions], log := st.log ++ events },
        .handled phase.next st.tasks.length none) := by
  have hkey : (requestKey (client.query (client.message crypto draw phase.next))
      client.ip.text).bind st.pairingCache = cached := by
    rw [requestKey_query, Option.bind_some, hcache]
  rw [← hkey] at hpair
  have hrequest : pairStep crypto server st (.request
      (client.query (client.message crypto draw phase.next)) client.ip (draw phase.next)) =
      some _ := pairStep_request hpair
  simp only [ownStep, hnext, hrequest, Option.bind_some, Option.map_some]

/-- The own steps that take an action of a task leave the rest with others. -/
theorem Apart.ownAction {phase : PairPhase} {task : ℕ} {reply : Option Reply}
    {action : PairAction} {rest : List PairAction}
    (h : Apart client draw st (.handled phase task reply)) (hthread : pc'.thread = none)
    (htask : pc'.task = some task ∨ pc'.task = none ∧ rest = [])
    (haction : ∀ w ip, action ≠ .registerPin w ip) :
    Apart client draw ({ st with tasks := st.tasks.set task rest }.perform crypto task action)
      pc' where
  tasks := by
    rw [tasks_perform]
    rcases htask with htask | ⟨htask, rfl⟩
    · rw [htask]
      exact h.tasks.set (.inl rfl)
    · rw [htask]
      exact h.tasks.release (List.forall_mem_nil _)
  waiting := by
    rw [hthread]
    cases action with
    | registerPin w ip => exact absurd rfl (haction w ip)
    | _ => exact h.waiting

/-- **An own step** is possible until the client is paired, and takes the pairing on. -/
theorem ownStep_progress (hcrypto : crypto.Lawful) (hclient : client.HasKeyPair crypto)
    (h : Progress crypto server client draw st n pc) (hapart : Apart client draw st pc)
    (hn : n < 16) :
    ∃ st' pc', ownStep crypto server client draw st pc = some (st', pc') ∧
      Progress crypto server client draw st' (n + 1) pc' ∧ Apart client draw st' pc' := by
  cases h with
  | answered phase reply hphase hreply hcache =>
    have hnext := next_answer hcrypto hphase reply hreply
    have hstart : ∀ actions : List PairAction, ∀ log : List PairEvent,
        Apart client draw { st with tasks := st.tasks ++ [actions], log := log }
          (.handled phase.next st.tasks.length none) := fun actions log =>
      ⟨hapart.tasks.append_own, hapart.waiting⟩
    cases phase with
    | none =>
      exact ⟨_, _, ownStep_answered hcache hnext (httpPair_message_one crypto server client draw),
        .registering _ List.getElem?_concat_length, hstart _ _⟩
    | getServerCert =>
      have hentry : client.entry crypto draw .getServerCert = some _ := rfl
      obtain ⟨events, hpair⟩ := httpPair_message_later server hcrypto hentry rfl
      exact ⟨_, _, ownStep_answered hcache hnext hpair,
        .storing _ _ 7 _ rfl rfl List.getElem?_concat_length, hstart _ _⟩
    | clientChallenge =>
      have hentry : client.entry crypto draw .clientChallenge = some _ := rfl
      obtain ⟨events, hpair⟩ := httpPair_message_later server hcrypto hentry rfl
      exact ⟨_, _, ownStep_answered hcache hnext hpair,
        .storing _ _ 10 _ rfl rfl List.getElem?_concat_length, hstart _ _⟩
    | serverChallengeResp =>
      have hentry : client.entry crypto draw .serverChallengeResp = some _ := rfl
      obtain ⟨events, hpair⟩ := httpPair_message_four server hclient hentry
      exact ⟨_, _, ownStep_answered hcache hnext hpair,
        .pairing _ List.getElem?_concat_length, hstart _ _⟩
    | clientPairingSecret => exact absurd rfl hphase
  | registering task htask =>
    have hlt := (List.getElem?_eq_some_iff.mp htask).1
    refine ⟨_, _, ownStep_handled htask, .typing _ List.getElem?_concat_length (if_pos rfl), ?_, ?_⟩
    · rw [tasks_perform]
      exact hapart.tasks.release (List.forall_mem_nil _)
    · exact hapart.waiting.append_own
  | typing thread hwaiting hpending =>
    have hpost : ownStep crypto server client draw st (.typing thread) = some (_, .typed thread) :=
      congrArg (Option.map fun st' => (st', PairingPc.typed thread)) (pairStep_postPin hpending)
    refine ⟨_, _, hpost, .typed thread ?_, hapart.tasks, hapart.waiting.modify fun w hw => hw⟩
    rw [List.getElem?_modify, hwaiting]
    exact congrArg some (if_pos rfl)
  | typed thread hwaiting =>
    have hready : pairStep crypto server st (.pinReady thread) = some _ :=
      pairStep_pinReady_iff.mpr ⟨_, _, hwaiting, rfl, rfl, rfl⟩
    rw [completePhase1_waiting hcrypto rfl] at hready
    have hown : ownStep crypto server client draw st (.typed thread) =
        some (_, .handled .getServerCert st.tasks.length none) :=
      congrArg (Option.map fun st' => (st', PairingPc.handled .getServerCert st.tasks.length none))
        hready
    exact ⟨_, _, hown, .storing .getServerCert _ 4 _ rfl rfl List.getElem?_concat_length,
      hapart.tasks.append_own, hapart.waiting.release (.inl rfl)⟩
  | storing phase task n cache hentry hn htask =>
    have hlt := (List.getElem?_eq_some_iff.mp htask).1
    exact ⟨_, _, ownStep_handled htask,
      .replying phase task _ cache hentry hn (List.getElem?_set_self hlt) (if_pos rfl),
      hapart.ownAction rfl (.inl rfl) nofun⟩
  | replying phase task n cache hentry hn htask hcache =>
    have hphase : phase ≠ .clientPairingSecret := by
      rintro rfl
      cases hentry
    refine ⟨_, _, ownStep_handled htask, ?_, hapart.ownAction rfl (.inr ⟨rfl, rfl⟩) nofun⟩
    rw [hn]
    exact .answered phase _ hphase (fun _ => rfl) (hcache.trans hentry.symm)
  | pairing task htask =>
    have hlt := (List.getElem?_eq_some_iff.mp htask).1
    exact ⟨_, _, ownStep_handled htask, .adding task (List.getElem?_set_self hlt),
      hapart.ownAction rfl (.inl rfl) nofun⟩
  | adding task htask =>
    have hlt := (List.getElem?_eq_some_iff.mp htask).1
    exact ⟨_, _, ownStep_handled htask,
      .removing task (List.getElem?_set_self hlt) (client.isStored_add ..),
      hapart.ownAction rfl (.inl rfl) nofun⟩
  | removing task htask hstored =>
    exact ⟨_, _, ownStep_handled htask, .paired (hstored.mono rfl (List.prefix_refl _)),
      hapart.ownAction rfl (.inr ⟨rfl, rfl⟩) nofun⟩
  | paired hstored => exact absurd hn (lt_irrefl _)

end Progress

/-! ### Runs -/

section Runs

variable {Cert : Type} {crypto : PairCrypto Cert} {server : ServerIdentity}
variable {client : Client Cert} {draw : PairPhase → PairRandom}

/-- A step of the pairing at hand. -/
def JointStep.isOwn : JointStep → Bool
  | .own => true
  | .others _ => false

/-- A pairing has sixteen steps. -/
theorem Progress.lt_or_paired {st : PairState} {n : ℕ} {pc : PairingPc}
    (h : Progress crypto server client draw st n pc) :
    n < 16 ∨ n = 16 ∧ client.IsStored crypto st ∧
      pc = .answered .clientPairingSecret
        (some (client.answer crypto server draw .clientPairingSecret)) := by
  cases h with
  | answered phase reply hphase hreply hcache =>
    cases phase with
    | clientPairingSecret => exact absurd rfl hphase
    | _ => exact .inl (by decide)
  | storing phase task n cache hentry hn htask =>
    cases phase <;> simp only [PairPhase.ownSteps] at hn <;> exact .inl (by omega)
  | replying phase task n cache hentry hn htask hcache =>
    cases phase <;> simp only [PairPhase.ownSteps] at hn <;> exact .inl (by omega)
  | paired hstored => exact .inr ⟨rfl, hstored, rfl⟩
  | _ => exact .inl (by decide)

/-- An own step is a step of the server. -/
private theorem pairInv_ownStep {st st' : PairState} {pc pc' : PairingPc}
    (h : PairInv crypto st) (hstep : ownStep crypto server client draw st pc = some (st', pc')) :
    PairInv crypto st' := by
  cases pc with
  | answered phase reply =>
    obtain ⟨next, -, hnext⟩ := Option.bind_eq_some_iff.mp hstep
    obtain ⟨t, ht, heq⟩ := Option.map_eq_some_iff.mp hnext
    obtain ⟨rfl, -⟩ := Prod.mk.inj heq
    exact pairInv_step h ht
  | handled phase task reply =>
    obtain ⟨actions, -, hact⟩ := Option.bind_eq_some_iff.mp hstep
    obtain ⟨t, ht, heq⟩ := Option.map_eq_some_iff.mp hact
    obtain ⟨rfl, -⟩ := Prod.mk.inj heq
    exact pairInv_step h ht
  | typing thread =>
    obtain ⟨t, ht, heq⟩ := Option.map_eq_some_iff.mp hstep
    obtain ⟨rfl, -⟩ := Prod.mk.inj heq
    exact pairInv_step h ht
  | typed thread =>
    obtain ⟨t, ht, heq⟩ := Option.map_eq_some_iff.mp hstep
    obtain ⟨rfl, -⟩ := Prod.mk.inj heq
    exact pairInv_step h ht

/-- What holds of the joint system after a number of own steps. -/
private def JointInv (crypto : PairCrypto Cert) (server : ServerIdentity) (client : Client Cert)
    (draw : PairPhase → PairRandom) (n : ℕ) (s : PairState × PairingPc) : Prop :=
  Progress crypto server client draw s.1 n s.2 ∧ Apart client draw s.1 s.2 ∧ PairInv crypto s.1

private theorem jointInv_step (hcrypto : crypto.Lawful) (hclient : client.HasKeyPair crypto)
    {n : ℕ} {s s' : PairState × PairingPc} {step : JointStep}
    (h : JointInv crypto server client draw n s)
    (hstep : jointStep crypto server client draw s step = some s') :
    JointInv crypto server client draw (n + if step.isOwn then 1 else 0) s' := by
  obtain ⟨hprogress, hapart, hinv⟩ := h
  cases step with
  | own =>
    rcases hprogress.lt_or_paired with hn | ⟨-, -, hpc⟩
    · obtain ⟨st', pc', hown, hprogress', hapart'⟩ :=
        ownStep_progress hcrypto hclient hprogress hapart hn
      have hinv' := pairInv_ownStep hinv hown
      obtain rfl := Option.some.inj (hown.symm.trans hstep)
      exact ⟨hprogress', hapart', hinv'⟩
    · -- a client that is paired has nothing left to do
      simp only [jointStep, hpc] at hstep
      cases hstep
  | others step =>
    simp only [jointStep] at hstep
    split_ifs at hstep with hothers
    obtain ⟨st', hpair, rfl⟩ := Option.map_eq_some_iff.mp hstep
    obtain ⟨hkeep, hapart'⟩ := othersStep_keeps hapart hinv hothers hpair
    exact ⟨hprogress.keep hkeep, hapart', pairInv_step hinv hpair⟩

private theorem jointInv_init (store : ClientStore) :
    JointInv crypto server client draw 0 (jointSystem crypto server client draw store).init := by
  refine ⟨.answered .none none (by decide) (fun h => absurd rfl h) rfl, ⟨?_, ?_⟩, ?_⟩
  · intro i actions h
    cases h
  · intro i w h
    cases h
  · exact (pairInv_isInvariant crypto server store).init

/-- **Pairing completeness.** Whatever comes between: until sixteen own steps are taken the next
one is possible, and after them the client has been told `paired = 1` and its certificate is
stored. -/
theorem jointSystem_pairs (hcrypto : crypto.Lawful) (hclient : client.HasKeyPair crypto)
    {store : ClientStore} {steps : List JointStep} {st : PairState} {pc : PairingPc}
    (hrun : (jointSystem crypto server client draw store).run
      (jointSystem crypto server client draw store).init steps = some (st, pc)) :
    (steps.countP JointStep.isOwn < 16 ∧
        (jointStep crypto server client draw (st, pc) .own).isSome) ∨
      (steps.countP JointStep.isOwn = 16 ∧
        (∃ reply : Reply, pc = .answered .clientPairingSecret (some reply) ∧
          reply.statusCode = 200 ∧ ("paired", toDecimal 1) ∈ reply.xml) ∧
        client.IsStored crypto st) := by
  have hinv := System.run_countP (S := jointSystem crypto server client draw store)
    (jointInv_step hcrypto hclient) (jointInv_init store) hrun
  rw [Nat.zero_add] at hinv
  obtain ⟨hprogress, hapart, -⟩ := hinv
  rcases hprogress.lt_or_paired with hn | ⟨hn, hstored, hpc⟩
  · obtain ⟨st', pc', hown, -⟩ := ownStep_progress hcrypto hclient hprogress hapart hn
    exact .inl ⟨hn, Option.isSome_iff_exists.mpr ⟨_, hown⟩⟩
  · exact .inr ⟨hn, ⟨_, hpc, rfl, List.mem_cons_self ..⟩, hstored⟩

end Runs

/-! ### A captured handshake -/

section Captured

/-- The salt. -/
def capturedSalt : Bytes := beBytes 16 0xa0c288cfb0ea624ec3e5cc54d6ab7e38

/-- What the server has drawn, as its secret and as its challenge. -/
def capturedServerSecret : Bytes := beBytes 16 0xab7d178785415c893a6757c1b736105a

/-- The challenge of the client. -/
def capturedChallenge : Bytes := beBytes 16 0x5e152b9621185139a9697bd5fb9669fa

/-- The hash in the server's second reply. -/
def capturedServerHash : Bytes :=
  beBytes 32 0x8e5cba4114a0e0df52fb075204da534fc642bbf96f9c4c7d4efe34ed2d0e84d4

/-- The hash of phase 3. -/
def capturedClientHash : Bytes :=
  beBytes 32 0x3875fff759355205355efe5d3065cd776a06a806caae0cefaef22475d593cea4

/-- The certificate of the client. -/
def capturedCert : Bytes :=
  ["-----BEGIN CERTIFICATE-----\n",
    "MIICvzCCAaegAwIBAgIBADANBgkqhkiG9w0BAQsFADAjMSEwHwYDVQQDDBhOVklE\n",
    "SUEgR2FtZVN0cmVhbSBDbGllbnQwHhcNMjEwNzEwMDgzNjE3WhcNNDEwNzA1MDgz\n",
    "NjE3WjAjMSEwHwYDVQQDDBhOVklESUEgR2FtZVN0cmVhbSBDbGllbnQwggEiMA0G\n",
    "CSqGSIb3DQEBAQUAA4IBDwAwggEKAoIBAQC1c49oJxPkIGjUNSwEpNuvNZB/hRoe\n",
    "DZPMe3gZ1abOSJFyK3VbQNSOVK6qEfBrHqQgNVMtXZVS5XDfDRW9E37QcAl5Apex\n",
    "/NAG2fNHYAvO6P6Gj+/m0XBWcVREzjGCdKJI+9ToNeB6dQtKw26LvlIbHfprBZ+1\n",
    "QPr3DuUuTCIdxacJrSoUyqakswGr82j3+Dt3dU0LWCquVeeOMhMVN+EFzjFbDJbz\n",
    "+sNLTM2E7HeKNeIr/0oFhyA2b5Kb4vd+z1GfW38o85gDU8ni6FOmEaFTi3TdZ1yR\n",
    "RxdKKd9k+myCNHLiyBA9K4Q2JYuUkYxZzsZrKVH7LWfH79qaMvj87iEnAgMBAAEw\n",
    "DQYJKoZIhvcNAQELBQADggEBADVm005jqiFEGuH6JfTKRcZU3PMmFrEmJTmvPiyh\n",
    "a4b75jai0hLRCzNDu6bSzlXH346YK/x7AVkSZIoD2hTpujVlHIHLoSJzkrmMxIFR\n",
    "sZRjh0EGaAmvDuEXADUE0MGpoWLUQumiDWwuSbEzPyr7BID68A3Q6jKwd65D2+ut\n",
    "snLzlErTl5fgHkLWV6plelcMgPSo4T+E7APm4LHlP5uxiixAfnhDlzuAeD5r1rsD\n",
    "UkrNfMfXnRzPSwXiNYHZ+UoQuchoMCSAa+kcsQ+zsdPwAJ3stwQGcfpvYhdZv1a1\n",
    "oPJpyCigkmv0uH4CeJ09A/6Da2uY+HIwVq85qteMVSUTtV0=\n",
    "-----END CERTIFICATE-----\n"].flatMap ascii

/-- The public key in it. -/
def capturedPublicKey : Bytes :=
  ["-----BEGIN PUBLIC KEY-----\n",
    "MIIBIjANBgkqhkiG9w0BAQEFAAOCAQ8AMIIBCgKCAQEAtXOPaCcT5CBo1DUsBKTb\n",
    "rzWQf4UaHg2TzHt4GdWmzkiRcit1W0DUjlSuqhHwax6kIDVTLV2VUuVw3w0VvRN+\n",
    "0HAJeQKXsfzQBtnzR2ALzuj+ho/v5tFwVnFURM4xgnSiSPvU6DXgenULSsNui75S\n",
    "Gx36awWftUD69w7lLkwiHcWnCa0qFMqmpLMBq/No9/g7d3VNC1gqrlXnjjITFTfh\n",
    "Bc4xWwyW8/rDS0zNhOx3ijXiK/9KBYcgNm+Sm+L3fs9Rn1t/KPOYA1PJ4uhTphGh\n",
    "U4t03WdckUcXSinfZPpsgjRy4sgQPSuENiWLlJGMWc7GaylR+y1nx+/amjL4/O4h\n",
    "JwIDAQAB\n",
    "-----END PUBLIC KEY-----\n"].flatMap ascii

/-- The signature in it. -/
def capturedCertSignature : Bytes :=
  [0x3566d34e63aa21441ae1fa25f4ca45c654dcf32616b1262539af3e2ca16b86fb,
    0xe636a2d212d10b3343bba6d2ce55c7df8e982bfc7b015912648a03da14e9ba35,
    0x651c81cba1227392b98cc48151b194638741066809af0ee117003504d0c1a9a1,
    0x62d442e9a20d6c2e49b1333f2afb0480faf00dd0ea32b077ae43dbebadb272f3,
    0x944ad39797e01e42d657aa657a570c80f4a8e13f84ec03e6e0b1e53f9bb18a2c,
    0x407e7843973b80783e6bd6bb03524acd7cc7d79d1ccf4b05e23581d9f94a10b9,
    0xc8683024806be91cb10fb3b1d3f0009decb7040671fa6f621759bf56b5a0f269,
    0xc828a0926bf4b87e02789d3d03fe836b6b98f8723056af39aad78c552513b55d].flatMap (beBytes 32)

/-- The signature of the client's secret. -/
def capturedSignature : Bytes :=
  [0x507ccaef60a5a31acfc2b9bc64bb27e3cc467555bf81bc0464dc4b1488810d43,
    0x5266f31e22acd27507bce4a8173d1b4c5ea51f47d702a074e9cf95c6ff6cb7cf,
    0x85e1abf9d236c5e3b638601092adc6a993f77b0585100994cecec88e01023f7f,
    0x0ef13e8d66f5ba89608f1838c85d214b91a4be276d9ad555382a599b142b1e62,
    0xb571427dc30697342da9995bfc5362cc27f09a3cb3622eda9f6ccad3385e296e,
    0x5b9b296377523e0e41b5748d60ea96f2ebabb9c30c13e98cef420d87e266f72b,
    0xfc2e18cf584a03e6141e9dd4967dd77e4ce99b20f73e37caf801931babbc4ff7,
    0x5df4013b529651b97d7bfc228d2c13785c50e22071bc6ce1332ee777a009c630].flatMap (beBytes 32)

/-- The signature in the certificate of the server. -/
def capturedServerCertSignature : Bytes :=
  [0xa8f06acef0e397cf6964c965dc67bc452ec7783bb382872b84e713da39e4e1a8,
    0x3bfd344e66e2128c3a7af929cbde03c4b7b13639c1407334e0de5ff06d3e4f15,
    0xbeaf33deac68b9b810fd3398b7cad459cc24345a84abad3fdaf1e913b9387aac,
    0x501f9be230385b42fd5275d4a0b29b8e2839d350148b1d29e76141c6ef8727dd,
    0x2b1e52ecdd5a3a9e3e19fcf657af36b3f1db50fca24ca5dfe0ffdc65a3a04a02,
    0x7464e5223c28b84ee215bacc6d10039ea35f8c278756f076289daa9720cae2a8,
    0xb2c2ce3f16d2efce969ac7ac68058f9e9a18e8cf1a8a36be00bc0d36e5969b23,
    0x20f5254357beb1273337e94abb2a0dd02584e5634e1698f21d247902b5759ff6].flatMap (beBytes 32)

/-- The signature of the server's secret. -/
def capturedServerSignature : Bytes :=
  [0x9d9b953d2d5de21b5ca8483fff677223a2c5e625510e16c6aa28b05e58b3eadc,
    0x7d77ea32ee3684c41c735d4f42b2fe2b5a4498988caf01e1dfc42e801f19d8f8,
    0x417ca4efa3144e9972b948b451309f045e1c678330065d46e6c8260ad720663a,
    0xffc8df985d8e5ab4d74ccea266ed6a227c9f61bacf0968925a327368367eb5cf,
    0x9507d21b85a3ab9f782a6db927a013c6fd1c6201bfce480d29bdce706389ab4a,
    0x735b5115f1e42a19ffb735617dd7ef2b46558dacdf352f33564c663e84d130f3,
    0xfcbb81bc5cc125e3f772472f9a0350c10d6b9b5ecefe177514e8af496e1e210f,
    0xbc03571ddb222b3aa97e76be5a7d7731756cfe3b1202237d38433f789f87b3fa].flatMap (beBytes 32)

/-- The three messages, and what they are encrypted to. -/
def capturedBlocks : Equiv.Perm Bytes :=
  (Equiv.swap capturedChallenge (beBytes 16 0x60418ac415307d7a1f9695ba04e1ae34)).trans
    ((Equiv.swap (capturedServerHash ++ capturedServerSecret)
      (beBytes 32 0x2a86f54b35997eae9cc30d3f06e66d93178fb7892180fee2b4bbb8c68473bde1 ++
        beBytes 16 0x3401efe6604815200de9bea7d2215fc4)).trans
    (Equiv.swap capturedClientHash
      (beBytes 32 0x2798e4a56fa102558e8c93b892fbbe17b06b0cac91855ceb536ca2def53f7cf1)))

/-- The primitives, on the captured values. -/
def capturedCrypto : PairCrypto Bytes where
  sha256 s := List.map toLower <| Crypto.strToHex <|
    if s.take 16 = capturedSalt then
      beBytes 32 0x8a0191f59f31950d5de3396901aa585defe03095d2a8bc49c7a65ac7d690a0e6
    else if s.take 16 = capturedServerSecret then capturedClientHash
    else capturedServerHash
  aesEncryptEcb plain _ := capturedBlocks plain
  aesDecryptEcb cipher _ := capturedBlocks.symm cipher
  sign msg _ := if msg = capturedServerSecret then capturedServerSignature else capturedSignature
  verify _ signature _ := signature = capturedSignature
  readPem := some
  certSignature _ := capturedCertSignature
  certPublicKey _ := capturedPublicKey
  stdHash _ := 4135727842959053255

theorem capturedCrypto_lawful : capturedCrypto.Lawful where
  aesDecryptEcb_aesEncryptEcb plain key _ _ := capturedBlocks.symm_apply_apply plain
  length_sha256 s := by
    unfold capturedCrypto
    dsimp only
    split_ifs <;> decide +kernel
  isConvertable_sha256 s := by
    unfold capturedCrypto
    dsimp only
    rw [← List.all_iff_forall_prop]
    split_ifs <;> decide +kernel

/-- The client, whose user enters 7284. -/
def capturedClient : Client Bytes where
  uniqueId := ascii "moonlight"
  ip := ⟨ascii "192.168.1.21", by decide⟩
  salt := capturedSalt
  pin := ascii "7284"
  clientChallenge := capturedChallenge
  clientSecret := beBytes 16 0x3dda32b87413e98005d608df9c54323f
  privateKey := []
  certPem := capturedCert
  cert := capturedCert
  strToHex := Crypto.strToHex
  otherHeaders := []
  length_clientChallenge := by decide +kernel
  length_clientSecret := by decide +kernel
  hexToStr_strToHex := hexToStr_strToHex
  getHeader_otherHeaders _ _ := rfl

theorem capturedClient_hasKeyPair : capturedClient.HasKeyPair capturedCrypto where
  readPem := by decide +kernel
  verify_sign := by decide +kernel
  length_sign := by decide +kernel

/-- What the server draws. -/
def capturedDraw (_ : PairPhase) : PairRandom where
  pinSecret := List.replicate 8 4
  serverSecret := capturedServerSecret
  serverChallenge := capturedServerSecret
  length_pinSecret := rfl
  length_serverSecret := by decide +kernel
  length_serverChallenge := by decide +kernel

/-- Before the PIN is there, a client with the same id asks from another address. -/
def capturedSteps : List JointStep :=
  [.own, .own,
    .others (pairRequest [(ascii "salt", ascii "a0c2"), (ascii "clientcert", ascii "2d2d")]),
    .others (.act 1)] ++ List.replicate 14 .own

/-- The server, with the captured signature in its certificate. -/
def capturedSystem : System (PairState × PairingPc) JointStep :=
  jointSystem capturedCrypto ⟨[], capturedServerCertSignature, []⟩ capturedClient capturedDraw
    ⟨[], ∅⟩

private theorem isSome_run_captured :
    (capturedSystem.run capturedSystem.init capturedSteps).isSome = true := by
  decide +kernel

/-- Sixteen own steps, and the captured client is paired. -/
theorem jointSystem_pairs_captured :
    capturedCrypto.Lawful ∧ capturedClient.HasKeyPair capturedCrypto ∧
    ∃ st pc, capturedSystem.run capturedSystem.init capturedSteps = some (st, pc) ∧
      ((capturedSteps.countP JointStep.isOwn < 16 ∧
          (jointStep capturedCrypto ⟨[], capturedServerCertSignature, []⟩ capturedClient
            capturedDraw (st, pc) .own).isSome) ∨
        (capturedSteps.countP JointStep.isOwn = 16 ∧
          (∃ reply : Reply, pc = .answered .clientPairingSecret (some reply) ∧
            reply.statusCode = 200 ∧ ("paired", toDecimal 1) ∈ reply.xml) ∧
          capturedClient.IsStored capturedCrypto st)) := by
  obtain ⟨⟨st, pc⟩, hrun⟩ := Option.isSome_iff_exists.mp isSome_run_captured
  exact ⟨capturedCrypto_lawful, capturedClient_hasKeyPair, st, pc, hrun,
    jointSystem_pairs capturedCrypto_lawful capturedClient_hasKeyPair hrun⟩

example : capturedSteps.countP JointStep.isOwn = 16 := by decide

end Captured

end SteamStream.Pairing
