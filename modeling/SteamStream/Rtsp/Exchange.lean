import SteamStream.Library.Lines
import SteamStream.Rtsp.Commands
import SteamStream.Rtsp.NormalForm
import SteamStream.Rtsp.Receive
import SteamStream.Server.Isolation
import SteamStream.Server.Objects

/-!
# A request and what the client learns from it

`tcp_connection::start` answers one message: with an error if it is none, not at all if no session
is meant, and otherwise with what `message_handler` says. A client reads the answer by lines, as
`readAnswer` does: the status line, the headers up to the empty line, and the lines after it.

The server's own grammar cannot read all of these answers back; the keys `SETUP` hands out may have
any printable character in them. By lines they can be read whatever the session
(`readAnswer_toString`), because what is drawn for it has no line ends. So in every state of the
server a client learns what the session holds (`serve_understood`), and with the secret `SETUP` has
handed out it is let in later (`setup_connects`).
-/

namespace SteamStream.Rtsp

open Wire CText Session Rest Runs Server Control X509

/-! ### One message -/

/-- What comes of a message: the text that is sent, if any, and what a session has made of the
request. The connection is closed afterwards. -/
structure Served where
  reply : Option Bytes := none
  handled : Option (SessionRef × Handled) := none

/-- The session a request is about. -/
def sessionOf (reg : SessionRegistry) (peerIp : Bytes) (req : RtspPacket) : Option SessionRef :=
  reg.getForRtsp req.request.uri.ip ((req.options.find? (ascii "Host")).getD []) peerIp

/-- It is a registered one. -/
theorem sessionOf_lt {reg : SessionRegistry} {peerIp : Bytes} {req : RtspPacket}
    {sess : SessionRef} (h : sessionOf reg peerIp req = some sess) : sess < reg.objects.length := by
  rw [sessionOf, SessionRegistry.getForRtsp] at h
  exact reg.sessions_lt sess (SessionRegistry.find?_eq_some h).1

/-- What `tcp_connection::start` does with a message. -/
def serve (reg : SessionRegistry) (peerIp : Bytes) (parsed : Option RtspPacket) : Served :=
  match parsed with
  | none => { reply := some (toString (errorMsg 400 "BAD REQUEST" 0)) }
  | some req =>
    match sessionOf reg peerIp req with
    | none => {}
    | some sess =>
      let handled := messageHandler req (reg.object sess)
      { reply := some (toString handled.response), handled := some (sess, handled) }

/-! ### The client's side -/

/-- An answer, as a client has it. -/
structure Answer where
  statusCode : ℕ
  reason : Bytes
  headers : List (Bytes × Bytes)
  body : List Bytes
  deriving DecidableEq

namespace Answer

/-- A header by its name. -/
def header? (answer : Answer) (name : String) : Option Bytes := answer.headers.lookup (ascii name)

/-- The number of the request that is answered. -/
def cSeq? (answer : Answer) : Option ℤ := (answer.header? "CSeq").bind stoi

end Answer

/-- A header line: its name up to the colon, and its value after the blank behind that. -/
def readHeader (line : Bytes) : Bytes × Bytes :=
  (line.takeWhile (· ≠ 58), (line.dropWhile (· ≠ 58)).drop 2)

/-- The answer in a text; `none` if there is no status line. -/
def readAnswer (text : Bytes) : Option Answer :=
  match Lines.lines 13 10 text with
  | [] => none
  | status :: rest =>
    let code := status.drop 9
    some {
      statusCode := digitsValue (code.takeWhile isDigit)
      reason := (code.dropWhile isDigit).drop 1
      headers := (Lines.header rest).map readHeader
      body := Lines.body rest }

/-- The line of a payload. -/
def payloadText (pay : Bytes × Bytes) : Bytes :=
  if pay.1 = [] then pay.2 else pay.1 ++ ascii "=" ++ pay.2

/-- What an answer says. -/
def Answer.of (pkt : RtspPacket) : Answer where
  statusCode := pkt.response.statusCode.toNat
  reason := pkt.response.msg
  headers := (ascii "CSeq", printInt pkt.seqNumber) :: pkt.options.entries
  body := pkt.payloads.map payloadText

/-- A response that has no line ends and no colons where they would be misread. -/
structure Readable (pkt : RtspPacket) : Prop where
  type : pkt.type = .response
  reason : 13 ∉ pkt.response.msg
  options : ∀ opt ∈ pkt.options.entries, 13 ∉ opt.1 ∧ 58 ∉ opt.1 ∧ 13 ∉ opt.2
  payloads : ∀ pay ∈ pkt.payloads, 13 ∉ payloadText pay

/-- The status line. -/
def statusText (response : RtspResponse) : Bytes :=
  ascii "RTSP/1.0 " ++ toDecimal response.statusCode.toNat ++ ascii " " ++ response.msg

/-- The line of an option. -/
def optionText (opt : Bytes × Bytes) : Bytes := opt.1 ++ ascii ": " ++ opt.2

section Read

variable {pkt : RtspPacket}

/-- `to_string`, line by line. -/
theorem toString_eq_unlines (htype : pkt.type = .response) :
    toString pkt = Lines.unlines 13 10 (statusText pkt.response ::
        (((ascii "CSeq", printInt pkt.seqNumber) :: pkt.options.entries).map optionText ++
          [] :: pkt.payloads.map payloadText)) := by
  have hopts : ∀ (opts : List (Bytes × Bytes)) (rest : Bytes),
      opts.flatMap (fun opt => endl ++ opt.1 ++ ascii ": " ++ opt.2) ++ (endl ++ rest) =
        endl ++ (Lines.unlines 13 10 (opts.map optionText) ++ rest) := by
    intro opts
    induction opts with
    | nil => exact fun rest => rfl
    | cons opt opts ih =>
      intro rest
      rw [List.flatMap_cons, List.append_assoc, ih, List.map_cons, Lines.unlines_cons, optionText]
      simp only [List.append_assoc, List.cons_append, endl, List.nil_append]
  have hpays : pkt.payloads.flatMap printPayload =
      Lines.unlines 13 10 (pkt.payloads.map payloadText) := by
    rw [Lines.unlines, List.flatMap_map]
    refine List.flatMap_congr fun pay _ => ?_
    unfold printPayload payloadText
    split_ifs
    · rfl
    · simp only [List.append_assoc, endl]
  rw [toString, printHead, htype, hpays, statusText, List.map_cons, Lines.unlines_cons, List.cons_append,
    Lines.unlines_cons, Lines.unlines_append, Lines.unlines_cons, optionText]
  dsimp only
  have hmid := hopts pkt.options.entries
    (endl ++ Lines.unlines 13 10 (pkt.payloads.map payloadText))
  simp only [List.append_assoc] at hmid ⊢
  rw [hmid]
  rfl

/-- A header line is read as the option it was printed from. -/
theorem readHeader_optionText {opt : Bytes × Bytes} (h : 58 ∉ opt.1) :
    readHeader (optionText opt) = opt := by
  have hkey : ∀ c ∈ opt.1, decide (c ≠ 58) = true := fun c hc =>
    decide_eq_true (ne_of_mem_of_not_mem hc h)
  have hline : optionText opt = opt.1 ++ (58 :: 32 :: opt.2) := by
    rw [optionText, List.append_assoc]
    rfl
  rw [readHeader, hline, List.takeWhile_append_of_pos hkey, List.dropWhile_append_of_pos hkey]
  exact Prod.ext (List.append_nil _) rfl

theorem not_mem_toDecimal {n : ℕ} {c : UInt8} (h : isDigit c = false) : c ∉ toDecimal n :=
  fun hc => Bool.false_ne_true (h.symm.trans (isDigit_of_mem_toDecimal hc))

theorem not_mem_printInt {n : ℤ} : 13 ∉ printInt n := by
  rw [printInt, List.mem_append, not_or, sign]
  refine ⟨?_, not_mem_toDecimal (by decide)⟩
  split_ifs <;> decide

/-- The code of a status line and what follows it. -/
theorem span_statusText (response : RtspResponse) :
    ((statusText response).drop 9).takeWhile isDigit = toDecimal response.statusCode.toNat ∧
      ((statusText response).drop 9).dropWhile isDigit = 32 :: response.msg := by
  have hdigits : ∀ c ∈ toDecimal response.statusCode.toNat, isDigit c = true :=
    fun c hc => isDigit_of_mem_toDecimal hc
  have hdrop : (statusText response).drop 9 =
      toDecimal response.statusCode.toNat ++ (32 :: response.msg) := by
    simp only [statusText, List.append_assoc]
    exact List.drop_left' rfl
  rw [hdrop, List.takeWhile_append_of_pos hdigits, List.dropWhile_append_of_pos hdigits]
  exact ⟨List.append_nil _, rfl⟩

theorem optionText_ne_nil (opt : Bytes × Bytes) : optionText opt ≠ [] :=
  List.append_ne_nil_of_left_ne_nil (List.append_ne_nil_of_right_ne_nil _ (by decide)) _

/-- The options with the number of the request in front. -/
private theorem Readable.allOptions (h : Readable pkt) :
    ∀ opt ∈ (ascii "CSeq", printInt pkt.seqNumber) :: pkt.options.entries,
      13 ∉ opt.1 ∧ 58 ∉ opt.1 ∧ 13 ∉ opt.2 := by
  have hcSeq : 13 ∉ ascii "CSeq" ∧ 58 ∉ ascii "CSeq" := by decide
  exact List.forall_mem_cons.mpr ⟨⟨hcSeq.1, hcSeq.2, not_mem_printInt⟩, h.options⟩

/-- **An answer is read as it was meant.** -/
theorem readAnswer_toString (h : Readable pkt) : readAnswer (toString pkt) = some (.of pkt) := by
  have hopt := h.allOptions
  set opts := (ascii "CSeq", printInt pkt.seqNumber) :: pkt.options.entries with hopts
  have hstatus : 13 ∉ statusText pkt.response := by
    simp only [statusText, List.mem_append, not_or]
    exact ⟨⟨⟨by decide, not_mem_toDecimal (by decide)⟩, by decide⟩, h.reason⟩
  have hnonempty : ∀ l ∈ opts.map optionText, l ≠ [] := fun l hl => by
    obtain ⟨opt, -, rfl⟩ := List.mem_map.mp hl
    exact optionText_ne_nil opt
  have hlines : ∀ l ∈ statusText pkt.response ::
      (opts.map optionText ++ [] :: pkt.payloads.map payloadText), 13 ∉ l := by
    refine List.forall_mem_cons.mpr ⟨hstatus, List.forall_mem_append.mpr ⟨fun l hl => ?_,
      List.forall_mem_cons.mpr ⟨List.not_mem_nil, fun l hl => ?_⟩⟩⟩
    · obtain ⟨opt, hmem, rfl⟩ := List.mem_map.mp hl
      obtain ⟨hkey, -, hval⟩ := hopt opt hmem
      rw [optionText, List.mem_append, List.mem_append, not_or, not_or]
      exact ⟨⟨hkey, by decide⟩, hval⟩
    · obtain ⟨pay, hpay, rfl⟩ := List.mem_map.mp hl
      exact h.payloads pay hpay
  have hheaders : (opts.map optionText).map readHeader = opts := by
    rw [List.map_map]
    exact (List.map_congr_left fun opt hmem => readHeader_optionText (hopt opt hmem).2.1).trans
      (List.map_id opts)
  rw [readAnswer, toString_eq_unlines h.type, ← hopts, Lines.lines_unlines hlines]
  dsimp only
  rw [Lines.header_append hnonempty, Lines.body_append hnonempty, (span_statusText _).1,
    (span_statusText _).2, digitsValue_toDecimal, hheaders]
  rfl

end Read

/-! ### What the server answers -/

section Answers

variable {req : RtspPacket} {s : StreamSession}

theorem readable_errorMsg {code : UInt16} {msg : String} {seq : ℤ} (h : 13 ∉ ascii msg) :
    Readable (errorMsg code msg seq) where
  type := rfl
  reason := h
  options _ hopt := nomatch hopt
  payloads _ hpay := nomatch hpay

/-- Options without line ends, and without colons in their keys. -/
def ReadableOptions (options : SortedMap Bytes Bytes) : Prop :=
  ∀ opt ∈ options.entries, (13 ∉ opt.1 ∧ 58 ∉ opt.1) ∧ 13 ∉ opt.2

theorem readableOptions_empty : ReadableOptions ∅ := fun _ hopt => nomatch hopt

theorem ReadableOptions.insert {options : SortedMap Bytes Bytes} (h : ReadableOptions options)
    {key value : Bytes} (hkey : 13 ∉ key ∧ 58 ∉ key) (hvalue : 13 ∉ value) :
    ReadableOptions (options.insert key value) :=
  @SortedMap.forall_mem_insert _ _ _ _ _ options key value (fun k => 13 ∉ k ∧ 58 ∉ k)
    (fun v => 13 ∉ v) h hkey hvalue

/-- A success with readable options and payloads. -/
theorem readable_okMsg {seq : ℤ} {options : SortedMap Bytes Bytes}
    {payloads : List (Bytes × Bytes)} (hoptions : ReadableOptions options)
    (hpayloads : ∀ pay ∈ payloads, 13 ∉ payloadText pay) :
    Readable (okMsg seq options payloads) where
  type := rfl
  reason := show 13 ∉ ascii "OK" by decide
  options opt hopt := ⟨(hoptions opt hopt).1.1, (hoptions opt hopt).1.2, (hoptions opt hopt).2⟩
  payloads := hpayloads

theorem readable_describe : Readable (describe req s) := by
  refine readable_okMsg readableOptions_empty ?_
  cases s.hevcSupported <;> cases s.av1Supported <;> decide +kernel

/-- The options of a stream: a session name, a port and what the client is to send there. -/
private theorem readable_transport {seq : ℤ} {port : UInt16} {name : String} {value : Bytes}
    (hname : 13 ∉ ascii name ∧ 58 ∉ ascii name) (hvalue : 13 ∉ value) :
    Readable (okMsg seq (((SortedMap.insert ∅ (ascii "Session")
      (ascii "DEADBEEFCAFE;timeout = 90")).insert (ascii "Transport")
        (ascii "server_port=" ++ toDecimal port.toNat)).insert (ascii name) value)) := by
  have hport : 13 ∉ ascii "server_port=" ++ toDecimal port.toNat := by
    rw [List.mem_append, not_or]
    exact ⟨by decide, not_mem_toDecimal (by decide)⟩
  have hsession : ReadableOptions (SortedMap.insert ∅ (ascii "Session")
      (ascii "DEADBEEFCAFE;timeout = 90")) := readableOptions_empty.insert (by decide) (by decide)
  exact readable_okMsg ((hsession.insert (by decide) hport).insert hname hvalue)
    fun _ hpay => nomatch hpay

theorem readable_setup (hs : 13 ∉ s.rtpSecretPayload) : Readable (setup req s) := by
  unfold setup
  dsimp only
  split_ifs
  · exact readable_transport (by decide) hs
  · exact readable_transport (by decide) hs
  · exact readable_transport (by decide) (not_mem_toDecimal (by decide))
  · exact readable_errorMsg (by decide)

/-- Whatever is asked, the answer can be read by lines. -/
theorem readable_messageHandler (hs : 13 ∉ s.rtpSecretPayload) :
    Readable (messageHandler req s).response := by
  have hok : Readable (okMsg req.seqNumber) :=
    readable_okMsg readableOptions_empty fun _ hpay => nomatch hpay
  unfold messageHandler
  dsimp only
  split_ifs
  · exact hok
  · exact readable_describe
  · exact readable_setup hs
  · exact hok
  · exact hok
  · exact readable_errorMsg (by decide)

/-- An answer repeats the number of its request. -/
theorem seqNumber_messageHandler : (messageHandler req s).response.seqNumber = req.seqNumber := by
  unfold messageHandler setup
  dsimp only
  split_ifs <;> rfl

theorem header?_of {pkt : RtspPacket} {name : String} (h : ascii name ≠ ascii "CSeq") :
    (Answer.of pkt).header? name = pkt.options.find? (ascii name) := by
  rw [Answer.header?, Answer.of, List.lookup_cons, beq_false_of_ne h]
  exact SortedMap.lookup_entries pkt.options (ascii name)

theorem cSeq?_of {pkt : RtspPacket} (h : 0 ≤ pkt.seqNumber ∧ pkt.seqNumber < 2 ^ 31) :
    (Answer.of pkt).cSeq? = some pkt.seqNumber := by
  obtain ⟨n, hn⟩ := Int.eq_ofNat_of_zero_le h.1
  have hprint : printInt pkt.seqNumber = toDecimal n := by
    rw [hn]
    rfl
  rw [Answer.cSeq?, Answer.header?, Answer.of, List.lookup_cons_self, hprint, Option.bind_some,
    stoi_toDecimal (by omega), hn]

end Answers

/-! ### What a `SETUP` tells -/

namespace Answer

/-- The port of the stream, after `server_port=`. -/
def port? (answer : Answer) : Option ℕ := (answer.header? "Transport").bind fun v => stoul (v.drop 12)

/-- What the client is to send to the port of a media stream. -/
def pingPayload? (answer : Answer) : Option Bytes := answer.header? "X-SS-Ping-Payload"

/-- What it is to connect to the control server with. -/
def connectData? (answer : Answer) : Option ℕ := (answer.header? "X-SS-Connect-Data").bind stoul

end Answer

/-- A client has learned from its `SETUP` of a stream what it needs to use it. -/
structure Learned (answer : Answer) (type : Bytes) (s : StreamSession) : Prop where
  audio : type = ascii "audio" → answer.port? = some s.audioStreamPort.toNat ∧
    answer.pingPayload? = some s.rtpSecretPayload
  video : type = ascii "video" → answer.port? = some s.videoStreamPort.toNat ∧
    answer.pingPayload? = some s.rtpSecretPayload
  control : type = ascii "control" → answer.port? = some s.controlStreamPort.toNat ∧
    answer.connectData? = some s.enetSecretPayload.toNat

section Setup

variable {req : RtspPacket} {s : StreamSession}

theorem stoul_toDecimal {n : ℕ} (h : n < 2 ^ 64) : stoul (toDecimal n) = some n := by
  have hread : stoul (sign false ++ toDecimal n) = _ :=
    stoul_digits false (toDecimal_ne_nil n) (fun c hc => isDigit_of_mem_toDecimal hc)
      (by rwa [digitsValue_toDecimal])
  rw [digitsValue_toDecimal] at hread
  refine hread.trans (congrArg some ?_)
  rw [if_neg Bool.false_ne_true]
  omega

/-- The options a stream is answered with. -/
private theorem header?_transport {seq : ℤ} {port : UInt16} {name : String} {value : Bytes}
    (hcSeq : ascii name ≠ ascii "CSeq") (htransport : ascii "Transport" ≠ ascii name) :
    (Answer.of (okMsg seq (((SortedMap.insert ∅ (ascii "Session")
        (ascii "DEADBEEFCAFE;timeout = 90")).insert (ascii "Transport")
          (ascii "server_port=" ++ toDecimal port.toNat)).insert (ascii name) value))).header? name =
        some value ∧
      (Answer.of (okMsg seq (((SortedMap.insert ∅ (ascii "Session")
        (ascii "DEADBEEFCAFE;timeout = 90")).insert (ascii "Transport")
          (ascii "server_port=" ++ toDecimal port.toNat)).insert (ascii name) value))).port? =
        some port.toNat := by
  refine ⟨(header?_of hcSeq).trans (SortedMap.find?_insert_self ..), ?_⟩
  rw [Answer.port?, header?_of (by decide)]
  refine Eq.trans (congrArg (Option.bind · _) ((SortedMap.find?_insert_of_ne htransport _ _).trans
    (SortedMap.find?_insert_self ..))) ?_
  have hdrop : (ascii "server_port=" ++ toDecimal port.toNat).drop 12 = toDecimal port.toNat :=
    List.drop_left' rfl
  have hport := port.toNat_lt
  rw [Option.bind_some, hdrop, stoul_toDecimal (by omega)]

/-- The answer to a `SETUP` tells what the session holds. -/
theorem learned_setup : Learned (Answer.of (setup req s)) req.request.stream.type s := by
  have hvideo : ascii "video" ≠ ascii "audio" := by decide
  have hcontrol : ascii "control" ≠ ascii "audio" ∧ ascii "control" ≠ ascii "video" := by decide
  unfold setup
  dsimp only
  constructor
  · intro htype
    rw [if_pos htype]
    have h := @header?_transport req.seqNumber s.audioStreamPort "X-SS-Ping-Payload"
      s.rtpSecretPayload (by decide) (by decide)
    exact ⟨h.2, h.1⟩
  · intro htype
    rw [htype, if_neg hvideo, if_pos rfl]
    have h := @header?_transport req.seqNumber s.videoStreamPort "X-SS-Ping-Payload"
      s.rtpSecretPayload (by decide) (by decide)
    exact ⟨h.2, h.1⟩
  · intro htype
    rw [htype, if_neg hcontrol.1, if_neg hcontrol.2, if_pos rfl]
    have h := @header?_transport req.seqNumber s.controlStreamPort "X-SS-Connect-Data"
      (toDecimal s.enetSecretPayload.toNat) (by decide) (by decide)
    refine ⟨h.2, ?_⟩
    have hsecret := s.enetSecretPayload.toNat_lt
    rw [Answer.connectData?, h.1, Option.bind_some, stoul_toDecimal (by omega)]

end Setup

/-! ### In the server -/

section InServer

variable {Cert : Type} {ssl : OpenSSL Cert} {start : AppState} {st st' : ServerState}

/-- What has been drawn for a session has no line ends. -/
theorem printable_reachable (hst : (serverSystem ssl start.fresh).Reachable st) {sess : SessionRef}
    (hsess : sess < st.sessions.objects.length) :
    13 ∉ (st.sessions.object sess).rtpSecretPayload := by
  have hfixed : Fixed fun s : StreamSession => s.rtpSecretPayload := fun _ _ _ _ _ _ _ _ => rfl
  refine hfixed.reachable (P := fun secret => 13 ∉ secret) ?_ hst hsess
  intro state headers clientIp rand s hs
  unfold createLaunchSession at hs
  dsimp only at hs
  split at hs
  · cases hs
  · obtain rfl := Option.some.inj hs
    exact fun hmem => absurd (rand.printable 13 hmem).1 (by decide)

/-- A request whose session is found is answered so that the client reads what `message_handler`
says. -/
theorem reply_serve (hst : (serverSystem ssl start.fresh).Reachable st) {peerIp : Bytes}
    {req : RtspPacket} {sess : SessionRef} (hsess : sessionOf st.sessions peerIp req = some sess) :
    (serve st.sessions peerIp (some req)).reply.bind readAnswer =
      some (.of (messageHandler req (st.sessions.object sess)).response) := by
  have hlt := sessionOf_lt hsess
  rw [serve]
  dsimp only
  rw [hsess]
  exact readAnswer_toString (readable_messageHandler (printable_reachable hst hlt))

/-- **What a client reads.** In every state of the server, a text that is no message is answered
with an error, one for no session is not answered, and of every other one the client reads exactly
what `message_handler` has to say, under the number it gave the request. -/
theorem serve_understood (hst : (serverSystem ssl start.fresh).Reachable st) (peerIp text : Bytes) :
    match parse text with
    | none => (serve st.sessions peerIp (parse text)).reply.bind readAnswer =
        some (.of (errorMsg 400 "BAD REQUEST" 0))
    | some req =>
      match sessionOf st.sessions peerIp req with
      | none => (serve st.sessions peerIp (parse text)).reply = none
      | some sess => ∃ answer,
          (serve st.sessions peerIp (parse text)).reply.bind readAnswer = some answer ∧
          answer = .of (messageHandler req (st.sessions.object sess)).response ∧
          answer.cSeq? = some req.seqNumber := by
  cases hparse : parse text with
  | none =>
    have hreason : 13 ∉ ascii "BAD REQUEST" := by decide
    exact readAnswer_toString (@readable_errorMsg 400 "BAD REQUEST" 0 hreason)
  | some req =>
    dsimp only
    cases hsess : sessionOf st.sessions peerIp req with
    | none => rw [serve, hsess]
    | some sess =>
      refine ⟨_, reply_serve hst hsess, rfl, ?_⟩
      have hseq : (messageHandler req (st.sessions.object sess)).response.seqNumber =
          req.seqNumber := seqNumber_messageHandler
      rw [cSeq?_of (by rw [hseq]; exact (parse_parsed hparse).body.seqNumber), hseq]

/-- **The handshake.** A client that has set up a stream has learned the port and the secret of its
session, and they are still those of the session whatever the threads of the server do next; with
the secret of the control stream it is let in as soon as its session is the first. -/
theorem setup_connects (hst : (serverSystem ssl start.fresh).Reachable st)
    {events : List (ServerEvent Cert)}
    (hlater : (serverSystem ssl start.fresh).run st events = some st') {peerIp text : Bytes}
    {req : RtspPacket} (hparse : parse text = some req) (hcmd : req.request.cmd = ascii "SETUP")
    {sess : SessionRef} (hsess : sessionOf st.sessions peerIp req = some sess) :
    ∃ answer, (serve st.sessions peerIp (parse text)).reply.bind readAnswer = some answer ∧
      Learned answer req.request.stream.type (st'.sessions.object sess) ∧
      (req.request.stream.type = ascii "control" → ∃ secret, answer.connectData? = some secret ∧
        (st'.sessions.getRunning = some sess → ∀ peer ip,
          (st'.control.connect st'.sessions peer (UInt32.ofNat secret) ip).session? peer =
            some sess)) := by
  have hlt := sessionOf_lt hsess
  have hresponse : (messageHandler req (st.sessions.object sess)).response =
      setup req (st.sessions.object sess) := by
    unfold messageHandler
    dsimp only
    rw [hcmd, if_neg (by decide), if_neg (by decide), if_pos rfl]
  -- everything `SETUP` looks at is as it was launched
  have hfixed : Fixed fun s : StreamSession => (s.audioStreamPort, s.videoStreamPort,
      s.controlStreamPort, s.rtpSecretPayload, s.enetSecretPayload) :=
    fun _ _ _ _ _ _ _ _ => rfl
  have hsame := hfixed.run hlt hlater
  simp only [Prod.mk.injEq] at hsame
  obtain ⟨haudio, hvideo, hcontrol, hrtp, henet⟩ := hsame
  have hlearned : Learned (Answer.of (setup req (st.sessions.object sess)))
      req.request.stream.type (st.sessions.object sess) := learned_setup
  refine ⟨_, (congrArg (fun p => (serve st.sessions peerIp p).reply.bind readAnswer)
    hparse).trans (reply_serve hst hsess), ?_, fun htype => ?_⟩
  · rw [hresponse]
    constructor
    · rw [haudio, hrtp]
      exact hlearned.audio
    · rw [hvideo, hrtp]
      exact hlearned.video
    · rw [hcontrol, henet]
      exact hlearned.control
  · rw [hresponse]
    refine ⟨_, (hlearned.control htype).2, fun hrunning peer ip => ?_⟩
    have hmatch : matchSession st'.sessions
        (UInt32.ofNat (st.sessions.object sess).enetSecretPayload.toNat) ip = some sess := by
      rw [matchSession, hrunning]
      exact if_pos (.inl (by rw [henet, UInt32.ofNat_toNat]))
    rw [ControlServer.session?_connect_of_some hmatch, if_pos rfl]

/-! ### A client sets up its control stream -/

/-- The server after a launch, and after another one from somewhere else. -/
def oneLaunch : ServerState :=
  ((serverStep leafSsl { app := pairedStart.fresh } (launchFrom "192.168.1.20" 7)).getD
    { app := pairedStart.fresh })

def twoLaunches : ServerState :=
  (serverStep leafSsl oneLaunch (launchFrom "192.168.1.21" 8)).getD oneLaunch

theorem reachable_oneLaunch : (serverSystem leafSsl pairedStart.fresh).Reachable oneLaunch :=
  ⟨[launchFrom "192.168.1.20" 7], rfl⟩

/-- The session is named by the address in the `Host` option. -/
def setupRequest : Bytes :=
  ascii "SETUP streamid=control/13/0 RTSP/1.0\r\nCSeq: 5\r\nHost: 7.7.7.7\r\n\r\n"

def setupPacket : RtspPacket where
  seqNumber := 5
  request := {
    cmd := ascii "SETUP"
    type := .stream
    uri := { protocol := ascii "streamid" }
    stream := ⟨ascii "control", ascii "/13/0"⟩ }
  options := SortedMap.insert ∅ (ascii "Host") (ascii "7.7.7.7")

theorem parse_setupRequest : parse setupRequest = some setupPacket := by decide +kernel

/-- It reads the answer to its `SETUP` in the server with one launch. -/
theorem serve_understood_setup :
    match parse setupRequest with
    | none => (serve oneLaunch.sessions (ascii "192.168.1.20") (parse setupRequest)).reply.bind
        readAnswer = some (.of (errorMsg 400 "BAD REQUEST" 0))
    | some req =>
      match sessionOf oneLaunch.sessions (ascii "192.168.1.20") req with
      | none =>
        (serve oneLaunch.sessions (ascii "192.168.1.20") (parse setupRequest)).reply = none
      | some sess => ∃ answer,
          (serve oneLaunch.sessions (ascii "192.168.1.20") (parse setupRequest)).reply.bind
            readAnswer = some answer ∧
          answer = .of (messageHandler req (oneLaunch.sessions.object sess)).response ∧
          answer.cSeq? = some req.seqNumber :=
  serve_understood reachable_oneLaunch (ascii "192.168.1.20") setupRequest

/-- And is let in with the secret in it, when there are two. -/
theorem setup_connects_oneLaunch :
    ∃ answer, (serve oneLaunch.sessions (ascii "192.168.1.20") (parse setupRequest)).reply.bind
        readAnswer = some answer ∧
      Learned answer (ascii "control") (twoLaunches.sessions.object 0) ∧
      (ascii "control" = ascii "control" → ∃ secret, answer.connectData? = some secret ∧
        (twoLaunches.sessions.getRunning = some 0 → ∀ peer ip,
          (twoLaunches.control.connect twoLaunches.sessions peer (UInt32.ofNat secret) ip).session?
            peer = some 0)) :=
  have hlater : (serverSystem leafSsl pairedStart.fresh).run oneLaunch
      [launchFrom "192.168.1.21" 8] = some twoLaunches := rfl
  setup_connects reachable_oneLaunch hlater parse_setupRequest rfl rfl

end InServer

end SteamStream.Rtsp
