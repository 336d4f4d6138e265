import SteamStream.Rtsp.Parser

/-!
# Parsing what was printed

`parse (toString p)` for a well-formed packet `p`: it succeeds, and agrees with `p` on everything
that is printed. The proof follows the grammar, one lemma for each rule on the text it is printed
as; the options and the payloads are `wp_star_flatMap`.

Ordered choice makes the head of a response worth a lemma of its own: as a request it gets as far as
the slash of `RTSP/1.0`, which is a target, and fails behind it, with `cmd` set.
-/

namespace SteamStream.Rtsp

open Wire CText Peg Expr Grammar

/-! ### Well-formed packets -/

/-- A non-empty word of a class. -/
def IsWord (c : UInt8 → Bool) (t : Bytes) : Prop := t ≠ [] ∧ ∀ b ∈ t, c b = true

instance {c : UInt8 → Bool} {t : Bytes} : Decidable (IsWord c t) :=
  inferInstanceAs (Decidable (t ≠ [] ∧ ∀ b ∈ t, c b = true))

theorem isWord_of_all {c : UInt8 → Bool} {t : Bytes} (hne : t ≠ []) (h : t.all c = true) :
    IsWord c t :=
  ⟨hne, List.all_eq_true.mp h⟩

/-- A value of a class: it may be empty, and does not start with white space. -/
def IsValue (c : UInt8 → Bool) (t : Bytes) : Prop := (∀ b ∈ t, c b = true) ∧ Delimits whitespace t

instance {c : UInt8 → Bool} {t : Bytes} : Decidable (IsValue c t) :=
  inferInstanceAs (Decidable ((∀ b ∈ t, c b = true) ∧ Delimits whitespace t))

/-- A target that can be printed. -/
def TargetOk (request : RtspRequest) : Prop :=
  match request.type with
  | .uri => IsWord isLetter request.uri.protocol ∧ ∀ b ∈ request.uri.ip, isNumberChar b = true
  | .stream => IsWord isLetter request.stream.type ∧ IsWord isParamsChar request.stream.params

/-- The head of a packet can be printed. -/
def HeadOk (pkt : RtspPacket) : Prop :=
  match pkt.type with
  | .request => IsWord isLetter pkt.request.cmd ∧ TargetOk pkt.request
  | .response => IsWord isMsgChar pkt.response.msg ∧ Delimits whitespace pkt.response.msg

/-- What follows the head. -/
structure BodyOk (pkt : RtspPacket) : Prop where
  seqNumber : 0 ≤ pkt.seqNumber ∧ pkt.seqNumber < 2 ^ 31
  options : ∀ e ∈ pkt.options.entries, IsWord isKeyChar e.1 ∧ IsValue isOptValChar e.2
  payloads : ∀ e ∈ pkt.payloads, IsWord isKeyChar e.1 ∧ IsValue isPayloadValChar e.2

/-- A packet of words and values of the classes of the grammar. -/
structure WellFormed (pkt : RtspPacket) : Prop where
  head : HeadOk pkt
  body : BodyOk pkt

/-- Two requests agree on their target. -/
def TargetAgrees (request request' : RtspRequest) : Prop :=
  request'.type = request.type ∧
    match request.type with
    | .uri => request'.uri = request.uri
    | .stream => request'.stream = request.stream

/-- Two packets agree on the head: on what their type makes of it. -/
def HeadAgrees (pkt pkt' : RtspPacket) : Prop :=
  pkt'.type = pkt.type ∧
    match pkt.type with
    | .request => pkt'.request.cmd = pkt.request.cmd ∧ TargetAgrees pkt.request pkt'.request
    | .response => pkt'.response = pkt.response

/-- Two packets agree on everything that is printed. -/
structure Agrees (pkt pkt' : RtspPacket) : Prop where
  head : HeadAgrees pkt pkt'
  seqNumber : pkt'.seqNumber = pkt.seqNumber
  options : pkt'.options = pkt.options
  payloads : pkt'.payloads = pkt.payloads

theorem TargetAgrees.printTarget_eq {request request' : RtspRequest}
    (h : TargetAgrees request request') : printTarget request' = printTarget request := by
  obtain ⟨htype, hrest⟩ := h
  unfold printTarget
  rw [htype]
  cases ht : request.type with
  | uri =>
    rw [ht] at hrest
    simp only [hrest]
  | stream =>
    rw [ht] at hrest
    simp only [hrest]

theorem HeadAgrees.printHead_eq {pkt pkt' : RtspPacket} (h : HeadAgrees pkt pkt') :
    printHead pkt' = printHead pkt := by
  obtain ⟨htype, hrest⟩ := h
  unfold printHead
  rw [htype]
  cases hp : pkt.type with
  | request =>
    rw [hp] at hrest
    simp only [hrest.1, hrest.2.printTarget_eq]
  | response =>
    rw [hp] at hrest
    simp only [hrest]

/-- Packets that agree are printed the same. -/
theorem Agrees.toString_eq {pkt pkt' : RtspPacket} (h : Agrees pkt pkt') :
    toString pkt' = toString pkt := by
  rw [toString, toString, h.head.printHead_eq, h.seqNumber, h.options, h.payloads]

/-! ### Rules on printed text -/

section Printed

variable {α : Type} {c : UInt8 → Bool} {t rest : Bytes} {pkt : RtspPacket}
  {U : Unit → Bytes → RtspPacket → Prop} {T : Bytes → Bytes → RtspPacket → Prop}
  {E : RtspPacket → Prop}

theorem delimits_cons {b : UInt8} (h : c b = false) : Delimits c (b :: rest) := by
  intro _ hb
  exact Option.some.inj hb ▸ h

/-- White space is a blank or a tab. -/
theorem apart_whitespace (h32 : c 32 = false) (h9 : c 9 = false) : Apart c whitespace := by
  intro n hc
  by_contra hws
  simp only [whitespace, Bool.not_eq_false, Bool.or_eq_true, decide_eq_true_eq] at hws
  rcases hws with hws | hws
  · rw [hws, h32] at hc
    cases hc
  · rw [hws, h9] at hc
    cases hc

theorem apart_isParamsChar_isLetter : Apart isParamsChar isLetter := by decide +kernel

theorem apart_isNumberChar_isLetter : Apart isNumberChar isLetter := by decide +kernel

/-- A word of a class does not start with a byte of a disjoint one. -/
theorem IsWord.delimits {d : UInt8 → Bool} (ht : IsWord c t) (hd : Apart c d) :
    Delimits d (t ++ rest) :=
  Delimits.append ht.1 fun b hb => hd.eq_false (ht.2 b (List.mem_of_mem_head? hb))

/-- A word of a class without blank and tab does not start with white space. -/
theorem IsWord.delimits_whitespace (ht : IsWord c t) (h32 : c 32 = false) (h9 : c 9 = false) :
    Delimits whitespace (t ++ rest) :=
  ht.delimits (apart_whitespace h32 h9)

theorem delimits_endl : Delimits whitespace (endl ++ rest) := delimits_cons (by decide)

theorem dropWhile_space (h : Delimits whitespace rest) :
    (32 :: rest).dropWhile whitespace = rest := by
  rw [List.dropWhile_cons, if_pos (by decide), dropWhile_of_delimits h]

/-- A word in front of a space. -/
theorem wp_word_space (ht : IsWord c t) (hspace : c 32 = false) (hrest : Delimits whitespace rest)
    (h : T t rest pkt) : wp (word c) T E (t ++ 32 :: rest) pkt := by
  refine wp_token_append ht.1 ht.2 (delimits_cons hspace) ?_
  rwa [dropWhile_space hrest]

/-- A word in front of something else. -/
theorem wp_word_append (ht : IsWord c t) (hrest : Delimits c rest) (hws : Delimits whitespace rest)
    (h : T t rest pkt) : wp (word c) T E (t ++ rest) pkt := by
  refine wp_token_append ht.1 ht.2 hrest ?_
  rwa [dropWhile_of_delimits hws]

theorem wp_quoted_append (text : String) (hws : Delimits whitespace rest) (h : U () rest pkt) :
    wp (quoted text) U E (ascii text ++ rest) pkt := by
  refine wp_lit_append _ ?_
  rwa [dropWhile_of_delimits hws]

theorem wp_endLine (hws : Delimits whitespace rest) (h : U () rest pkt) :
    wp endLine U E (endl ++ rest) pkt := by
  have htext : endl ++ rest = [13] ++ ([10] ++ rest) := rfl
  have hlf : Delimits whitespace ([10] ++ rest) := delimits_cons (by decide)
  rw [htext, endLine, wp_bind, wp_opt]
  refine wp_lit_append _ ?_
  rw [dropWhile_of_delimits hlf]
  refine wp_lit_append _ ?_
  rwa [dropWhile_of_delimits hws]

/-- The version of the protocol, with the white space after it. -/
theorem wp_fullProtocol (hrest : Delimits isNumberChar rest)
    (h : U () (rest.dropWhile whitespace) pkt) :
    wp fullProtocol U E (ascii "RTSP" ++ (ascii "/" ++ (ascii "1.0" ++ rest))) pkt := by
  rw [fullProtocol, wp_bind]
  refine wp_word_append (isWord_of_all (by decide) rfl) (delimits_cons (by decide))
    (delimits_cons (by decide)) ?_
  rw [wp_bind]
  refine wp_quoted_append _ (delimits_cons (by decide)) ?_
  rw [wp_bind]
  exact wp_token_append (by decide) (List.all_eq_true.mp rfl) hrest (wp_pure.mpr h)

/-! #### The head -/

theorem isWord_toDecimal (n : ℕ) : IsWord isDigit (toDecimal n) :=
  ⟨toDecimal_ne_nil n, fun _ hb => isDigit_of_mem_toDecimal hb⟩

/-- A number that fits is read back. -/
theorem tokenToNumber_toDecimal {limit n : ℕ} (h : n < limit) :
    tokenToNumber limit (toDecimal n) = n := by
  have hall : (toDecimal n).takeWhile isDigit = toDecimal n :=
    List.takeWhile_eq_self_iff.mpr fun b hb => isDigit_of_mem_toDecimal hb
  rw [tokenToNumber, hall, digitsValue_toDecimal, if_pos h]

theorem wp_protocol (ht : IsWord isLetter t) (hrest : Delimits isLetter rest)
    (hws : Delimits whitespace rest) (h : T t rest { pkt with request.uri.protocol := t }) :
    wp protocol T E (t ++ rest) pkt := by
  rw [protocol, wp_onMatch]
  exact wp_word_append ht hrest hws h

/-- The address may be missing; what is then left in the packet is what was there. -/
theorem wp_ip (ht : ∀ b ∈ t, isNumberChar b = true) (hold : pkt.request.uri.ip = [])
    (h : U () (58 :: rest) { pkt with request.uri.ip := t }) :
    wp ip.opt U E (t ++ 58 :: rest) pkt := by
  rw [wp_opt, ip, wp_onMatch]
  by_cases hne : t = []
  · subst hne
    -- nothing is written, and nothing was there
    refine wp_token_of_delimits (delimits_cons (by decide)) ?_
    rwa [← hold] at h
  · exact wp_word_append ⟨hne, ht⟩ (delimits_cons (by decide)) (delimits_cons (by decide)) h

theorem wp_port {n : UInt16} (hrest : Delimits whitespace rest)
    (h : T (toDecimal n.toNat) rest { pkt with request.uri.port := n }) :
    wp port T E (toDecimal n.toNat ++ 32 :: rest) pkt := by
  rw [port, wp_onMatch]
  refine wp_word_space (isWord_toDecimal _) (by decide) hrest ?_
  rwa [tokenToNumber_toDecimal n.toNat_lt, UInt16.ofNat_toNat]

/-- A text of one class in front of a byte of neither ends another one, be it empty or not. -/
theorem delimits_append_cons {d : UInt8 → Bool} (ht : ∀ b ∈ t, c b = true) (hd : Apart c d)
    {b : UInt8} (hb : d b = false) : Delimits d (t ++ b :: rest) := by
  by_cases hne : t = []
  · subst hne
    exact delimits_cons hb
  · exact IsWord.delimits ⟨hne, ht⟩ hd

theorem wp_uri {u : Uri} (hprotocol : IsWord isLetter u.protocol)
    (hip : ∀ b ∈ u.ip, isNumberChar b = true) (hold : pkt.request.uri.ip = [])
    (hrest : Delimits whitespace rest)
    (h : U () rest { pkt with request := { pkt.request with type := .uri, uri := u } }) :
    wp uri U E (u.protocol ++ (ascii "://" ++ (u.ip ++ 58 :: (toDecimal u.port.toNat ++
      32 :: rest)))) pkt := by
  have hport : Delimits whitespace (toDecimal u.port.toNat ++ 32 :: rest) :=
    (isWord_toDecimal _).delimits_whitespace (by decide) (by decide)
  rw [uri, wp_onMatch, wp_bind]
  refine wp_protocol hprotocol (delimits_cons (by decide)) (delimits_cons (by decide)) ?_
  rw [wp_bind]
  refine wp_quoted_append _
    (delimits_append_cons hip (apart_whitespace (by decide) (by decide)) (by decide)) ?_
  rw [wp_bind]
  refine wp_ip hip hold ?_
  rw [wp_bind]
  refine wp_quoted_append ":" hport ?_
  rw [wp_bind]
  exact wp_port hrest (wp_pure.mpr h)

/-- A stream target is tried as a URI first, which leaves its beginning behind as a protocol. -/
theorem wp_uri_streamid (h : E { pkt with request.uri.protocol := ascii "streamid" }) :
    wp uri U E (ascii "streamid" ++ (ascii "=" ++ rest)) pkt := by
  rw [uri, wp_onMatch, wp_bind]
  refine wp_protocol (isWord_of_all (by decide) rfl) (delimits_cons (by decide))
    (delimits_cons (by decide)) ?_
  rw [wp_bind]
  exact wp_lit_of_head_ne (show (61 :: rest : Bytes).head? ≠ some 58 by simp) h

theorem wp_stream {s : Stream} (htype : IsWord isLetter s.type)
    (hparams : IsWord isParamsChar s.params) (hrest : Delimits whitespace rest)
    (h : U () rest { pkt with request := { pkt.request with type := .stream, stream := s } }) :
    wp stream U E (ascii "streamid" ++ (ascii "=" ++ (s.type ++ (s.params ++ 32 :: rest))))
      pkt := by
  rw [stream, wp_onMatch, wp_bind]
  refine wp_chars_append (by decide) (List.all_eq_true.mp rfl) (delimits_cons (by decide)) ?_
  rw [wp_bind]
  refine wp_quoted_append _ (htype.delimits_whitespace (by decide) (by decide)) ?_
  rw [wp_bind, streamType, wp_onMatch]
  refine wp_word_append htype (hparams.delimits apart_isParamsChar_isLetter)
    (hparams.delimits_whitespace (by decide) (by decide)) ?_
  rw [wp_bind, streamParams, wp_onMatch]
  exact wp_word_space hparams (by decide) hrest (wp_pure.mpr h)

theorem wp_target {request : RtspRequest} (hok : TargetOk request)
    (hold : pkt.request.uri.ip = []) (hrest : Delimits whitespace rest)
    (h : ∀ pkt' : RtspPacket, TargetAgrees request pkt'.request →
      pkt'.request.cmd = pkt.request.cmd → pkt'.options = pkt.options →
      pkt'.payloads = pkt.payloads → U () rest pkt') :
    wp target U E (printTarget request ++ 32 :: rest) pkt := by
  rw [target, wp_orElse, wp_orElse]
  cases htype : request.type with
  | uri =>
    rw [TargetOk, htype] at hok
    have htext : printTarget request ++ 32 :: rest = request.uri.protocol ++ (ascii "://" ++
        (request.uri.ip ++ 58 :: (toDecimal request.uri.port.toNat ++ 32 :: rest))) := by
      simp only [printTarget, htype, List.append_assoc]
      rfl
    rw [htext]
    refine wp_uri hok.1 hok.2 hold hrest (h _ ⟨htype.symm, ?_⟩ rfl rfl rfl)
    rw [htype]
  | stream =>
    rw [TargetOk, htype] at hok
    have htext : printTarget request ++ 32 :: rest = ascii "streamid" ++ (ascii "=" ++
        (request.stream.type ++ (request.stream.params ++ 32 :: rest))) := by
      simp only [printTarget, htype, List.append_assoc]
      rfl
    rw [htext]
    refine wp_uri_streamid (wp_stream hok.1 hok.2 hrest (h _ ⟨htype.symm, ?_⟩ rfl rfl rfl))
    rw [htype]

theorem TargetOk.delimits {request : RtspRequest} (hok : TargetOk request) :
    Delimits whitespace (printTarget request ++ rest) := by
  cases htype : request.type with
  | uri =>
    rw [TargetOk, htype] at hok
    simp only [printTarget, htype, List.append_assoc]
    exact hok.1.delimits_whitespace (by decide) (by decide)
  | stream =>
    simp only [printTarget, htype, List.append_assoc]
    exact delimits_cons (by decide)

/-- Where there is no letter, the only target is the slash. -/
theorem wp_target_of_delimits (hs : Delimits isLetter rest) (h : wp (quoted "/") U E rest pkt) :
    wp target U E rest pkt := by
  rw [target, wp_orElse, wp_orElse, uri, wp_onMatch, wp_bind, protocol, wp_onMatch]
  refine wp_token_of_delimits hs ?_
  rw [stream, wp_onMatch, wp_bind]
  exact wp_chars_of_delimits hs h

/-- As a request, the head of a response fails behind its slash. -/
theorem wp_rtspRequest_response
    (h : E { pkt with request.cmd := ascii "RTSP" }) :
    wp rtspRequest U E (ascii "RTSP" ++ (ascii "/" ++ (ascii "1.0" ++ rest))) pkt := by
  rw [rtspRequest, wp_onMatch, wp_bind, cmd, wp_onMatch]
  refine wp_word_append (isWord_of_all (by decide) rfl) (delimits_cons (by decide))
    (delimits_cons (by decide)) ?_
  rw [wp_bind]
  refine wp_target_of_delimits (delimits_cons (by decide)) ?_
  refine wp_quoted_append _ (delimits_cons (by decide)) ?_
  rw [fullProtocol, wp_bind]
  exact wp_token_of_delimits (delimits_cons (by decide)) h

theorem wp_rtspResponse {response : RtspResponse} (hmsg : IsWord isMsgChar response.msg)
    (hstart : Delimits whitespace response.msg)
    (h : U () (endl ++ rest) { pkt with response := response, type := .response }) :
    wp rtspResponse U E (ascii "RTSP" ++ (ascii "/" ++ (ascii "1.0" ++ 32 ::
      (toDecimal response.statusCode.toNat ++ 32 :: (response.msg ++ (endl ++ rest)))))) pkt := by
  have hcode := isWord_toDecimal response.statusCode.toNat
  rw [rtspResponse, wp_onMatch, wp_bind]
  refine wp_fullProtocol (delimits_cons (by decide)) ?_
  rw [dropWhile_space (hcode.delimits_whitespace (by decide) (by decide)), wp_bind, responseCode,
    wp_onMatch]
  refine wp_word_space hcode (by decide) (Delimits.append hmsg.1 hstart) ?_
  rw [wp_bind, responseMsg, wp_onMatch]
  refine wp_word_append hmsg (delimits_cons (by decide)) (delimits_cons (by decide)) ?_
  rw [wp_pure, tokenToNumber_toDecimal response.statusCode.toNat_lt, UInt16.ofNat_toNat]
  exact h

/-- The first line of a packet is read back. -/
theorem wp_head {p : RtspPacket} (hok : HeadOk p)
    (h : ∀ pkt' : RtspPacket, HeadAgrees p pkt' → pkt'.options = ∅ → pkt'.payloads = [] →
      U () (endl ++ rest) pkt') :
    wp (rtspRequest.orElse rtspResponse) U E (printHead p ++ (endl ++ rest)) {} := by
  rw [wp_orElse]
  cases htype : p.type with
  | request =>
    rw [HeadOk, htype] at hok
    have htext : printHead p ++ (endl ++ rest) = p.request.cmd ++ 32 :: (printTarget p.request ++
        32 :: (ascii "RTSP" ++ (ascii "/" ++ (ascii "1.0" ++ (endl ++ rest))))) := by
      simp only [printHead, htype, List.append_assoc]
      rfl
    rw [htext, rtspRequest, wp_onMatch, wp_bind, cmd, wp_onMatch]
    refine wp_word_space hok.1 (by decide) hok.2.delimits ?_
    rw [wp_bind]
    refine wp_target hok.2 rfl (delimits_cons (by decide)) fun pkt' htarget hcmd hopts hpays => ?_
    refine wp_fullProtocol (delimits_cons (by decide)) ?_
    rw [dropWhile_of_delimits delimits_endl]
    refine h _ ⟨htype.symm, ?_⟩ hopts hpays
    rw [htype]
    exact ⟨hcmd, htarget⟩
  | response =>
    rw [HeadOk, htype] at hok
    have htext : printHead p ++ (endl ++ rest) = ascii "RTSP" ++ (ascii "/" ++ (ascii "1.0" ++
        32 :: (toDecimal p.response.statusCode.toNat ++ 32 :: (p.response.msg ++
          (endl ++ rest))))) := by
      simp only [printHead, htype, List.append_assoc]
      rfl
    rw [htext]
    -- the request is tried first
    refine wp_rtspRequest_response (wp_rtspResponse hok.1 hok.2 (h _ ⟨htype.symm, ?_⟩ rfl rfl))
    rw [htype]

/-! #### The lines -/

theorem wp_cSeq {n : ℕ} (hn : n < 2 ^ 31) (hrest : Delimits whitespace rest)
    (h : T (toDecimal n) rest { pkt with seqNumber := n }) :
    wp cSeq T E (ascii "CSeq:" ++ 32 :: (toDecimal n ++ (endl ++ rest))) pkt := by
  have hword : IsWord isNumberChar (toDecimal n) :=
    ⟨toDecimal_ne_nil n, fun b hb => by
      rw [isNumberChar, isDigit_of_mem_toDecimal hb, Bool.true_or]⟩
  rw [cSeq, wp_onMatch, wp_bind]
  refine wp_lit_append _ ?_
  rw [dropWhile_space (hword.delimits_whitespace (by decide) (by decide)), wp_bind]
  refine wp_word_append hword (delimits_cons (by decide)) delimits_endl ?_
  rw [wp_bind, wp_opt]
  refine wp_endLine hrest ?_
  rwa [wp_pure, tokenToNumber_toDecimal hn]

/-- A value is read back; an empty one is the empty alternative. -/
theorem wp_value (ht : IsValue c t) (hc : c 13 = false) (h : T t (endl ++ rest) pkt) :
    wp (value c) T E (t ++ (endl ++ rest)) pkt := by
  rw [value, wp_orElse]
  by_cases hne : t = []
  · subst hne
    refine wp_token_of_delimits (delimits_cons hc) ?_
    rw [wp_matched]
    refine wp_lit_append (ascii "") ?_
    rw [List.nil_append, dropWhile_of_delimits delimits_endl, Nat.sub_self, List.take_zero]
    exact h
  · exact wp_word_append ⟨hne, ht.1⟩ (delimits_cons hc) delimits_endl h

theorem wp_pair {sep : String} (gap : Bytes) {e : Bytes × Bytes}
    {Q : Bytes × Bytes → Bytes → RtspPacket → Prop} (hkey : IsWord isKeyChar e.1)
    (hval : IsValue c e.2) (hc : c 13 = false) (hgap : ∀ b ∈ gap, whitespace b = true)
    (hsep : ∀ rest,
      Delimits isKeyChar (ascii sep ++ rest) ∧ Delimits whitespace (ascii sep ++ rest))
    (hrest : Delimits whitespace rest) (h : Q e rest pkt) :
    wp (pair sep (word isKeyChar) (value c)) Q E
      (e.1 ++ (ascii sep ++ (gap ++ (e.2 ++ (endl ++ rest))))) pkt := by
  have hstart : Delimits whitespace (e.2 ++ (endl ++ rest)) := by
    by_cases hne : e.2 = []
    · rw [hne]
      exact delimits_endl
    · exact Delimits.append hne hval.2
  rw [pair, wp_bind]
  refine wp_word_append hkey (hsep _).1 (hsep _).2 ?_
  rw [wp_bind]
  refine wp_lit_append _ ?_
  rw [List.dropWhile_append_of_pos hgap, dropWhile_of_delimits hstart, wp_bind]
  refine wp_value hval hc ?_
  rw [wp_bind, wp_opt]
  exact wp_endLine hrest (wp_pure.mpr h)

/-- No pair starts where no key does. -/
theorem wp_pair_of_delimits {sep : String} {val : Rule Bytes}
    {Q : Bytes × Bytes → Bytes → RtspPacket → Prop} (hs : Delimits isKeyChar rest) (h : E pkt) :
    wp (pair sep (word isKeyChar) val) Q E rest pkt := by
  rw [pair, wp_bind]
  exact wp_token_of_delimits hs h

end Printed

/-- The line of an option. -/
def optionLine (opt : Bytes × Bytes) : Bytes := opt.1 ++ (ascii ":" ++ ([32] ++ (opt.2 ++ endl)))

/-- The line of a payload with a key. -/
def payloadLine (pay : Bytes × Bytes) : Bytes := pay.1 ++ (ascii "=" ++ (pay.2 ++ endl))

section Lines

variable {U : Unit → Bytes → RtspPacket → Prop} {E : RtspPacket → Prop} {pkt : RtspPacket}
  {rest : Bytes}

/-- Lines that all end in a line end are read back one after another. -/
theorem wp_lines {c : UInt8 → Bool} {sep : String} (gap : Bytes) {line : Bytes × Bytes → Bytes}
    {update : Bytes × Bytes → RtspPacket → RtspPacket} {entries : List (Bytes × Bytes)}
    (hline : ∀ e, line e = e.1 ++ (ascii sep ++ (gap ++ (e.2 ++ endl))))
    (hentries : ∀ e ∈ entries, IsWord isKeyChar e.1 ∧ IsValue c e.2) (hc : c 13 = false)
    (hgap : ∀ b ∈ gap, whitespace b = true)
    (hsep : ∀ rest,
      Delimits isKeyChar (ascii sep ++ rest) ∧ Delimits whitespace (ascii sep ++ rest))
    (hrest : Delimits whitespace rest) (hstop : Delimits isKeyChar rest)
    (h : U () rest (entries.foldl (fun pkt e => update e pkt) pkt)) :
    wp ((pair sep (word isKeyChar) (value c)).onMatch update).star U E
      (entries.flatMap line ++ rest) pkt := by
  refine wp_star_flatMap (Delimits whitespace) update hrest (fun e he => ⟨?_, fun rest _ => ?_⟩)
    (fun e he rest st hrest => ?_) (fun st => ?_) h
  · rw [hline]
    exact List.append_ne_nil_of_left_ne_nil (hentries e he).1.1 _
  · rw [hline, List.append_assoc]
    exact (hentries e he).1.delimits_whitespace (by decide) (by decide)
  · rw [hline, wp_onMatch]
    simp only [List.append_assoc]
    exact wp_pair gap (hentries e he).1 (hentries e he).2 hc hgap hsep hrest ⟨rfl, rfl⟩
  · rw [wp_onMatch]
    exact wp_pair_of_delimits hstop rfl

theorem foldl_options (opts : List (Bytes × Bytes)) :
    opts.foldl (fun (pkt : RtspPacket) e =>
        { pkt with options := pkt.options.insert e.1 e.2 }) pkt =
      { pkt with options := opts.foldl (fun acc e => acc.insert e.1 e.2) pkt.options } := by
  induction opts generalizing pkt with
  | nil => rfl
  | cons e opts ih => exact ih

theorem foldl_payloads (pays : List (Bytes × Bytes)) :
    pays.foldl (fun (pkt : RtspPacket) e => { pkt with payloads := pkt.payloads ++ [e] }) pkt =
      { pkt with payloads := pkt.payloads ++ pays } := by
  induction pays generalizing pkt with
  | nil => rw [List.append_nil, List.foldl_nil]
  | cons e pays ih =>
    rw [List.foldl_cons, ih]
    simp only [List.append_assoc, List.singleton_append]

theorem wp_options {opts : List (Bytes × Bytes)}
    (hopts : ∀ e ∈ opts, IsWord isKeyChar e.1 ∧ IsValue isOptValChar e.2)
    (h : U () (endl ++ rest) { pkt with
      options := opts.foldl (fun acc e => acc.insert e.1 e.2) pkt.options }) :
    wp option.star U E (opts.flatMap optionLine ++ (endl ++ rest)) pkt := by
  rw [← foldl_options] at h
  exact wp_lines [32] (fun _ => rfl) hopts (by decide) (List.forall_mem_singleton.mpr rfl)
    (fun _ => ⟨delimits_cons (by decide), delimits_cons (by decide)⟩) delimits_endl
    (delimits_cons (by decide)) h

theorem wp_payloads {pays : List (Bytes × Bytes)}
    (hpays : ∀ e ∈ pays, IsWord isKeyChar e.1 ∧ IsValue isPayloadValChar e.2)
    (h : U () [] { pkt with payloads := pkt.payloads ++ pays }) :
    wp payload.star U E (pays.flatMap payloadLine ++ []) pkt := by
  rw [← foldl_payloads] at h
  exact wp_lines [] (fun _ => rfl) hpays (by decide) (List.forall_mem_nil _)
    (fun _ => ⟨delimits_cons (by decide), delimits_cons (by decide)⟩) delimits_nil delimits_nil h

end Lines

/-! ### The round trip -/

/-- The line ends of the options, moved to the end of their lines. -/
private theorem flatMap_endl (opts : List (Bytes × Bytes)) (rest : Bytes) :
    opts.flatMap (fun opt => endl ++ (opt.1 ++ (ascii ": " ++ opt.2))) ++ (endl ++ rest) =
      endl ++ (opts.flatMap optionLine ++ rest) := by
  induction opts with
  | nil => rfl
  | cons opt opts ih =>
    have hcolon : ascii ": " = ascii ":" ++ [32] := rfl
    rw [List.flatMap_cons, List.append_assoc, ih, List.flatMap_cons, optionLine, hcolon]
    simp only [List.append_assoc]

/-- The text of a packet, line by line. -/
theorem toString_eq_lines {pkt : RtspPacket} (h : BodyOk pkt) :
    toString pkt = printHead pkt ++ (endl ++ (ascii "CSeq:" ++
      32 :: (toDecimal pkt.seqNumber.toNat ++ (endl ++ (pkt.options.entries.flatMap optionLine ++
        (endl ++ (pkt.payloads.flatMap payloadLine ++ []))))))) := by
  have hseq : printInt pkt.seqNumber = toDecimal pkt.seqNumber.toNat := by
    have hnonneg := h.seqNumber.1
    rw [printInt, decide_eq_false (by omega),
      show pkt.seqNumber.natAbs = pkt.seqNumber.toNat by omega]
    rfl
  -- no key is empty, so no payload is printed without one
  have hpays : pkt.payloads.flatMap printPayload = pkt.payloads.flatMap payloadLine := by
    refine List.flatMap_congr fun pay hpay => ?_
    rw [printPayload, if_neg (h.payloads pay hpay).1.1, payloadLine]
    simp only [List.append_assoc]
  have hcSeq : ascii "CSeq: " = ascii "CSeq:" ++ [32] := rfl
  rw [toString, hseq, hpays, hcSeq, List.append_nil]
  simp only [List.append_assoc, flatMap_endl, List.cons_append, List.nil_append]

theorem HeadOk.delimits {pkt : RtspPacket} {rest : Bytes} (h : HeadOk pkt) :
    Delimits whitespace (printHead pkt ++ rest) := by
  cases htype : pkt.type with
  | request =>
    rw [HeadOk, htype] at h
    simp only [printHead, htype, List.append_assoc]
    exact h.1.delimits_whitespace (by decide) (by decide)
  | response =>
    simp only [printHead, htype, List.append_assoc]
    exact delimits_cons (by decide)

/-- Lines that start with a key do not start with white space. -/
theorem delimits_lines {line : Bytes × Bytes → Bytes} {sep : Bytes × Bytes → Bytes}
    {entries : List (Bytes × Bytes)} {rest : Bytes} (hline : ∀ e, line e = e.1 ++ sep e)
    (hkey : ∀ e ∈ entries, IsWord isKeyChar e.1) (hrest : Delimits whitespace rest) :
    Delimits whitespace (entries.flatMap line ++ rest) :=
  follows_flatMap hrest fun e he rest _ => by
    rw [hline, List.append_assoc]
    exact (hkey e he).delimits_whitespace (by decide) (by decide)

/-- The grammar on the text of a packet. -/
theorem wp_rtsp {pkt : RtspPacket} (h : WellFormed pkt) :
    wp rtsp (fun _ s' pkt' => s' = [] ∧ Agrees pkt pkt') (fun _ => False)
      ((toString pkt).dropWhile whitespace) {} := by
  have hseq := h.body.seqNumber
  have hpays : Delimits whitespace (pkt.payloads.flatMap payloadLine ++ []) :=
    delimits_lines (fun _ => rfl) (fun e he => (h.body.payloads e he).1) delimits_nil
  have hopts : Delimits whitespace (pkt.options.entries.flatMap optionLine ++
      (endl ++ (pkt.payloads.flatMap payloadLine ++ []))) :=
    delimits_lines (fun _ => rfl) (fun e he => (h.body.options e he).1) delimits_endl
  rw [toString_eq_lines h.body, dropWhile_of_delimits h.head.delimits, rtsp, wp_bind]
  refine wp_head h.head fun pkt₁ hagrees hoptions hpayloads => ?_
  rw [wp_bind]
  refine wp_endLine (delimits_cons (by decide)) ?_
  rw [wp_bind]
  refine wp_cSeq (by omega) hopts ?_
  rw [wp_bind]
  refine wp_options h.body.options ?_
  rw [wp_bind, wp_opt]
  refine wp_endLine hpays ?_
  rw [wp_bind]
  refine wp_payloads h.body.payloads ?_
  rw [wp_opt, rubbish, wp_token_plus_nil]
  refine ⟨rfl, hagrees, ?_, ?_, ?_⟩
  · exact Int.toNat_of_nonneg hseq.1
  · change List.foldl _ pkt₁.options _ = _
    rw [hoptions, SortedMap.foldl_insert_entries]
  · change pkt₁.payloads ++ pkt.payloads = _
    rw [hpayloads, List.nil_append]

/-- **Decoding undoes encoding.** -/
theorem parse_toString {pkt : RtspPacket} (h : WellFormed pkt) :
    ∃ pkt', parse (toString pkt) = some pkt' ∧ Agrees pkt pkt' := by
  refine exists_parse_of_wp ?_
  exact wp_rtsp h

/-- An answer with an option without a value, and two payloads under one key. -/
def describeOk : RtspPacket where
  type := .response
  seqNumber := 3
  response := ⟨200, ascii "OK"⟩
  options := SortedMap.insert ∅ (ascii "Session") (ascii "DEADBEEF;timeout = 90")
    |>.insert (ascii "Require") []
  payloads := [(ascii "a", ascii "fmtp:97 surround-params=21101"), (ascii "a", [])]

theorem wellFormed_describeOk : WellFormed describeOk where
  head := ⟨by decide +kernel, by decide +kernel⟩
  body := ⟨by decide, by decide +kernel, by decide +kernel⟩

theorem parse_toString_describeOk :
    ∃ pkt', parse (toString describeOk) = some pkt' ∧ Agrees describeOk pkt' :=
  parse_toString wellFormed_describeOk

end SteamStream.Rtsp
