import SteamStream.Rtsp.RoundTrip

/-!
# Printing what was parsed

What `parse` returns is well-formed, with one exception: of the three targets of the grammar,
`to_string` knows two. A request for `/` leaves the target of the packet as it was, an empty URI,
and is printed as `://:0`, which is no target. Everything else that is accepted is printed as an
accepted text.

`BareSlash` is the exception as a condition on the text. What an accepted text says about its packet
is proved rule by rule, over arbitrary text: `HeadParsed` of the first line, by what stands where
the target does, and `BodyParsed` of the lines, as the invariant of their loops.
-/

namespace SteamStream.Rtsp

open Wire CText Peg Expr Grammar

/-- A slash, and a word behind it. -/
def IsBareSlash (t : Bytes) : Prop :=
  t.head? = some 47 ∧ ¬ Delimits isLetter (t.tail.dropWhile whitespace)

instance {t : Bytes} : Decidable (IsBareSlash t) :=
  inferInstanceAs
    (Decidable (t.head? = some 47 ∧ ¬ Delimits isLetter (t.tail.dropWhile whitespace)))

/-- What stands behind the first word of a text is a slash and another word: as a request, the text
is one for `/`. -/
def BareSlash (msg : Bytes) : Prop :=
  IsBareSlash (((msg.dropWhile whitespace).dropWhile isLetter).dropWhile whitespace)

instance {msg : Bytes} : Decidable (BareSlash msg) :=
  inferInstanceAs
    (Decidable (IsBareSlash (((msg.dropWhile whitespace).dropWhile isLetter).dropWhile whitespace)))

/-! ### Rules on any text -/

section Any

variable {c : UInt8 → Bool} {s : Bytes} {pkt : RtspPacket} {U : Unit → Bytes → RtspPacket → Prop}
  {T : Bytes → Bytes → RtspPacket → Prop} {E : RtspPacket → Prop}

theorem IsWord.not_delimits (h : IsWord c (s.takeWhile c)) : ¬ Delimits c s := fun hs =>
  h.1 (takeWhile_of_delimits hs)

/-- A text that starts with a word of a class does not start with a byte of a disjoint one. -/
theorem IsWord.delimits_takeWhile {d : UInt8 → Bool} (h : IsWord c (s.takeWhile c))
    (hd : Apart c d) : Delimits d s := by
  rw [← List.takeWhile_append_dropWhile (p := c) (l := s)]
  exact h.delimits hd

theorem wp_word (h : IsWord c (s.takeWhile c) →
      T (s.takeWhile c) ((s.dropWhile c).dropWhile whitespace) pkt)
    (hE : Delimits c s → E pkt) : wp (word c) T E s pkt := by
  rw [word, wp_token_chars]
  split_ifs with hnil
  · refine hE fun b hb => ?_
    obtain ⟨tail, rfl⟩ := List.head?_eq_some_iff.mp hb
    by_contra hc
    rw [List.takeWhile_cons, if_pos (by simpa using hc)] at hnil
    exact List.cons_ne_nil _ _ hnil
  · exact h ⟨hnil, fun b hb => List.mem_takeWhile_imp hb⟩

/-- Where only the word counts. -/
theorem wp_word_of_forall (h : ∀ t rest, IsWord c t → T t rest pkt) (hE : E pkt) :
    wp (word c) T E s pkt :=
  wp_word (fun ht => h _ _ ht) fun _ => hE

theorem wp_quoted_of_forall {text : String} (h : ∀ rest, Delimits whitespace rest → U () rest pkt)
    (hE : E pkt) : wp (quoted text) U E s pkt := by
  rw [quoted, wp_lit]
  split_ifs
  · exact h _ delimits_dropWhile
  · exact hE

theorem wp_fullProtocol_of_forall (h : ¬ Delimits isLetter s → ∀ rest, U () rest pkt) (hE : E pkt) :
    wp fullProtocol U E s pkt := by
  rw [fullProtocol, wp_bind, fProtocol]
  refine wp_word (fun hword => ?_) fun _ => hE
  rw [wp_bind]
  refine wp_quoted_of_forall (fun rest _ => ?_) hE
  rw [wp_bind, fVersion]
  exact wp_word_of_forall (fun _ rest _ => wp_pure.mpr (h hword.not_delimits rest)) hE

theorem wp_endLine_of_forall (h : ∀ rest, U () rest pkt) (hE : E pkt) :
    wp endLine U E s pkt := by
  have hlf : ∀ s, wp lf U E s pkt := fun s => by
    rw [lf, wp_lit]
    split_ifs
    · exact h _
    · exact hE
  rw [endLine, wp_bind, wp_opt, cr, wp_lit]
  split_ifs
  · exact hlf _
  · exact hlf _

/-- A word starts where the text does. -/
theorem wp_word_of_delimits (hs : Delimits whitespace s)
    (h : ∀ t rest, IsWord c t → Delimits whitespace t → T t rest pkt) (hE : E pkt) :
    wp (word c) T E s pkt := by
  refine wp_word (fun ht => h _ _ ht fun b hb => ?_) fun _ => hE
  rw [List.head?_takeWhile] at hb
  exact hs b (Option.mem_filter_iff.mp hb).1

theorem wp_value_of_forall (hs : Delimits whitespace s) (h : ∀ t rest, IsValue c t → T t rest pkt) :
    wp (value c) T E s pkt := by
  have hprefix : ascii "" <+: s := List.nil_prefix
  have hempty : s.take (s.length -
      ((s.drop (ascii "").length).dropWhile whitespace).length) = [] := by
    rw [show (ascii "").length = 0 from rfl, List.drop_zero, dropWhile_of_delimits hs,
      Nat.sub_self, List.take_zero]
  rw [value, wp_orElse]
  refine wp_word_of_delimits hs (fun t rest ht hstart => h t rest ⟨ht.2, hstart⟩) ?_
  rw [wp_matched, quoted, wp_lit, if_pos hprefix, hempty]
  exact h _ _ ⟨List.forall_mem_nil _, delimits_nil⟩

theorem wp_pair_of_forall {sep : String} {Q : Bytes × Bytes → Bytes → RtspPacket → Prop}
    (h : ∀ e rest, IsWord isKeyChar e.1 → IsValue c e.2 → Q e rest pkt) (hE : E pkt) :
    wp (pair sep (word isKeyChar) (value c)) Q E s pkt := by
  rw [pair, wp_bind]
  refine wp_word_of_forall (fun key rest hkey => ?_) hE
  rw [wp_bind]
  refine wp_quoted_of_forall (fun rest hrest => ?_) hE
  rw [wp_bind]
  refine wp_value_of_forall hrest fun val rest hval => ?_
  have hpair : ∀ rest, wp (pure (key, val)) Q E rest pkt := fun rest =>
    wp_pure.mpr (h (key, val) rest hkey hval)
  rw [wp_bind, wp_opt]
  exact wp_endLine_of_forall hpair (hpair _)

theorem wp_rubbish_opt (h : ∀ rest, U () rest pkt) : wp rubbish.opt U E s pkt := by
  rw [wp_opt, rubbish, token, wp_bind, wp_matched, wp_plus]
  refine wp_anyChar_of_forall (fun rest => ?_) (h s)
  -- no character changes the packet
  refine wp_star (I := fun _ pkt' => pkt' = pkt) rfl ?_ ?_
  · rintro s _ rfl
    refine wp_anyChar_of_forall (fun _ => rfl) ?_
    rw [wp_bind, wp_skip]
    exact wp_pure.mpr (h _)
  · rintro s _ rfl
    rw [wp_bind, wp_skip]
    exact wp_pure.mpr (h _)

end Any

/-! ### The head -/

/-- What the rules of the head leave alone. -/
structure Bodyless (pkt : RtspPacket) : Prop where
  options : pkt.options = ∅
  payloads : pkt.payloads = []

/-- A packet whose target has been parsed. -/
structure TargetParsed (cmd : Bytes) (pkt : RtspPacket) : Prop where
  cmd : pkt.request.cmd = cmd
  target : TargetOk pkt.request
  body : Bodyless pkt

section Head

variable {s : Bytes} {pkt : RtspPacket} {U : Unit → Bytes → RtspPacket → Prop}
  {E : RtspPacket → Prop}

theorem wp_uri_of_forall (hip : pkt.request.uri.ip = []) (hbody : Bodyless pkt)
    (h : ∀ rest pkt', TargetParsed pkt.request.cmd pkt' → U () rest pkt')
    (hE : ∀ pkt', Bodyless pkt' → pkt'.request.cmd = pkt.request.cmd → E pkt') :
    wp uri U E s pkt := by
  rw [uri, wp_onMatch, wp_bind, protocol, wp_onMatch]
  refine wp_word_of_forall (fun t rest ht => ?_) (hE _ hbody rfl)
  rw [wp_bind]
  refine wp_quoted_of_forall (fun rest _ => ?_) (hE _ ⟨hbody.1, hbody.2⟩ rfl)
  rw [wp_bind, wp_opt, ip, wp_onMatch]
  have hport : ∀ addr rest, (∀ b ∈ addr, isNumberChar b = true) →
      wp (do
        quoted ":"
        let _ ← port)
        (fun a s' pkt' => U a s' { pkt' with request.type := .uri }) E rest
        { pkt with request.uri := { pkt.request.uri with protocol := t, ip := addr } } := by
    intro addr rest haddr
    rw [wp_bind]
    refine wp_quoted_of_forall (fun rest _ => ?_) (hE _ ⟨hbody.1, hbody.2⟩ rfl)
    rw [wp_bind, port, wp_onMatch]
    refine wp_word_of_forall (fun number rest _ => ?_) (hE _ ⟨hbody.1, hbody.2⟩ rfl)
    exact wp_pure.mpr (h _ _ ⟨rfl, ⟨ht, haddr⟩, ⟨hbody.1, hbody.2⟩⟩)
  refine wp_word_of_forall (fun addr rest haddr => hport addr rest haddr.2) ?_
  -- without an address the one before it stays, which is empty
  exact hport pkt.request.uri.ip _ (by rw [hip]; exact List.forall_mem_nil _)

theorem wp_stream_of_forall (hbody : Bodyless pkt)
    (h : ∀ rest pkt', TargetParsed pkt.request.cmd pkt' → U () rest pkt')
    (hE : ∀ pkt', Bodyless pkt' → E pkt') : wp stream U E s pkt := by
  rw [stream, wp_onMatch, wp_bind, wp_chars]
  split_ifs
  · exact hE _ hbody
  rw [wp_bind]
  refine wp_quoted_of_forall (fun rest _ => ?_) (hE _ hbody)
  rw [wp_bind, streamType, wp_onMatch]
  refine wp_word_of_forall (fun type rest htype => ?_) (hE _ hbody)
  rw [wp_bind, streamParams, wp_onMatch]
  refine wp_word_of_forall (fun params rest hparams => ?_) (hE _ ⟨hbody.1, hbody.2⟩)
  exact wp_pure.mpr (h _ _ ⟨rfl, ⟨htype, hparams⟩, ⟨hbody.1, hbody.2⟩⟩)

/-- Where there is a letter, the target is not the slash. -/
theorem wp_target_of_not_delimits (hs : ¬ Delimits isLetter s) (hip : pkt.request.uri.ip = [])
    (hbody : Bodyless pkt) (h : ∀ rest pkt', TargetParsed pkt.request.cmd pkt' → U () rest pkt')
    (hE : ∀ pkt', Bodyless pkt' → E pkt') : wp target U E s pkt := by
  have hslash : s.head? ≠ some 47 := by
    intro hhead
    refine hs fun b hb => ?_
    obtain rfl := Option.some.inj (hhead.symm.trans hb)
    decide
  rw [target, wp_orElse, wp_orElse]
  refine wp_uri_of_forall hip hbody h fun pkt₁ hbody₁ hcmd₁ => ?_
  -- a URI that fails may leave a protocol and an address behind
  refine wp_stream_of_forall hbody₁ (hcmd₁ ▸ h) fun pkt₂ hbody₂ => ?_
  exact wp_lit_of_head_ne hslash (hE pkt₂ hbody₂)

/-- The head of a request for `/`: the target is left as it was. -/
structure SlashHead (pkt : RtspPacket) : Prop where
  type : pkt.type = .request
  cmd : IsWord isLetter pkt.request.cmd
  target : pkt.request.type = .uri
  uri : pkt.request.uri = {}

/-- The head of an accepted text: it can be printed, unless the target is the slash. -/
structure HeadParsed (bare : Prop) (pkt : RtspPacket) : Prop where
  body : Bodyless pkt
  ok : ¬ bare → HeadOk pkt
  slash : bare → SlashHead pkt

/-- A response is not a request for `/`: a number follows its slash. -/
theorem wp_rtspResponse_of_forall (hbody : Bodyless pkt)
    (h : ∀ rest pkt', HeadParsed (IsBareSlash ((s.dropWhile isLetter).dropWhile whitespace)) pkt' →
      U () rest pkt') (hE : ∀ pkt', E pkt') : wp rtspResponse U E s pkt := by
  rw [rtspResponse, wp_onMatch, wp_bind, fullProtocol, wp_bind, fProtocol]
  refine wp_word (fun _ => ?_) fun _ => hE _
  generalize (s.dropWhile isLetter).dropWhile whitespace = t at h ⊢
  rw [wp_bind, quoted, wp_lit]
  split_ifs with hslash
  · obtain ⟨tail, rfl⟩ := hslash
    rw [wp_bind, fVersion, List.drop_left]
    refine wp_word (fun hversion => ?_) fun _ => hE _
    -- a version starts with a digit or a dot
    have hbare : ¬ IsBareSlash (ascii "/" ++ tail) := fun hbare =>
      hbare.2 (hversion.delimits_takeWhile apart_isNumberChar_isLetter)
    rw [wp_pure, wp_bind, responseCode, wp_onMatch]
    refine wp_word (fun _ => ?_) fun _ => hE _
    rw [wp_bind, responseMsg, wp_onMatch]
    refine wp_word_of_delimits delimits_dropWhile (fun msg rest hmsg hstart => ?_) (hE _)
    exact wp_pure.mpr (h _ _ ⟨⟨hbody.1, hbody.2⟩, fun _ => ⟨hmsg, hstart⟩, fun hslash =>
      (hbare hslash).elim⟩)
  · exact hE _

theorem wp_head_of_forall
    (h : ∀ rest pkt', HeadParsed (IsBareSlash ((s.dropWhile isLetter).dropWhile whitespace)) pkt' →
      U () rest pkt') (hE : ∀ pkt', E pkt') : wp (rtspRequest.orElse rtspResponse) U E s {} := by
  have hresponse : ∀ pkt, Bodyless pkt → wp rtspResponse U E s pkt := fun pkt hbody =>
    wp_rtspResponse_of_forall hbody h hE
  rw [wp_orElse, rtspRequest, wp_onMatch, wp_bind, cmd, wp_onMatch]
  refine wp_word (fun hcmd => ?_) fun _ => hresponse _ ⟨rfl, rfl⟩
  generalize (s.dropWhile isLetter).dropWhile whitespace = t at h ⊢
  rw [wp_bind]
  -- of the three targets only the slash does not start with a letter
  by_cases ht : Delimits isLetter t
  · refine wp_target_of_delimits ht ?_
    rw [quoted, wp_lit]
    split_ifs with hslash
    · obtain ⟨tail, rfl⟩ := hslash
      rw [List.drop_left]
      refine wp_fullProtocol_of_forall (fun hword rest => ?_) (hresponse _ ⟨rfl, rfl⟩)
      have hbare : IsBareSlash (ascii "/" ++ tail) := ⟨rfl, hword⟩
      exact h _ _ ⟨⟨rfl, rfl⟩, fun hnot => (hnot hbare).elim, fun _ => ⟨rfl, hcmd, rfl, rfl⟩⟩
    · exact hresponse _ ⟨rfl, rfl⟩
  · have hbare : ¬ IsBareSlash t := by
      rintro ⟨hhead, -⟩
      refine ht fun b hb => ?_
      obtain rfl := Option.some.inj (hhead.symm.trans hb)
      decide
    refine wp_target_of_not_delimits ht rfl ⟨rfl, rfl⟩ (fun rest pkt' hparsed => ?_) hresponse
    refine wp_fullProtocol_of_forall (fun _ rest => ?_) (hresponse _ hparsed.body)
    exact h _ _ ⟨⟨hparsed.body.1, hparsed.body.2⟩,
      fun _ => ⟨hparsed.cmd ▸ hcmd, hparsed.target⟩, fun hslash => (hbare hslash).elim⟩

end Head

/-! ### The lines -/

/-- A packet some lines after its head. -/
structure BodyParsed (head pkt : RtspPacket) : Prop where
  type : pkt.type = head.type
  request : pkt.request = head.request
  response : pkt.response = head.response
  body : BodyOk pkt

section Body

variable {s : Bytes} {head pkt : RtspPacket} {U : Unit → Bytes → RtspPacket → Prop}
  {T : Bytes → Bytes → RtspPacket → Prop} {E : RtspPacket → Prop}

theorem tokenToNumber_lt {limit : ℕ} (h : 0 < limit) (token : Bytes) :
    tokenToNumber limit token < limit := by
  rw [tokenToNumber]
  split_ifs with hlt
  · exact hlt
  · exact h

theorem wp_cSeq_of_forall (hbody : Bodyless pkt)
    (h : ∀ token rest pkt', BodyParsed pkt pkt' → T token rest pkt') (hE : E pkt) :
    wp cSeq T E s pkt := by
  rw [cSeq, wp_onMatch, wp_bind]
  refine wp_quoted_of_forall (fun rest _ => ?_) hE
  rw [wp_bind]
  refine wp_word_of_forall (fun token rest _ => ?_) hE
  have hseq : (tokenToNumber (2 ^ 31) token : ℤ) < 2 ^ 31 := by
    have hlt := @tokenToNumber_lt (2 ^ 31) (by decide) token
    omega
  have hparsed : BodyParsed pkt { pkt with seqNumber := tokenToNumber (2 ^ 31) token } :=
    ⟨rfl, rfl, rfl, ⟨Int.natCast_nonneg _, hseq⟩,
      by rw [hbody.options]; exact List.forall_mem_nil _,
      by rw [hbody.payloads]; exact List.forall_mem_nil _⟩
  rw [wp_bind, wp_opt]
  exact wp_endLine_of_forall (fun rest => wp_pure.mpr (h _ _ _ hparsed))
    (wp_pure.mpr (h _ _ _ hparsed))

theorem wp_options_of_forall (hpkt : BodyParsed head pkt)
    (h : ∀ rest pkt', BodyParsed head pkt' → U () rest pkt') : wp option.star U E s pkt := by
  refine wp_star (I := fun _ pkt => BodyParsed head pkt) hpkt (fun s pkt hpkt => ?_) h
  rw [option, wp_onMatch]
  refine wp_pair_of_forall (fun e rest hkey hval => ?_) (h s pkt hpkt)
  exact ⟨hpkt.type, hpkt.request, hpkt.response, hpkt.body.seqNumber,
    SortedMap.forall_mem_insert hpkt.body.options hkey hval, hpkt.body.payloads⟩

theorem wp_payloads_of_forall (hpkt : BodyParsed head pkt)
    (h : ∀ rest pkt', BodyParsed head pkt' → U () rest pkt') : wp payload.star U E s pkt := by
  refine wp_star (I := fun _ pkt => BodyParsed head pkt) hpkt (fun s pkt hpkt => ?_) h
  rw [payload, wp_onMatch]
  refine wp_pair_of_forall (fun e rest hkey hval => ?_) (h s pkt hpkt)
  refine ⟨hpkt.type, hpkt.request, hpkt.response, hpkt.body.seqNumber, hpkt.body.options, ?_⟩
  intro e' he'
  rcases List.mem_append.mp he' with he' | he'
  · exact hpkt.body.payloads e' he'
  · exact List.mem_singleton.mp he' ▸ ⟨hkey, hval⟩

end Body

/-! ### Accepted texts -/

/-- The packet of an accepted text. -/
structure Parsed (bare : Prop) (pkt : RtspPacket) : Prop where
  body : BodyOk pkt
  ok : ¬ bare → HeadOk pkt
  slash : bare → SlashHead pkt

theorem BodyParsed.parsed {bare : Prop} {head pkt : RtspPacket} (h : BodyParsed head pkt)
    (hhead : HeadParsed bare head) : Parsed bare pkt where
  body := h.body
  ok hbare := by
    have hok := hhead.ok hbare
    rwa [HeadOk, ← h.type, ← h.request, ← h.response] at hok
  slash hbare := by
    obtain ⟨htype, hcmd, htarget, huri⟩ := hhead.slash hbare
    rw [← h.request] at hcmd htarget huri
    exact ⟨h.type.trans htype, hcmd, htarget, huri⟩

/-- What is accepted is well-formed, or a request for `/`. -/
theorem parse_parsed {msg : Bytes} {pkt : RtspPacket} (h : parse msg = some pkt) :
    Parsed (BareSlash msg) pkt := by
  refine of_parse_eq_some h ?_
  rw [rtsp, wp_bind]
  refine wp_head_of_forall (fun rest head hhead => ?_) fun _ => trivial
  rw [wp_bind]
  refine wp_endLine_of_forall (fun rest => ?_) trivial
  rw [wp_bind]
  refine wp_cSeq_of_forall hhead.body (fun _ rest pkt₁ hpkt₁ => ?_) trivial
  rw [wp_bind]
  refine wp_options_of_forall hpkt₁ fun rest pkt₂ hpkt₂ => ?_
  have hpayloads : ∀ rest, wp (do
      payload.star
      rubbish.opt) (fun _ s' pkt' => s' = [] → Parsed (BareSlash msg) pkt') (fun _ => True)
      rest pkt₂ := fun rest => by
    rw [wp_bind]
    refine wp_payloads_of_forall hpkt₂ fun rest pkt₃ hpkt₃ => ?_
    exact wp_rubbish_opt fun _ _ => hpkt₃.parsed hhead
  -- the empty line may be missing
  rw [wp_bind, wp_opt]
  exact wp_endLine_of_forall hpayloads (hpayloads _)

/-- Printed, a request for `/` is no packet: a colon stands where its target should. -/
theorem parse_toString_of_slashHead {pkt pkt' : RtspPacket} (h : SlashHead pkt) :
    parse (toString pkt) ≠ some pkt' := by
  intro hparse
  obtain ⟨rest, htext⟩ : ∃ rest, toString pkt = pkt.request.cmd ++ 32 :: (58 :: rest) := by
    simp only [toString, printHead, h.type, printTarget, h.target, h.uri, List.append_assoc]
    exact ⟨_, rfl⟩
  have hstart : Delimits whitespace (toString pkt) :=
    htext ▸ h.cmd.delimits_whitespace (by decide) (by decide)
  have hcolon : ∀ {b : UInt8}, b ≠ 58 → (58 :: rest : Bytes).head? ≠ some b := fun hb heq =>
    hb (Option.some.inj heq).symm
  refine of_parse_eq_some (E := fun _ => False) hparse ?_
  rw [dropWhile_of_delimits hstart, htext, rtsp, wp_bind, wp_orElse, rtspRequest, wp_onMatch,
    wp_bind, cmd, wp_onMatch]
  refine wp_word_space h.cmd (by decide) (delimits_cons (by decide)) ?_
  rw [wp_bind]
  refine wp_target_of_delimits (delimits_cons (by decide)) ?_
  refine wp_lit_of_head_ne (hcolon (by decide)) ?_
  rw [rtspResponse, wp_onMatch, wp_bind, fullProtocol, wp_bind]
  refine wp_word_space h.cmd (by decide) (delimits_cons (by decide)) ?_
  rw [wp_bind]
  exact wp_lit_of_head_ne (hcolon (by decide)) trivial

/-- A packet is printed as an accepted normal form. -/
def PrintsNormalForm (pkt : RtspPacket) : Prop :=
  ∃ pkt', parse (toString pkt) = some pkt' ∧ toString pkt' = toString pkt

/-- **What has been accepted is printed as an accepted normal form, unless it is a request for
`/`.** -/
theorem printsNormalForm_iff {msg : Bytes} {pkt : RtspPacket} (h : parse msg = some pkt) :
    PrintsNormalForm pkt ↔ ¬ BareSlash msg := by
  have hparsed := parse_parsed h
  constructor
  · rintro ⟨pkt', hparse, -⟩ hbare
    exact parse_toString_of_slashHead (hparsed.slash hbare) hparse
  · intro hbare
    have hwf : WellFormed pkt := ⟨hparsed.ok hbare, hparsed.body⟩
    obtain ⟨pkt', hparse, hagrees⟩ := exists_parse_of_wp (wp_rtsp hwf)
    exact ⟨pkt', hparse, hagrees.toString_eq⟩

/-- A request without an option value. -/
def optionsRequest : Bytes :=
  ascii "OPTIONS rtsp://10.1.2.49:48010 RTSP/1.0\nCSeq: 1\nX-GS-ClientVersion: 14\nHost:\r\n\r\n"

def optionsPacket : RtspPacket where
  seqNumber := 1
  request := { cmd := ascii "OPTIONS", uri := ⟨ascii "rtsp", ascii "10.1.2.49", 48010⟩ }
  options := SortedMap.insert ∅ (ascii "X-GS-ClientVersion") (ascii "14")
    |>.insert (ascii "Host") []

theorem printsNormalForm_optionsPacket :
    PrintsNormalForm optionsPacket ↔ ¬ BareSlash optionsRequest :=
  printsNormalForm_iff (by decide +kernel)

/-- The target of the whole server. -/
def slashRequest : Bytes := ascii "OPTIONS / RTSP/1.0\r\nCSeq: 1\r\n\r\n"

def slashPacket : RtspPacket where
  seqNumber := 1
  request := { cmd := ascii "OPTIONS" }

/-- **Accepted, a request for `/` is printed as something that is not.** -/
theorem not_printsNormalForm_slash :
    ¬ ∀ msg pkt, parse msg = some pkt → PrintsNormalForm pkt := by
  intro h
  have hparse : parse slashRequest = some slashPacket := by decide +kernel
  have hprinted : parse (toString slashPacket) = none := by decide +kernel
  obtain ⟨pkt', hpkt', -⟩ := h _ _ hparse
  rw [hprinted] at hpkt'
  cases hpkt'

end SteamStream.Rtsp
