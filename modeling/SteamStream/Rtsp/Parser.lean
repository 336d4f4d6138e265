import SteamStream.Library.CText
import SteamStream.Library.Peg
import SteamStream.Library.SortedMap

/-!
# RTSP messages

`rtsp::parse` and `rtsp::to_string`. The grammar is that of the source, rule by rule and under the
names it has there; a rule's action stands with the rule. cpp-peglib itself is `Peg`: ordered
choice, and white space skipped after every literal and token. Its memoisation is left out, since no
rule with an action is tried twice at the same place.

An action that has run is not undone: the head of a response leaves a `cmd` behind, and a stream
target a `protocol`. Both are left in the packet, and not printed.
-/

namespace SteamStream.Rtsp

open Wire CText Peg Expr

/-! ### Packets -/

inductive PacketType | request | response
  deriving DecidableEq, Repr

inductive TargetType | uri | stream
  deriving DecidableEq, Repr

structure Uri where
  protocol : Bytes := []
  ip : Bytes := []
  port : UInt16 := 0
  deriving DecidableEq

structure Stream where
  type : Bytes := []
  params : Bytes := []
  deriving DecidableEq

structure RtspRequest where
  cmd : Bytes := []
  type : TargetType := .uri
  uri : Uri := {}
  stream : Stream := {}
  deriving DecidableEq

structure RtspResponse where
  statusCode : UInt16 := 0
  msg : Bytes := []
  deriving DecidableEq

structure RtspPacket where
  type : PacketType := .request
  /-- An `int`. -/
  seqNumber : ℤ := 0
  request : RtspRequest := {}
  response : RtspResponse := {}
  options : SortedMap Bytes Bytes := ∅
  payloads : List (Bytes × Bytes) := []
  deriving DecidableEq

/-! ### Classes of characters -/

/-- `[a-z]i`. -/
def isLetter (c : UInt8) : Bool := (97 ≤ c && c ≤ 122) || (65 ≤ c && c ≤ 90)

/-- `[a-zA-Z ]`. -/
def isMsgChar (c : UInt8) : Bool := isLetter c || c = 32

/-- `[0-9/]`. -/
def isParamsChar (c : UInt8) : Bool := isDigit c || c = 47

/-- `[0-9.]`. -/
def isNumberChar (c : UInt8) : Bool := isDigit c || c = 46

/-- `[a-zA-Z0-9-_]`. -/
def isKeyChar (c : UInt8) : Bool := isLetter c || isDigit c || c = 45 || c = 95

/-- `[a-zA-Z0-9-_./;=, :]`. -/
def isOptValChar (c : UInt8) : Bool := isKeyChar c || c ∈ ascii "./;=, :"

/-- `[a-zA-Z0-9-_./[\]\\:  =]`. -/
def isPayloadValChar (c : UInt8) : Bool := isKeyChar c || c ∈ ascii "./[]\\: ="

/-- `%whitespace`. -/
def whitespace (c : UInt8) : Bool := c = 32 || c = 9

/-! ### The grammar -/

/-- `token_to_number`: the digits a token starts with, `0` for a number that does not fit. -/
def tokenToNumber (limit : ℕ) (token : Bytes) : ℕ :=
  let number := digitsValue (token.takeWhile isDigit)
  if number < limit then number else 0

/-- A rule of the grammar. -/
abbrev Rule (α : Type) : Type := Expr RtspPacket α

namespace Grammar

/-- A quoted literal. -/
def quoted (text : String) : Rule Unit := lit whitespace (ascii text)

/-- `< [...]+ >`. -/
def word (c : UInt8 → Bool) : Rule Bytes := token whitespace (chars c)

def cr : Rule Unit := lit whitespace [13]

def lf : Rule Unit := lit whitespace [10]

def endLine : Rule Unit := do
  cr.opt
  lf

def cmd : Rule Bytes :=
  (word isLetter).onMatch fun token pkt => { pkt with request.cmd := token }

def responseCode : Rule Bytes :=
  (word isDigit).onMatch fun token pkt =>
    { pkt with response.statusCode := UInt16.ofNat (tokenToNumber (2 ^ 16) token) }

def responseMsg : Rule Bytes :=
  (word isMsgChar).onMatch fun token pkt => { pkt with response.msg := token }

def streamType : Rule Bytes :=
  (word isLetter).onMatch fun token pkt => { pkt with request.stream.type := token }

def streamParams : Rule Bytes :=
  (word isParamsChar).onMatch fun token pkt => { pkt with request.stream.params := token }

def stream : Rule Unit :=
  Expr.onMatch (do
    chars isLetter
    quoted "="
    let _ ← streamType
    let _ ← streamParams) fun _ pkt => { pkt with request.type := .stream }

def protocol : Rule Bytes :=
  (word isLetter).onMatch fun token pkt => { pkt with request.uri.protocol := token }

def ip : Rule Bytes :=
  (word isNumberChar).onMatch fun token pkt => { pkt with request.uri.ip := token }

def port : Rule Bytes :=
  (word isDigit).onMatch fun token pkt =>
    { pkt with request.uri.port := UInt16.ofNat (tokenToNumber (2 ^ 16) token) }

def uri : Rule Unit :=
  Expr.onMatch (do
    let _ ← protocol
    quoted "://"
    ip.opt
    quoted ":"
    let _ ← port) fun _ pkt => { pkt with request.type := .uri }

def target : Rule Unit := (uri.orElse stream).orElse (quoted "/")

def fProtocol : Rule Bytes := word isLetter

def fVersion : Rule Bytes := word isNumberChar

def fullProtocol : Rule Unit := do
  let _ ← fProtocol
  quoted "/"
  let _ ← fVersion

def rtspRequest : Rule Unit :=
  Expr.onMatch (do
    let _ ← cmd
    target
    fullProtocol) fun _ pkt => { pkt with type := .request }

def rtspResponse : Rule Unit :=
  Expr.onMatch (do
    fullProtocol
    let _ ← responseCode
    let _ ← responseMsg) fun _ pkt => { pkt with type := .response }

def cSeq : Rule Bytes :=
  Expr.onMatch (do
    quoted "CSeq:"
    let token ← word isNumberChar
    endLine.opt
    return token) fun token pkt => { pkt with seqNumber := tokenToNumber (2 ^ 31) token }

/-- `KEY sep VAL ENDLINE?`. -/
def pair (sep : String) (key val : Rule Bytes) : Rule (Bytes × Bytes) := do
  let key ← key
  quoted sep
  let val ← val
  endLine.opt
  return (key, val)

/-- `< [...]+ > / ''`. The empty alternative is no token: its text is all it matched. -/
def value (c : UInt8 → Bool) : Rule Bytes := (word c).orElse (quoted "").matched

def optKey : Rule Bytes := word isKeyChar

def optVal : Rule Bytes := value isOptValChar

def option : Rule (Bytes × Bytes) :=
  (pair ":" optKey optVal).onMatch fun (key, val) pkt =>
    { pkt with options := pkt.options.insert key val }

def payloadKey : Rule Bytes := word isKeyChar

def payloadVal : Rule Bytes := value isPayloadValChar

def payload : Rule (Bytes × Bytes) :=
  (pair "=" payloadKey payloadVal).onMatch fun (key, val) pkt =>
    { pkt with payloads := pkt.payloads ++ [(key, val)] }

def rubbish : Rule Bytes := token whitespace anyChar.plus

def rtsp : Rule Unit := do
  rtspRequest.orElse rtspResponse
  endLine
  let _ ← cSeq
  option.star
  endLine.opt
  payload.star
  rubbish.opt

end Grammar

/-- `rtsp::parse`. -/
def parse (msg : Bytes) : Option RtspPacket := Expr.parse whitespace Grammar.rtsp {} msg

/-! ### Printing -/

/-- An `int` in a stream. -/
def printInt (n : ℤ) : Bytes := sign (n < 0) ++ toDecimal n.natAbs

def endl : Bytes := [13, 10]

/-- The target of a request. -/
def printTarget (request : RtspRequest) : Bytes :=
  match request.type with
  | .uri => request.uri.protocol ++ ascii "://" ++ request.uri.ip ++ ascii ":" ++
      toDecimal request.uri.port.toNat
  | .stream => ascii "streamid=" ++ request.stream.type ++ request.stream.params

/-- The first line of a packet. -/
def printHead (pkt : RtspPacket) : Bytes :=
  match pkt.type with
  | .request => pkt.request.cmd ++ ascii " " ++ printTarget pkt.request ++ ascii " RTSP/1.0"
  | .response =>
    ascii "RTSP/1.0 " ++ toDecimal pkt.response.statusCode.toNat ++ ascii " " ++ pkt.response.msg

/-- One payload; a payload without a key is its value alone. -/
def printPayload (pay : Bytes × Bytes) : Bytes :=
  if pay.1 = [] then pay.2 ++ endl else pay.1 ++ ascii "=" ++ pay.2 ++ endl

/-- `rtsp::to_string`. -/
def toString (pkt : RtspPacket) : Bytes :=
  printHead pkt ++ endl ++ ascii "CSeq: " ++ printInt pkt.seqNumber ++
    pkt.options.entries.flatMap (fun opt => endl ++ opt.1 ++ ascii ": " ++ opt.2) ++
    endl ++ endl ++ pkt.payloads.flatMap printPayload

end SteamStream.Rtsp
