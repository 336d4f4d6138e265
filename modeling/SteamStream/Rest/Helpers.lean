import SteamStream.Library.CText

/-!
# Requests and replies

What the HTTP and HTTPS handlers share: the query as the case-insensitive multimap the web
server parses it into, and the XML documents they answer with.
-/

namespace SteamStream.Rest

open Wire CText

/-- `tolower`. -/
def toLower (c : UInt8) : UInt8 := if 65 ≤ c ∧ c ≤ 90 then c + 32 else c

/-- The key comparison of the multimap. -/
def caseInsensitiveEqual (a b : Bytes) : Bool := a.map toLower = b.map toLower

/-- A `CaseInsensitiveMultimap`, in the order it is searched. -/
abbrev Query := List (Bytes × Bytes)

/-- `get_header`: the value of the first entry under the key. -/
def getHeader (headers : Query) (key : String) : Option Bytes :=
  (headers.find? fun h => caseInsensitiveEqual h.1 (ascii key)).map Prod.snd

/-- The values put under the root of an XML document, by path. -/
abbrev Xml := List (String × Bytes)

/-- A reply: the HTTP status and the document. -/
structure Reply where
  statusCode : ℕ
  xml : Xml
  deriving DecidableEq, Repr

/-- `fail_pair`. -/
def failPair (statusMsg : Bytes) : Xml :=
  [("paired", toDecimal 0), ("<xmlattr>.status_code", toDecimal 400),
    ("<xmlattr>.status_message", statusMsg)]

end SteamStream.Rest
