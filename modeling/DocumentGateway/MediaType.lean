import DocumentGateway.Text.Blank

namespace DocumentGateway

/-!
# Media types

The value of a content type header says how a body is to be read.  Only the first pair of a major
and a minor type in it counts, wherever it stands and whatever follows it; a value without any
pair says as little as an absent one.  The type of a document is kept bare, without parameters.
-/

/-- The ways of reading a body. -/
inductive BodyType where
  | json
  | xml
  | text
  | binary
  | unknown
deriving DecidableEq

namespace BodyType

def all : List BodyType :=
  [json, xml, text, binary, unknown]

def name : BodyType → String
  | json => "JSON"
  | xml => "XML"
  | text => "TEXT"
  | binary => "BINARY"
  | unknown => "UNKNOWN_TYPE"

def value : BodyType → String
  | json => "json"
  | xml => "xml"
  | text => "text"
  | binary => "binary"
  | unknown => "unknown"

/-- The body type as messages show it. -/
def shown (t : BodyType) : String :=
  "ResponseType." ++ t.name

end BodyType

namespace MediaType

def json : Text := "application/json"

def xml : Text := "application/xml"

def plainText : Text := "text/plain"

def octets : Text := "application/octet-stream"

/-- The characters that major and minor types are made of. -/
def isWordChar : CodePoint → Bool
  | .scalar c => c.isAlpha || c == '.'
  | .surrogate _ => false

/-- The first pair in a text that comes right behind a word. -/
def firstPairBehind? : (word : Text) → Text → Option (Text × Text)
  | _, [] => none
  | word, p :: rest =>
    if isWordChar p then firstPairBehind? (word ++ [p]) rest
    else if p = .scalar '/' && !word.isEmpty && rest.head?.any isWordChar then
      some (word, rest.takeWhile isWordChar)
    else firstPairBehind? [] rest

/-- The first major and minor type in a text, parted by a slash, both as long as possible. -/
def firstPair? (t : Text) : Option (Text × Text) :=
  firstPairBehind? [] t

/-- How bodies of a major and minor type are read. -/
def pairType (pair : Text × Text) : BodyType :=
  if pair.1 = "application" || pair.1 = "text" then
    if pair.2 = "json" then .json
    else if pair.2 = "html" || pair.2 = "xml" then .xml
    else if pair.2 = "plain" then .text
    else .binary
  else .binary

/-- How a body with a content type is read. -/
def classify (t : Text) : BodyType :=
  (firstPair? t).elim .binary pairType

/-- A media type without its parameters. -/
def bare (t : Text) : Text :=
  Text.trim (t.takeWhile (· ≠ .scalar ';'))

end MediaType

end DocumentGateway
