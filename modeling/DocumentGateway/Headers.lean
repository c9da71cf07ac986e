import DocumentGateway.MediaType
import DocumentGateway.Value.OrderedPairs

namespace DocumentGateway

/-!
# Headers

Names of headers are kept as they are given and are told apart by case.  A name that is given
again keeps its place and takes the later value.  Only the content type is looked up under other
spellings.
-/

abbrev Headers := OrderedPairs Text Text

namespace Headers

/-- A text with its ASCII letters in lower case. -/
def lowerCase (t : Text) : Text :=
  t.map fun p =>
    match p with
    | .scalar c => .scalar c.toLower
    | .surrogate _ => p

/-- The value of the content type: under its usual spelling, else with only its first letter a
capital, else under the first name that is the same in lower case. -/
def contentType? (headers : Headers) : Option Text :=
  headers.get? "Content-Type" <|> headers.get? "Content-type" <|>
    (headers.find? fun header => lowerCase header.1 = "content-type").map (·.2)

/-- How a body with these headers is read. -/
def bodyType (headers : Headers) : BodyType :=
  headers.contentType?.elim .binary MediaType.classify

end Headers

end DocumentGateway
