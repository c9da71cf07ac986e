import DocumentGateway.Headers
import DocumentGateway.Run
import DocumentGateway.StatusCode

namespace DocumentGateway

/-!
# Responses

A response has a status, headers, a body, and a type that says how the body is read.  The type
follows the headers each time they are set and can be set to another one afterwards.  A body is
kept as it was set, as text or as octets, and read as either.
-/

/-- The body of a response. -/
inductive Body where
  | text (t : Text)
  | octets (bytes : Bytes)
deriving DecidableEq

namespace Body

/-- The body that a value is.  An absent value empties the body. -/
def ofValue? : Value → Option Body
  | .text t => some (text t)
  | .bytes b => some (octets b)
  | .buffer b => some (octets b)
  | .null => some (octets [])
  | _ => none

def toValue : Body → Value
  | text t => .text t
  | octets bytes => .bytes bytes

end Body

/-- A response. -/
structure Response where
  status : StatusCode
  type : BodyType
  headers : Headers
  body : Body
deriving DecidableEq

namespace Response

/-- The response before anything is known about it. -/
def blank : Response :=
  ⟨.unknown, .unknown, [], .text []⟩

def setStatus (r : Response) (status : Int) : Response :=
  { r with status := .ofStatus status }

/-- Replace the headers by those that result from writing pairs one after the other, and let the
type follow them. -/
def withHeaders (r : Response) (pairs : List (Text × Text)) : Response :=
  let headers : Headers := OrderedPairs.ofPairs pairs
  { r with headers := headers, type := headers.bodyType }

/-- What is reported about the headers of a response. -/
def headersLine (r : Response) : Text :=
  let shownType := match r.headers.contentType? with
    | some contentType => contentType.quoted
    | none => "None".toList
  "@@@>> CONTENT-TYPE: " ++ Text.ofChars shownType ++ Text.ofString " :: TYPE: " ++
    Text.ofString r.type.shown

/-- Replace the headers, let the type follow them, and report about it. -/
def setHeaders (r : Response) (pairs : List (Text × Text)) : Run Response := do
  let changed := r.withHeaders pairs
  Run.debug changed.headersLine
  return changed

def setBody (r : Response) (body : Body) : Response :=
  { r with body := body }

/-- The body as text. -/
def text (r : Response) : Except Fault Text :=
  match r.body with
  | .text t => .ok t
  | .octets bytes =>
    match Utf8.decode bytes with
    | .ok chars => .ok (Text.ofChars chars)
    | .error fault => .error (.format (.bodyNotUtf8 fault))

/-- The body as octets. -/
def octets (r : Response) : Except Fault Bytes :=
  match r.body with
  | .text t => (Encoding.utf8.encode t).mapError .unencodable
  | .octets bytes => .ok bytes

/-- Copy octets of the body, from an offset on and at most a number of them, to the front of a
buffer.  The result is the number of octets copied and the buffer afterwards. -/
def read (r : Response) (buffer : Bytes) (maxSize offset : Int) : Except Fault (Nat × Bytes) :=
  if offset < 0 ∨ maxSize < 0 then .error .negativeRange
  else do
    let bytes ← r.octets
    let chunk := (bytes.drop offset.toNat).take (min maxSize.toNat buffer.length)
    return (chunk.length, chunk ++ buffer.drop chunk.length)

/-- The response as messages show it. -/
def shown (r : Response) : String :=
  "<Response [" ++ toString r.status.value ++ " " ++ r.type.shown ++ "]>"

/-- The text of a body in a format.  The response has to be of the type of the format. -/
def textIn (r : Response) (format : Format) : Except Fault Text :=
  if r.type = format.bodyType then r.text
  else .error (.format (.responseType r.type format))

end Response

/-! ## Replies -/

/-- What a server sends back. -/
structure Reply where
  status : Int
  headers : List (Text × Text)
  body : Bytes
deriving DecidableEq

/-- The response that a reply is.  The names of its headers come in lower case. -/
def Response.ofReply (reply : Reply) : Run Response := do
  let pairs := reply.headers.map fun header => (Headers.lowerCase header.1, header.2)
  let r ← (blank.setStatus reply.status).setHeaders pairs
  return r.setBody (.octets reply.body)

end DocumentGateway
