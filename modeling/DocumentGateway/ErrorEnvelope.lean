import DocumentGateway.Xml.Conversion

namespace DocumentGateway

/-!
# Error envelopes

A server reports failures in the body, whatever the status.  The body is then an XML element
`error-response`, or a JSON object with another object under `errorResponse`.  Bodies of the type
of XML are read as XML and all others as JSON; a body that cannot be read carries no error.
-/

/-- What a body in error says. -/
inductive ErrorEnvelope where
  | json (fields : Record)
  | xml (root : Xml.Element)

variable [Limits]

namespace ErrorEnvelope

/-- The envelope that a JSON value carries. -/
def ofValue? (body : Value) : Option ErrorEnvelope := do
  let fields ← body.fields?
  let inner ← (← fields.get? "errorResponse").fields?
  return json inner

/-- The envelope that an XML element is. -/
def ofElement? (root : Xml.Element) : Option ErrorEnvelope :=
  if root.localName = "error-response".toList then some (xml root) else none

/-- The envelope in a body, when the body can be read. -/
def read (r : Response) : Run (Option ErrorEnvelope) := do
  let text ← Run.ofExcept r.text
  if r.type = .xml then return ofElement? (← Xml.parse text)
  else return ofValue? (← Json.parse text)

/-- The envelope that a response carries. -/
def find (r : Response) : Run (Option ErrorEnvelope) := do
  return (← (read r).whenFormed).join

/-- The envelope that a response in error carries. -/
def require (r : Response) : Run ErrorEnvelope := do
  match ← find r with
  | some envelope => return envelope
  | none => Run.fail .notInError

/-- Write a value as JSON that is part of an answer. -/
def writeJson (layout : Json.Layout) (v : Value) : Run Text :=
  Run.ofExcept ((Json.write layout v).mapError .serialization)

/-- The message of an envelope, or the JSON of a message that is no text. -/
def message : ErrorEnvelope → Run Text
  | xml root =>
    match root.children.find? fun child => child.localName = "message".toList with
    | some child => pure child.textContent
    | none => pure []
  | json fields =>
    match fields.get? "message" with
    | none => pure []
    | some (.text t) => pure t
    | some v => writeJson .compactAscii v

/-- The whole of an envelope as text.  An XML envelope is the body that it comes in. -/
def detail (r : Response) : ErrorEnvelope → Run Text
  | xml _ => return (← Run.ofExcept r.text).trim
  | json fields => writeJson .pretty (.record fields)

end ErrorEnvelope

namespace Response

/-- Whether a response carries an error. -/
def isInError (r : Response) : Run Bool :=
  Run.timed .isInError do return (← ErrorEnvelope.find r).isSome

/-- The message of a response in error. -/
def errorMessage (r : Response) : Run Text :=
  Run.timed .errorMessage do (← ErrorEnvelope.require r).message

/-- Everything that a response in error says about it, as text. -/
def errorDetail (r : Response) : Run Text :=
  Run.timed .errorDetail do
    (← ErrorEnvelope.require r).detail r

/-- Go on only with a response that is not in error. -/
def requireSuccess (r : Response) : Run Unit := do
  if ← r.isInError then Run.fail (.inError (← r.errorMessage))

end Response

/-! ## Outcomes -/

/-- What a response means for a caller. -/
inductive Outcome where
  | success
  | applicationError
  | transportError
deriving DecidableEq

namespace Outcome

def all : List Outcome :=
  [success, applicationError, transportError]

def name : Outcome → String
  | success => "SUCCESS"
  | applicationError => "APPLICATION_ERROR"
  | transportError => "TRANSPORT_ERROR"

def value : Outcome → String
  | success => "success"
  | applicationError => "application_error"
  | transportError => "transport_error"

end Outcome

/-- The outcome of a response: an error in the body comes before one in the status. -/
def Response.outcome (r : Response) : Run Outcome := do
  if ← r.isInError then return .applicationError
  else if r.status.isError then return .transportError
  else return .success

end DocumentGateway
