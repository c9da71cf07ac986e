import DocumentGateway.Document
import DocumentGateway.Json.Printer
import DocumentGateway.Json.Reader
import DocumentGateway.Response

namespace DocumentGateway

/-- The line reported about a text that is refused, with the beginning of the text. -/
def refusalLine (format : Format) (reason : String) (t : Text) : Text :=
  "@@@>> INVALID " ++ Text.ofString format.name ++ Text.ofString (": " ++ reason ++ " :: ") ++
    Text.ofChars (t.quoted.take 200)

namespace Json

/-!
# JSON documents and bodies

Values are read from texts, documents and responses, and written into documents.  A text that is
not JSON is reported before it is refused.
-/

variable [Limits]

/-- Read a text. -/
def parse (t : Text) : Run Value :=
  match read t with
  | .ok v => pure v
  | .error (.malformed fault) => do
    Run.debug (refusalLine .json fault.message t)
    Run.malformed (.json fault)
  | .error (.tooDeep container) => Run.fail (.tooDeep container)

/-- Write a value into a document. -/
def writeDocument (v : Value) : Run Document :=
  match write .compact v with
  | .ok t => pure (.make (.text t) MediaType.json)
  | .error fault => Run.malformed (.notSerializable fault)

/-- The document that a value is written into. -/
def toDocument (v : Value) : Run Document :=
  (writeDocument v).timed .valueToDocument

/-- The document that the value in a response is written into, whatever the type of the
response. -/
def bodyToDocument (r : Response) : Run Document :=
  Run.timed .valueToDocument do writeDocument (← parse (← Run.ofExcept r.text))

/-- The value in a document. -/
def ofDocument (d : Document) (isTypeChecked : Bool) : Run Value :=
  Run.timed .valueOfDocument do parse (← Run.ofExcept (d.textIn .json isTypeChecked))

/-- The value in a response that is of the type of JSON. -/
def ofResponse (r : Response) : Run Value :=
  Run.timed .valueOfResponse do parse (← Run.ofExcept (r.textIn .json))

end Json
end DocumentGateway
