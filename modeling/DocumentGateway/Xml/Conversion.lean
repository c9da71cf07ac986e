import DocumentGateway.Json.Conversion
import DocumentGateway.Xml.Reader

namespace DocumentGateway
namespace Xml

/-!
# XML documents and bodies

Elements are read from texts, documents and responses, and written into documents.  A text that is
not XML is reported before it is refused; one that has no UTF-8 form is not looked at.
-/

/-- Read a text. -/
def parse (t : Text) : Run Element :=
  match read t with
  | .ok e => pure e
  | .error (.encoding fault) => Run.fail (.unencodable fault)
  | .error (.misplaced cause line column) => do
    Run.debug (refusalLine .xml (ReadFault.misplaced cause line column).message t)
    Run.malformed (.xml cause line column)

/-- What is asked to be written as XML: an element, or something of another kind. -/
inductive Subject where
  | element (e : Element)
  | other (kind : String)

variable [Limits]

/-- Write an element into a document. -/
def writeDocument (e : Element) : Run Document :=
  match write e with
  | .ok t => pure (.make (.text t) MediaType.xml)
  | .error fault => Run.fail (.element fault)

/-- The document that an element is written into. -/
def toDocument (subject : Subject) : Run Document :=
  Run.timed .elementToDocument
    (match subject with
    | .element e => writeDocument e
    | .other kind => Run.malformed (.notElement kind))

/-- The document that the element in a response is written into, whatever the type of the
response. -/
def bodyToDocument (r : Response) : Run Document :=
  Run.timed .elementToDocument do writeDocument (← parse (← Run.ofExcept r.text))

/-- The element in a document. -/
def ofDocument (d : Document) (isTypeChecked : Bool) : Run Element :=
  Run.timed .elementOfDocument do parse (← Run.ofExcept (d.textIn .xml isTypeChecked))

/-- The element in a response that is of the type of XML. -/
def ofResponse (r : Response) : Run Element :=
  Run.timed .elementOfResponse do parse (← Run.ofExcept (r.textIn .xml))

end Xml
end DocumentGateway
