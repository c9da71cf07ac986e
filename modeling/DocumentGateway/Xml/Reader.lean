import DocumentGateway.Xml.Content
import DocumentGateway.Xml.Prolog.Grammar
import DocumentGateway.Xml.WideText

namespace DocumentGateway
namespace Xml

/-!
# Reading XML

A text is read as one element, with a prolog before it and nothing but comments, instructions and
white space behind it.
-/

/-- The steps that nested reading may take: one for each character of the text and of the texts
of its entities, and one more for each element. -/
def readingBudget (d : Declarations) (t : List Char) : Nat :=
  2 * (t.length + d.entitySize) + 2

/-- A text that consists of one element. -/
def readDocument (f : TextForm) (t : List Char) : Reading Element := do
  let (d, root) ← Prolog.read f t
  match ← scanToken f root with
  | (.startTag tag, behind) =>
    countToken f [] root (.startTag tag) behind
    let (element, following) ←
      readElement d (readingBudget d root) f [] Scope.outermost root tag behind
    Prolog.readEpilog f (following.length + 1) following
    return element
  | _ => stop .noElement root

/-- Read characters that came in a form.  Nothing is counted before. -/
def readChars (f : TextForm) (t : List Char) : Except ReadFault Element :=
  match (readDocument f t).run (.start (f.octets t)) with
  | .ok (e, _) => .ok e
  | .error s => .error (s.fault t)

/-- Read a text as an XML element.  A text without UTF-8 form is not looked at. -/
def read (t : Text) : Except ReadFault Element := do
  let octets ← (Encoding.utf8.encode t).mapError ReadFault.encoding
  match octetOrder? octets with
  | some order => readChars (wideForm octets) (order.chars octets)
  | none => readChars .narrow ((t.filterMap CodePoint.char?).map uncut)

end Xml
end DocumentGateway
