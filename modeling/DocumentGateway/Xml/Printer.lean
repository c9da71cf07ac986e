import DocumentGateway.Limits
import DocumentGateway.Value.Shown
import DocumentGateway.Xml.Element

namespace DocumentGateway
namespace Xml

/-!
# Writing XML

Elements are written without a declaration and without white space of their own.  Every namespace
that occurs is bound to a prefix on the outermost element: some well-known ones to prefixes of
their own, the others to `ns0`, `ns1` and so on in the order of their first occurrence.  An element
with neither text nor children is written as one tag.  An element that stands in too many others is
not written.
-/

/-- Why an element cannot be written: a name opens a brace that it does not close, a value that is
no text stands where a text is expected, or elements are nested too deeply. -/
inductive WriteFault where
  | openBrace
  | value (v : Value)
  | collection (kind : String)
  | tooDeep

def WriteFault.message : WriteFault → String
  | openBrace => "not enough values to unpack (expected 2, got 1)"
  | value v => "cannot serialize " ++ String.ofList v.shown ++ " (type " ++ v.kindName ++ ")"
  | collection kind => "string argument expected, got '" ++ kind ++ "'"
  | tooDeep => "maximum recursion depth exceeded while calling a Python object"

/-! ## Names -/

/-- The prefixes of namespaces, in the order of their first occurrence. -/
abbrev Prefixes := List (List Char × List Char)

/-- The namespaces that have prefixes of their own. -/
def wellKnownPrefixes : Prefixes := [
  ("http://www.w3.org/XML/1998/namespace", "xml"), ("http://www.w3.org/1999/xhtml", "html"),
  ("http://www.w3.org/1999/02/22-rdf-syntax-ns#", "rdf"),
  ("http://schemas.xmlsoap.org/wsdl/", "wsdl"), ("http://www.w3.org/2001/XMLSchema", "xs"),
  ("http://www.w3.org/2001/XMLSchema-instance", "xsi"),
  ("http://purl.org/dc/elements/1.1/", "dc")].map fun known => (known.1.toList, known.2.toList)

/-- The namespace of an expanded name, if it has one. -/
def uriOf (name : List Char) : Except WriteFault (Option (List Char)) :=
  match name with
  | '\x7b' :: rest =>
    if rest.contains '\x7d' then
      .ok (some (rest.take (rest.length - (localName rest).length - 1)))
    else .error .openBrace
  | _ => .ok none

namespace Prefixes

def assigned? (prefixes : Prefixes) (uri : List Char) : Option (List Char) :=
  (prefixes.find? fun known => known.1 = uri).map (·.2)

/-- The prefix that a namespace has, or gets when it is new. -/
def prefixFor (prefixes : Prefixes) (uri : List Char) : List Char :=
  match prefixes.assigned? uri with
  | some known => known
  | none =>
    match wellKnownPrefixes.assigned? uri with
    | some known => known
    | none => 'n' :: 's' :: decimalDigits prefixes.length

/-- Give a namespace its prefix.  The prefix `xml` needs no binding. -/
def addUri (prefixes : Prefixes) (uri : List Char) : Prefixes :=
  let chosen := prefixes.prefixFor uri
  if (prefixes.assigned? uri).isSome || chosen = "xml".toList then prefixes
  else prefixes ++ [(uri, chosen)]

/-- Give the namespaces of some names their prefixes. -/
def addNames (prefixes : Prefixes) (names : List (List Char)) : Except WriteFault Prefixes :=
  names.foldlM (fun known name => return (← uriOf name).elim known known.addUri) prefixes

/-- A name as it is written. -/
def spell (prefixes : Prefixes) (name : List Char) : List Char :=
  match uriOf name with
  | .ok (some uri) => prefixes.prefixFor uri ++ ':' :: localName name
  | _ => name

end Prefixes

/-- The names of an element and of its attributes. -/
def Element.ownNames : Element → List (List Char)
  | node tag attributes _ _ _ => tag :: attributes.keys
  | _ => []

/-! ## Texts -/

/-- A character of a text between tags. -/
def escapeText : CodePoint → Text
  | .scalar '&' => Text.ofString "&amp;"
  | .scalar '<' => Text.ofString "&lt;"
  | .scalar '>' => Text.ofString "&gt;"
  | p => [p]

/-- A character of an attribute value.  White space other than the space is kept by number. -/
def escapeAttribute : Char → List Char
  | '&' => "&amp;".toList
  | '<' => "&lt;".toList
  | '>' => "&gt;".toList
  | '"' => "&quot;".toList
  | '\r' => "&#13;".toList
  | '\n' => "&#10;".toList
  | '\t' => "&#09;".toList
  | c => [c]

/-- Whether a text is one of the characters that need escaping between tags. -/
def isEscaped (t : Text) : Bool :=
  t = Text.ofString "&" || t = Text.ofString "<" || t = Text.ofString ">"

/-- A collection in place of a text.  It is refused in any case; one that holds a character that
needs escaping as a member is refused like any other value. -/
def refuseCollection (v : Value) (members : List Text) : Except WriteFault Text :=
  .error (if members.any isEscaped then .value v else .collection v.kindName)

/-- A value between tags.  A value that holds nothing is not written. -/
def writeSlot (v : Value) : Except WriteFault Text :=
  if !v.isFilled then .ok []
  else
    match v with
    | .text t => .ok (t.flatMap escapeText)
    | .list items => refuseCollection v (items.map Value.textOrEmpty)
    | .tuple items => refuseCollection v (items.map Value.textOrEmpty)
    | .cyclic items => refuseCollection v (items.map Value.textOrEmpty)
    | .record fields => refuseCollection v (fields.map (·.1.toValue.textOrEmpty))
    | .mapping entries => refuseCollection v (entries.map (·.1.toValue.textOrEmpty))
    | _ => .error (.value v)

/-! ## Elements -/

def writeAttribute (name value : List Char) : List Char :=
  ' ' :: name ++ '=' :: '"' :: value.flatMap escapeAttribute ++ ['"']

/-- The bindings of all prefixes, sorted by prefix. -/
def writeBindings (prefixes : Prefixes) : List Char :=
  (prefixes.mergeSort fun a b => !List.lex b.2 a.2 fun c d => c.toNat < d.toNat).flatMap fun known =>
    writeAttribute ("xmlns:".toList ++ known.2) known.1

mutual

/-- Write a node.  The room is how many nodes may stand one in another, and the given bindings go to
the start tag. -/
def writeNode (prefixes : Prefixes) (bindings : List Char) :
    (room : Nat) → Element → Except WriteFault Text
  | 0, _ => .error .tooDeep
  | _ + 1, .comment content tail => do
    return Text.ofString "<!--" ++ Text.ofChars content ++ Text.ofString "-->" ++
      (← writeSlot tail)
  | _ + 1, .instruction content tail => do
    return Text.ofString "<?" ++ Text.ofChars content ++ Text.ofString "?>" ++ (← writeSlot tail)
  | room + 1, .node tag attributes text tail children => do
    let name := prefixes.spell tag
    let start := '<' :: name ++ bindings ++
      attributes.flatMap fun pair => writeAttribute (prefixes.spell pair.1) pair.2
    if text.isFilled || !children.isEmpty then
      let written ← writeSlot text
      let inner ← writeNodes prefixes room children
      return Text.ofChars (start ++ ['>']) ++ written ++ inner ++
        Text.ofChars ('<' :: '/' :: name ++ ['>']) ++ (← writeSlot tail)
    else return Text.ofChars (start ++ [' ', '/', '>']) ++ (← writeSlot tail)

def writeNodes (prefixes : Prefixes) (room : Nat) : List Element → Except WriteFault Text
  | [] => .ok []
  | child :: rest => do
    let written ← writeNode prefixes [] room child
    return written ++ (← writeNodes prefixes room rest)

end

/-- Write an element. -/
def write [Limits] (e : Element) : Except WriteFault Text := do
  let prefixes ← Prefixes.addNames [] (e.descendants.flatMap Element.ownNames)
  writeNode prefixes (writeBindings prefixes) Limits.elements e

end Xml
end DocumentGateway
