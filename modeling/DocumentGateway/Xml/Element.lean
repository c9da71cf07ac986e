import DocumentGateway.Value.Basic
import DocumentGateway.Xml.Namespace

namespace DocumentGateway
namespace Xml

/-!
# Elements

An element has an expanded name, attributes in the order in which they were written, the text
before its first child, and its children, each followed by a tail of text.  Elements that callers
build may hold values that are no texts where texts are expected, and may have comments and
instructions among their children; elements that are read have neither.
-/

/-- A node of a tree of elements. -/
inductive Element where
  | node (tag : List Char) (attributes : OrderedPairs (List Char) (List Char))
      (text tail : Value) (children : List Element)
  | comment (content : List Char) (tail : Value)
  | instruction (content : List Char) (tail : Value)
deriving Inhabited

/-- The value that stands for a text that is read: nothing for an empty one. -/
def textValue : List Char → Value
  | [] => .null
  | content => .text (Text.ofChars content)

namespace Element

/-- The same node with another tail. -/
def withTail (tail : Value) : Element → Element
  | node tag attributes text _ children => node tag attributes text tail children
  | comment content _ => comment content tail
  | instruction content _ => instruction content tail

/-- The name of an element without its namespace. -/
def localName : Element → List Char
  | node tag _ _ _ _ => Xml.localName tag
  | comment _ _ => []
  | instruction _ _ => []

/-- The text before the first child, empty when there is none. -/
def textContent : Element → Text
  | node _ _ text _ _ => text.textOrEmpty
  | comment content _ => Text.ofChars content
  | instruction content _ => Text.ofChars content

def children : Element → List Element
  | node _ _ _ _ children => children
  | _ => []

mutual

/-- An element and everything in it, each element before its children. -/
def descendants : Element → List Element
  | e@(node _ _ _ _ children) => e :: descendantsOf children
  | e => [e]

def descendantsOf : List Element → List Element
  | [] => []
  | child :: rest => child.descendants ++ descendantsOf rest

end

end Element

/-- The text and the children read so far inside of an element, each child with the text behind
it. -/
structure Content where
  lead : List Char
  children : List (Element × List Char)

namespace Content

def empty : Content :=
  ⟨[], []⟩

/-- Content behind some text. -/
def behindText (text : List Char) (c : Content) : Content :=
  ⟨text ++ c.lead, c.children⟩

/-- Content behind a child. -/
def behindChild (child : Element) (c : Content) : Content :=
  ⟨[], (child, c.lead) :: c.children⟩

/-- Children and the text behind them, followed by more content. -/
def appendChildren (c : Content) : List (Element × List Char) → Content
  | [] => c
  | (child, tail) :: rest =>
    let more := appendChildren c rest
    ⟨[], (child, tail ++ more.lead) :: more.children⟩

/-- One content after another. -/
def append (front back : Content) : Content :=
  (back.appendChildren front.children).behindText front.lead

/-- The element with some content.  It has no tail yet. -/
def toElement (tag : List Char) (attributes : OrderedPairs (List Char) (List Char))
    (c : Content) : Element :=
  .node tag attributes (textValue c.lead) .null
    (c.children.map fun child => child.1.withTail (textValue child.2))

end Content

end Xml
end DocumentGateway
