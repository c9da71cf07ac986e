import DocumentGateway.Text.Encoding

namespace DocumentGateway
namespace Xml

/-!
# What can be wrong with XML

Reading stops at the first thing that is wrong.  Until the end of reading, the place is kept as
the text from there on; then it is turned into a line, counted from one, and a column, counted
from zero.  A line ends at a line feed, at a carriage return, or at both in a row.
-/

/-- What is wrong at a place. -/
inductive Cause where
  | syntaxError
  | noElement
  | invalidToken
  | unclosedToken
  | partialCharacter
  | mismatchedTag
  | duplicateAttribute
  | junkBehindElement
  | parameterReference
  | undefinedEntity
  | recursiveEntity
  | asynchronousEntity
  | characterNumber
  | binaryEntity
  | externalEntityInAttribute
  | misplacedDeclaration
  | openCdata
  | unboundPrefix
  | emptyPrefixUri
  | declaration
  | publicId
  | reservedXml
  | reservedXmlns
  | reservedUri
  | excessiveExpansion
  | unknownEntity (reference : List Char)
deriving DecidableEq

/-- The characters whose UTF-8 form fits into a number of octets.  A character that is cut is
shown as a replacement character. -/
def cutToOctets : (octets : Nat) → List Char → List Char
  | _, [] => []
  | 0, _ => []
  | octets + 1, c :: rest =>
    if c.utf8Size ≤ octets + 1 then c :: cutToOctets (octets + 1 - c.utf8Size) rest
    else ['\uFFFD']
termination_by _ s => s.length

def Cause.text : Cause → String
  | syntaxError => "syntax error"
  | noElement => "no element found"
  | invalidToken => "not well-formed (invalid token)"
  | unclosedToken => "unclosed token"
  | partialCharacter => "partial character"
  | mismatchedTag => "mismatched tag"
  | duplicateAttribute => "duplicate attribute"
  | junkBehindElement => "junk after document element"
  | parameterReference => "illegal parameter entity reference"
  | undefinedEntity => "undefined entity"
  | recursiveEntity => "recursive entity reference"
  | asynchronousEntity => "asynchronous entity"
  | characterNumber => "reference to invalid character number"
  | binaryEntity => "reference to binary entity"
  | externalEntityInAttribute => "reference to external entity in attribute"
  | misplacedDeclaration => "XML or text declaration not at start of entity"
  | openCdata => "unclosed CDATA section"
  | unboundPrefix => "unbound prefix"
  | emptyPrefixUri => "must not undeclare prefix"
  | declaration => "XML declaration not well-formed"
  | publicId => "illegal character(s) in public id"
  | reservedXml =>
    "reserved prefix (xml) must not be undeclared or bound to another namespace name"
  | reservedXmlns => "reserved prefix (xmlns) must not be declared or undeclared"
  | reservedUri => "prefix must not be bound to one of the reserved namespace names"
  | excessiveExpansion =>
    "limit on input amplification factor (from DTD and entities) breached"
  | unknownEntity reference => "undefined entity " ++ String.ofList (cutToOctets 100 reference)

/-- Why reading stopped, with the text from the failing place on. -/
structure Stop where
  cause : Cause
  remaining : List Char
deriving DecidableEq

/-- The same stop at another place. -/
def Stop.movedTo (place : List Char) (s : Stop) : Stop :=
  ⟨s.cause, place⟩

/-- A stop inside of a part of a text, seen from the whole text. -/
def Stop.before (following : List Char) (s : Stop) : Stop :=
  ⟨s.cause, s.remaining ++ following⟩

/-- Stop at a text. -/
def stop (cause : Cause) (remaining : List Char) : Except Stop α :=
  .error ⟨cause, remaining⟩

/-- The line and the column right behind some text. -/
def lineAndColumn : (line column : Nat) → List Char → Nat × Nat
  | line, column, [] => (line, column)
  | line, _, '\r' :: '\n' :: rest => lineAndColumn (line + 1) 0 rest
  | line, column, c :: rest =>
    if c = '\r' || c = '\n' then lineAndColumn (line + 1) 0 rest
    else lineAndColumn line (column + 1) rest

/-- Why a text is not XML: it has no UTF-8 form, or something is wrong at a place. -/
inductive ReadFault where
  | encoding (fault : EncodingFault)
  | misplaced (cause : Cause) (line column : Nat)
deriving DecidableEq

def ReadFault.message : ReadFault → String
  | encoding fault => fault.message
  | misplaced cause line column =>
    cause.text ++ ": line " ++ toString line ++ ", column " ++ toString column

/-- The fault that a stop is in the text being read. -/
def Stop.fault (t : List Char) (s : Stop) : ReadFault :=
  let (line, column) := lineAndColumn 1 0 (t.take (t.length - s.remaining.length))
  .misplaced s.cause line column

end Xml
end DocumentGateway
