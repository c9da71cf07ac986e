import DocumentGateway.Text.CodePoint

namespace DocumentGateway
namespace Json

/-!
# What can be wrong with JSON

A text that is not JSON is refused at one place, with what was expected or found there.  Places
count code points: the offset from zero, lines and columns from one.  An integer literal of too
many digits is refused without a place.
-/

/-- What is wrong at a place. -/
inductive Cause where
  | byteOrderMark
  | value
  | memberName
  | colon
  | comma
  | extraData
  | openString
  | controlCharacter
  | escape
  | unicodeEscape
deriving DecidableEq

def Cause.text : Cause → String
  | byteOrderMark => "Unexpected UTF-8 BOM (decode using utf-8-sig)"
  | value => "Expecting value"
  | memberName => "Expecting property name enclosed in double quotes"
  | colon => "Expecting ':' delimiter"
  | comma => "Expecting ',' delimiter"
  | extraData => "Extra data"
  | openString => "Unterminated string starting at"
  | controlCharacter => "Invalid control character at"
  | escape => "Invalid \\escape"
  | unicodeEscape => "Invalid \\uXXXX escape"

/-- A place in a text. -/
structure Place where
  offset : Nat
  line : Nat
  column : Nat
deriving DecidableEq

/-- The place right behind some text. -/
def Place.behind (consumed : Text) : Place where
  offset := consumed.length
  line := consumed.count (.scalar '\n') + 1
  column := (consumed.reverse.takeWhile (· != .scalar '\n')).length + 1

def Place.text (p : Place) : String :=
  "line " ++ toString p.line ++ " column " ++ toString p.column ++
    " (char " ++ toString p.offset ++ ")"

/-- The most digits that an integer may have, when read and when written. -/
def digitLimit : Nat := 4300

/-- Why a text is not JSON. -/
inductive ReadFault where
  | misplaced (cause : Cause) (place : Place)
  | longInteger (digits : Nat)
deriving DecidableEq

def ReadFault.message : ReadFault → String
  | misplaced cause place => cause.text ++ ": " ++ place.text
  | longInteger digits =>
    "Exceeds the limit (" ++ toString digitLimit ++
      " digits) for integer string conversion: value has " ++ toString digits ++
      " digits; use sys.set_int_max_str_digits() to increase the limit"

/-- What stands in brackets, and others of its kind in it. -/
inductive Container where
  | list
  | record
deriving DecidableEq

def Container.name : Container → String
  | list => "array"
  | record => "object"

/-- What is said about a list or a record that is nested too deeply. -/
def Container.message (container : Container) : String :=
  "maximum recursion depth exceeded while decoding a JSON " ++ container.name ++
    " from a unicode string"

/-- Why a value has no JSON form.  `hiddenItems` is a record with a field `items`, whose value
takes the place of the operation that lists the fields. -/
inductive WriteFault where
  | hiddenItems (kind : String)
  | keyKind (kind : String)
  | valueKind (kind : String)
  | cycle
  | longInteger
deriving DecidableEq

def WriteFault.message : WriteFault → String
  | hiddenItems kind => "'" ++ kind ++ "' object is not callable"
  | keyKind kind => "keys must be str, int, float, bool or None, not " ++ kind
  | valueKind kind => "Object of type " ++ kind ++ " is not JSON serializable"
  | cycle => "Circular reference detected"
  | longInteger =>
    "Exceeds the limit (" ++ toString digitLimit ++
      " digits) for integer string conversion; use sys.set_int_max_str_digits() to increase the limit"

end Json
end DocumentGateway
