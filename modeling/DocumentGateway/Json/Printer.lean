import DocumentGateway.Json.Fault
import DocumentGateway.Number.Decimal
import DocumentGateway.Value.Basic

namespace DocumentGateway
namespace Json

/-!
# Writing JSON

Values are written on one line, with a space behind each comma and colon, or indented with one
member to a line.  Quotes, backslashes and control characters are escaped; everything else is
written as it is, or spelled by code units when only printable ASCII is wanted.

Writing fails at the first member without a JSON form, in the order of writing.  A record that
has a field `items` cannot be listed and fails as a whole before any of its fields.
-/

/-- How values are laid out. -/
structure Layout where
  ascii : Bool
  indented : Bool
deriving DecidableEq

namespace Layout

/-- One line, characters as they are. -/
def compact : Layout := ⟨false, false⟩

/-- One line of ASCII. -/
def compactAscii : Layout := ⟨true, false⟩

/-- Indented, characters as they are. -/
def pretty : Layout := ⟨false, true⟩

/-- What stands before a member at a depth, and before the bracket that closes the depth above. -/
def lineBreak (l : Layout) (depth : Nat) : Text :=
  if l.indented then Text.ofChars ('\n' :: List.replicate (2 * depth) ' ') else []

/-- What stands between two members. -/
def separator (l : Layout) (depth : Nat) : Text :=
  if l.indented then .scalar ',' :: l.lineBreak depth else Text.ofString ", "

end Layout

/-- The escape of a code unit. -/
def unitEscape (n : Nat) : Text :=
  Text.ofChars ('\\' :: 'u' :: hexDigits 4 n)

/-- The escapes of a code point's one or two code units. -/
def unitEscapes (p : CodePoint) : Text :=
  let n := p.code
  if n < 0x10000 then unitEscape n
  else
    unitEscape (0xD800 + (n - 0x10000) / 1024) ++ unitEscape (0xDC00 + (n - 0x10000) % 1024)

/-- One code point inside quotes. -/
def writeCodePoint (ascii : Bool) (p : CodePoint) : Text :=
  match p with
  | .scalar '"' => Text.ofString "\\\""
  | .scalar '\\' => Text.ofString "\\\\"
  | .scalar '\n' => Text.ofString "\\n"
  | .scalar '\r' => Text.ofString "\\r"
  | .scalar '\t' => Text.ofString "\\t"
  | .scalar '\x08' => Text.ofString "\\b"
  | .scalar '\x0c' => Text.ofString "\\f"
  | _ => if p.code < 0x20 || (ascii && 0x7F ≤ p.code) then unitEscapes p else [p]

/-- A text between quotes. -/
def writeText (ascii : Bool) (t : Text) : Text :=
  .scalar '"' :: t.flatMap (writeCodePoint ascii) ++ [.scalar '"']

/-- An integer, unless it has too many digits. -/
def writeInt (i : Int) : Except WriteFault Text :=
  let digits := integerDigits i
  if digitLimit < digitCount i.natAbs then .error .longInteger else .ok (Text.ofChars digits)

def writeFloat (x : Binary64) : Text :=
  Text.ofChars (x.textWith "NaN" "Infinity")

/-- The name of a member.  Keys that are no texts are spelled as their values are. -/
def writeKey (ascii : Bool) : Key → Except WriteFault Text
  | .text t => .ok (writeText ascii t)
  | .float x => .ok (writeText ascii (writeFloat x))
  | .ownNan _ => .ok (writeText ascii (writeFloat .nan))
  | .bool b => .ok (writeText ascii (Text.ofString (if b then "true" else "false")))
  | .null => .ok (writeText ascii (Text.ofString "null"))
  | .int i => return writeText ascii (← writeInt i)
  | .bytes b => .error (.keyKind (Value.bytes b).kindName)
  | .tuple items => .error (.keyKind (Key.tuple items).toValue.kindName)
  | .foreign kind _ => .error (.keyKind kind)
  | .likeness kind _ => .error (.keyKind kind)

/-- Members between brackets, which stand next to each other when there is no member. -/
def bracketed (l : Layout) (depth : Nat) (opening closing : Char) : List Text → Text
  | [] => [.scalar opening, .scalar closing]
  | members =>
    .scalar opening :: l.lineBreak (depth + 1) ++ (l.separator (depth + 1)).intercalate members ++
      l.lineBreak depth ++ [.scalar closing]

/-- The value of a record's field `items`. -/
def itemsField? (fields : Record) : Option Value :=
  fields.get? (Key.ofString "items")

mutual

/-- Write a value at a depth. -/
def writeAt (l : Layout) (depth : Nat) : Value → Except WriteFault Text
  | .null => .ok (Text.ofString "null")
  | .bool b => .ok (Text.ofString (if b then "true" else "false"))
  | .int i => writeInt i
  | .float x => .ok (writeFloat x)
  | .ownNan _ => .ok (writeFloat .nan)
  | .text t => .ok (writeText l.ascii t)
  | .list items => return bracketed l depth '[' ']' (← writeItems l depth items)
  | .tuple items => return bracketed l depth '[' ']' (← writeItems l depth items)
  | .record fields =>
    match itemsField? fields with
    | some value => .error (.hiddenItems value.kindName)
    | none => return bracketed l depth '{' '}' (← writeFields l depth fields)
  | .mapping entries => return bracketed l depth '{' '}' (← writeFields l depth entries)
  | .cyclic items => do
    let _ ← writeItems l depth items
    .error .cycle
  | .bytes b => .error (.valueKind (Value.bytes b).kindName)
  | .buffer b => .error (.valueKind (Value.buffer b).kindName)
  | .foreign kind _ => .error (.valueKind kind)

/-- Write the members of a list whose brackets stand at a depth. -/
def writeItems (l : Layout) (depth : Nat) : List Value → Except WriteFault (List Text)
  | [] => .ok []
  | item :: rest => do
    let written ← writeAt l (depth + 1) item
    return written :: (← writeItems l depth rest)

/-- Write the members of a record whose braces stand at a depth. -/
def writeFields (l : Layout) (depth : Nat) : List (Key × Value) → Except WriteFault (List Text)
  | [] => .ok []
  | (key, value) :: rest => do
    let name ← writeKey l.ascii key
    let written ← writeAt l (depth + 1) value
    return (name ++ .scalar ':' :: .scalar ' ' :: written) :: (← writeFields l depth rest)

end

/-- Write a value. -/
def write (l : Layout) (v : Value) : Except WriteFault Text :=
  writeAt l 0 v

end Json
end DocumentGateway
