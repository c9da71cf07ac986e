import DocumentGateway.Number.Binary64
import DocumentGateway.Text.CodePoint
import DocumentGateway.Binary.Hex
import DocumentGateway.Value.OrderedPairs

namespace DocumentGateway

/-!
# Values

The values that callers hand over and that bodies are read into.  A parsed JSON object is a
`record`; a caller may also pass a plain `mapping`, a tuple, octets, a NaN of its own, a list that
contains itself, or an object of a foreign kind.  Those are told apart because writing JSON, or
looking them up, treats them differently.

A NaN of a caller's own and an object of a foreign kind have a number in the place of what they are:
those with the same number are equal.
-/

/-- The keys of records and mappings.  A NaN of a caller's own is a key that equals no key but
itself, while the NaN that bodies spell is the float of that name.  An object of a foreign kind
equals either the objects with its number, or whatever equals the key that it is a likeness of. -/
inductive Key where
  | null
  | bool (b : Bool)
  | int (i : Int)
  | float (x : Binary64)
  | ownNan (object : Nat)
  | text (t : Text)
  | bytes (b : Bytes)
  | tuple (items : List Key)
  | foreign (kind : String) (object : Nat)
  | likeness (kind : String) (key : Key)

namespace Key

/-- What keys are told apart by.  A tuple is marked by its size, and the marks of its members
follow. -/
inductive Mark where
  | null
  | number (i : Int)
  | float (x : Binary64)
  | ownNan (object : Nat)
  | text (t : Text)
  | bytes (b : Bytes)
  | tuple (size : Nat)
  | foreign (object : Nat)
deriving DecidableEq

mutual

/-- The marks of a key.  Truth values count as the numbers one and zero, and a float without
fraction counts as an integer. -/
def marks : Key → List Mark
  | null => [.null]
  | bool b => [.number (if b then 1 else 0)]
  | int i => [.number i]
  | float x =>
    match x.toInt? with
    | some i => [.number i]
    | none => [.float x]
  | ownNan object => [.ownNan object]
  | text t => [.text t]
  | bytes b => [.bytes b]
  | tuple items => .tuple items.length :: marksOfAll items
  | foreign _ object => [.foreign object]
  | likeness _ key => key.marks

def marksOfAll : List Key → List Mark
  | [] => []
  | key :: rest => key.marks ++ marksOfAll rest

end

/-- Two keys are equal when they have the same marks. -/
instance : BEq Key where
  beq a b := decide (a.marks = b.marks)

theorem beq_iff (a b : Key) : (a == b) = true ↔ a.marks = b.marks :=
  decide_eq_true_iff

instance : EquivBEq Key where
  rfl := fun {a} => (beq_iff a a).mpr rfl
  symm := fun {a b} same => (beq_iff b a).mpr ((beq_iff a b).mp same).symm
  trans := fun {a b c} first second =>
    (beq_iff a c).mpr (((beq_iff a b).mp first).trans ((beq_iff b c).mp second))

/-- Keys that are texts count as one only when they are the same text. -/
theorem text_beq_text (s t : Text) : (text s == text t) = decide (s = t) := by
  rw [Bool.eq_iff_iff, beq_iff, decide_eq_true_iff]
  simp [marks]

end Key

/-- What an object of a foreign kind equals: the objects with its number, or a key of another kind and
all that equals that. -/
inductive Identity where
  | own (object : Nat)
  | alike (key : Key)

/-- A value.  An object of a foreign kind without identity cannot be looked up. -/
inductive Value where
  | null
  | bool (b : Bool)
  | int (i : Int)
  | float (x : Binary64)
  | ownNan (object : Nat)
  | text (t : Text)
  | bytes (b : Bytes)
  | buffer (b : Bytes)
  | list (items : List Value)
  | tuple (items : List Value)
  | record (fields : List (Key × Value))
  | mapping (entries : List (Key × Value))
  | cyclic (items : List Value)
  | foreign (kind : String) (identity : Option Identity)
deriving Inhabited

/-- The fields of a record, or the entries of a mapping. -/
abbrev Record := OrderedPairs Key Value

namespace Value

/-- The name of a value's kind in messages. -/
def kindName : Value → String
  | null => "NoneType"
  | bool _ => "bool"
  | int _ => "int"
  | float _ => "float"
  | ownNan _ => "float"
  | text _ => "str"
  | bytes _ => "bytes"
  | buffer _ => "bytearray"
  | list _ => "list"
  | tuple _ => "tuple"
  | record _ => "DictObject"
  | mapping _ => "dict"
  | cyclic _ => "list"
  | foreign kind _ => kind

mutual

/-- The value as a key, or the kind of what keeps it from being one. -/
def asKey : Value → Except String Key
  | null => .ok .null
  | bool b => .ok (.bool b)
  | int i => .ok (.int i)
  | float x => .ok (.float x)
  | ownNan object => .ok (.ownNan object)
  | text t => .ok (.text t)
  | bytes b => .ok (.bytes b)
  | tuple items => return .tuple (← asKeys items)
  | foreign kind (some (.own object)) => .ok (.foreign kind object)
  | foreign kind (some (.alike key)) => .ok (.likeness kind key)
  | v => .error v.kindName

def asKeys : List Value → Except String (List Key)
  | [] => .ok []
  | v :: rest => return (← v.asKey) :: (← asKeys rest)

end

/-- Whether a value holds something: it is no zero, not false, and not empty. -/
def isFilled : Value → Bool
  | null => false
  | bool b => b
  | int i => i != 0
  | float x => x.toInt? != some 0
  | ownNan _ => true
  | text t => t != []
  | bytes b => b != []
  | buffer b => b != []
  | list items => !items.isEmpty
  | tuple items => !items.isEmpty
  | record fields => !fields.isEmpty
  | mapping entries => !entries.isEmpty
  | cyclic _ => true
  | foreign _ _ => true

/-- The value, or another one where it is null. -/
def orElse (v fallback : Value) : Value :=
  match v with
  | null => fallback
  | _ => v

/-- Whether the value is null. -/
def isNull : Value → Bool
  | null => true
  | _ => false

/-- Whether the value is a text, and which. -/
def isText (v : Value) (t : Text) : Bool :=
  match v with
  | text s => s = t
  | _ => false

/-- The text that a value is, and the empty text for a value of another kind. -/
def textOrEmpty : Value → Text
  | text t => t
  | _ => []

/-- The fields of a record or a mapping. -/
def fields? : Value → Option Record
  | record fields => some fields
  | mapping entries => some entries
  | _ => none

end Value

namespace Key

mutual

/-- The value that a key is. -/
def toValue : Key → Value
  | null => .null
  | bool b => .bool b
  | int i => .int i
  | float x => .float x
  | ownNan object => .ownNan object
  | text t => .text t
  | bytes b => .bytes b
  | tuple items => .tuple (toValues items)
  | foreign kind object => .foreign kind (some (.own object))
  | likeness kind key => .foreign kind (some (.alike key))

def toValues : List Key → List Value
  | [] => []
  | key :: rest => key.toValue :: toValues rest

end

/-- The key that a string spells. -/
def ofString (s : String) : Key :=
  text s

instance : Coe String Key where
  coe := ofString

end Key

end DocumentGateway
