import DocumentGateway.Value.AccessFault
import DocumentGateway.Value.Basic

namespace DocumentGateway

/-!
# Attributes of values

Every value has attributes by its kind, most of them operations.  The fields of a record are
attributes as well, and they hide those of its kind, but for the three that lead to the record's
own parts: the map of its attributes, its class, and its place in weak references.
-/

/-- The names of attributes: special ones, which stand between double underscores, and plain
ones. -/
structure AttributeNames where
  special : List String
  plain : List String

namespace AttributeNames

/-- The special names that values of every kind have. -/
def common : List String := [
  "class", "delattr", "dir", "doc", "eq", "format", "ge", "getattribute", "getstate", "gt", "hash",
  "init", "init_subclass", "le", "lt", "ne", "new", "reduce", "reduce_ex", "repr", "setattr",
  "sizeof", "str", "subclasshook"]

def ofText : AttributeNames where
  special := ["add", "contains", "getitem", "getnewargs", "iter", "len", "mod", "mul", "rmod", "rmul"]
  plain := [
    "capitalize", "casefold", "center", "count", "encode", "endswith", "expandtabs", "find",
    "format", "format_map", "index", "isalnum", "isalpha", "isascii", "isdecimal", "isdigit",
    "isidentifier", "islower", "isnumeric", "isprintable", "isspace", "istitle", "isupper", "join",
    "ljust", "lower", "lstrip", "maketrans", "partition", "removeprefix", "removesuffix",
    "replace", "rfind", "rindex", "rjust", "rpartition", "rsplit", "rstrip", "split", "splitlines",
    "startswith", "strip", "swapcase", "title", "translate", "upper", "zfill"]

/-- The special names of numbers of every kind. -/
def ofArithmetic : List String := [
  "abs", "add", "bool", "ceil", "divmod", "float", "floor", "floordiv", "getnewargs", "int", "mod",
  "mul", "neg", "pos", "pow", "radd", "rdivmod", "rfloordiv", "rmod", "rmul", "round", "rpow",
  "rsub", "rtruediv", "sub", "truediv", "trunc"]

def ofInteger : AttributeNames where
  special := ofArithmetic ++ [
    "and", "index", "invert", "lshift", "or", "rand", "rlshift", "ror", "rrshift", "rshift", "rxor",
    "xor"]
  plain := [
    "as_integer_ratio", "bit_count", "bit_length", "conjugate", "denominator", "from_bytes", "imag",
    "numerator", "real", "to_bytes"]

def ofFloat : AttributeNames where
  special := ofArithmetic ++ ["getformat"]
  plain := ["as_integer_ratio", "conjugate", "fromhex", "hex", "imag", "is_integer", "real"]

def ofList : AttributeNames where
  special := [
    "add", "class_getitem", "contains", "delitem", "getitem", "iadd", "imul", "iter", "len", "mul",
    "reversed", "rmul", "setitem"]
  plain := [
    "append", "clear", "copy", "count", "extend", "index", "insert", "pop", "remove", "reverse",
    "sort"]

def ofMapping : AttributeNames where
  special := [
    "class_getitem", "contains", "delitem", "getitem", "ior", "iter", "len", "or", "reversed",
    "ror", "setitem"]
  plain := [
    "clear", "copy", "fromkeys", "get", "items", "keys", "pop", "popitem", "setdefault", "update",
    "values"]

/-- Those of mappings, and those of a class of their own. -/
def ofRecord : AttributeNames where
  special := ofMapping.special ++ ["dict", "module", "weakref"]
  plain := ofMapping.plain

/-- The names of the attributes that values of a kind have beyond the common ones. -/
def ofKind : Value → AttributeNames
  | .null => ⟨["bool"], []⟩
  | .bool _ => ofInteger
  | .int _ => ofInteger
  | .float _ => ofFloat
  | .ownNan _ => ofFloat
  | .text _ => ofText
  | .list _ => ofList
  | .cyclic _ => ofList
  | .mapping _ => ofMapping
  | .record _ => ofRecord
  | _ => ⟨[], []⟩

/-- Whether a name is among some names or the common ones. -/
def hold (names : AttributeNames) (name : Text) : Bool :=
  names.plain.any (fun known => name = Text.ofString known) ||
    (common ++ names.special).any fun known => name = Text.ofString ("__" ++ known ++ "__")

end AttributeNames

namespace Value

/-- What every record says about its kind. -/
def recordDescription : String :=
  "\n".intercalate [
    "Dictionary with attribute-style access.",
    "",
    "    Maps its internal ``__dict__`` to itself so keys can be read and",
    "    written as attributes. Keys that are not valid identifiers, such as",
    "    ``role-name``, remain reachable through item access.",
    "",
    "    Example:",
    "        >>> obj = DictObject(errorResponse=DictObject(message='bad input'))",
    "        >>> obj.errorResponse.message",
    "        'bad input'",
    "    "]

/-- The attributes of a record's kind that are values, where no field hides them. -/
def recordKindAttribute? (name : Text) : Option Value :=
  if name = "__hash__" then some null
  else if name = "__module__" then some (text "mlclient.collections")
  else if name = "__doc__" then some (text recordDescription)
  else none

/-- The parts of a number that are attributes: its real and its imaginary part, and numerator and
denominator of an integer. -/
def part? (v : Value) (name : Text) : Option Value :=
  let ofInt (i : Int) : Option Value :=
    if name = "real" ∨ name = "numerator" then some (int i)
    else if name = "imag" then some (int 0)
    else if name = "denominator" then some (int 1)
    else none
  let ofFloat (x : Value) : Option Value :=
    if name = "real" then some x
    else if name = "imag" then some (float (Binary64.ofRank false 0))
    else none
  match v with
  | bool b => ofInt (if b then 1 else 0)
  | int i => ofInt i
  | float x => ofFloat (float x)
  | ownNan object => ofFloat (ownNan object)
  | _ => none

/-- An attribute of a record whose attributes are written in a map. -/
def attributeIn (attributes : Record) (name : Text) : Option Value :=
  if name = "__weakref__" then some null
  else (attributes.get? (.text name)).or (recordKindAttribute? name)

/-- An attribute of a value, where it is itself a value. -/
def readAttribute (v : Value) (name : Text) : Except AccessFault Value :=
  let found := match v with
    | record fields => if name = "__dict__" then some v else attributeIn fields name
    | mapping _ => if name = "__hash__" then some null else none
    | list _ => if name = "__hash__" then some null else none
    | _ => v.part? name
  match found with
  | some a => .ok a
  | none => .error (.noAttribute v.kindName name)

/-- Whether the kind of a value has an attribute of some name. -/
def hasKindAttribute (v : Value) (name : Text) : Bool :=
  (AttributeNames.ofKind v).hold name

end Value

end DocumentGateway
