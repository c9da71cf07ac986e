import DocumentGateway.Value.Basic
import DocumentGateway.Number.Decimal
import DocumentGateway.Text.Quoted

namespace DocumentGateway

/-!
# How messages show values

Texts and octets are quoted, numbers are written in full, and lists, tuples and records show
their members in brackets.  The member of a cyclic list that is the list itself is elided.
-/

/-- Join the shown members of a list, a comma and a space between two. -/
def commaJoined (members : List (List Char)) : List Char :=
  [',', ' '].intercalate members

/-- The shown members of a tuple in parentheses, where a single one is followed by a comma. -/
def shownTuple : List (List Char) → List Char
  | [member] => '(' :: member ++ [',', ')']
  | members => '(' :: commaJoined members ++ [')']

/-- An object of a foreign kind. -/
def shownForeign (kind : String) : List Char :=
  '<' :: kind.toList ++ " object>".toList

namespace Key

mutual

/-- A key as messages show it. -/
def shown : Key → List Char
  | null => "None".toList
  | bool b => (if b then "True" else "False").toList
  | int i => integerDigits i
  | float x => x.text
  | ownNan _ => Binary64.nan.text
  | text t => t.quoted
  | bytes b => quotedBytes b
  | tuple items => shownTuple (shownItems items)
  | foreign kind _ => shownForeign kind
  | likeness kind _ => shownForeign kind

def shownItems : List Key → List (List Char)
  | [] => []
  | item :: rest => item.shown :: shownItems rest

end

end Key

namespace Value

mutual

/-- A value as messages show it. -/
def shown : Value → List Char
  | null => "None".toList
  | bool b => (if b then "True" else "False").toList
  | int i => integerDigits i
  | float x => x.text
  | ownNan _ => Binary64.nan.text
  | text t => t.quoted
  | bytes b => quotedBytes b
  | buffer b => "bytearray(".toList ++ quotedBytes b ++ [')']
  | list items => '[' :: commaJoined (shownItems items) ++ [']']
  | tuple items => shownTuple (shownItems items)
  | record fields => '{' :: commaJoined (shownFields fields) ++ ['}']
  | mapping entries => '{' :: commaJoined (shownFields entries) ++ ['}']
  | cyclic items => '[' :: commaJoined (shownItems items ++ ["[...]".toList]) ++ [']']
  | foreign kind _ => shownForeign kind

def shownItems : List Value → List (List Char)
  | [] => []
  | item :: rest => item.shown :: shownItems rest

def shownFields : List (Key × Value) → List (List Char)
  | [] => []
  | (key, value) :: rest => (key.shown ++ ':' :: ' ' :: value.shown) :: shownFields rest

end

/-- A value as text: a text is itself, any other value as messages show it. -/
def asText : Value → Text
  | text t => t
  | v => Text.ofChars v.shown

end Value

end DocumentGateway
