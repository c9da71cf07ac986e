namespace DocumentGateway

/-!
# Texts as lists of code points

A text is a list of Unicode code points.  Most of them are characters, but a JSON string may
spell one half of a surrogate pair without the other, and such a half has to survive in keys,
documents and messages.  It is therefore a code point of its own kind, outside `Char`.
-/

/-- One code point of a text: a character, or a surrogate, numbered from `U+D800` on. -/
inductive CodePoint where
  | scalar (c : Char)
  | surrogate (offset : Fin 2048)
deriving DecidableEq, Inhabited

abbrev Text := List CodePoint

namespace CodePoint

/-- The number of a code point in the Unicode code space. -/
def code : CodePoint → Nat
  | scalar c => c.toNat
  | surrogate offset => 0xD800 + offset.val

/-- The character a code point is, if it is one. -/
def char? : CodePoint → Option Char
  | scalar c => some c
  | surrogate _ => none

end CodePoint

namespace Text

/-- The text made of the given characters. -/
def ofChars (chars : List Char) : Text :=
  chars.map .scalar

/-- The text a string spells. -/
def ofString (s : String) : Text :=
  ofChars s.toList

instance : Coe String Text where
  coe := ofString

@[simp]
theorem ofChars_nil : ofChars [] = [] := rfl

@[simp]
theorem ofChars_cons (c : Char) (chars : List Char) :
    ofChars (c :: chars) = .scalar c :: ofChars chars := rfl

@[simp]
theorem ofChars_append (front back : List Char) :
    ofChars (front ++ back) = ofChars front ++ ofChars back :=
  List.map_append

@[simp]
theorem length_ofChars (chars : List Char) : (ofChars chars).length = chars.length :=
  List.length_map _

end Text

end DocumentGateway
