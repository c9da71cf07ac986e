import DocumentGateway.Xml.NameChar

namespace DocumentGateway
namespace Xml

/-!
# Forms of texts

A document comes in a narrow form, with as many octets to a character as UTF-8 has, or in a wide
one, with two octets or four.  The text of an entity is kept in a form of its own, whatever the
form of its document.  The forms agree on nearly everything.  The wide one has three more letters,
and decides by its own ranges what begins the root element and what is in the keyword of a
declaration.  In the text of an entity a carriage return is a character like any other.
-/

/-- The form of a text.  In the wide form an octet may be left over at the end. -/
inductive TextForm where
  | narrow
  | wide (hasLeftover : Bool)
  | entity
deriving DecidableEq

/-- What stands for a character that the end of a text cuts in two.  No text holds it otherwise. -/
def cutChar : Char := '\uFFFE'

/-- What stands for anything else that is no character of an XML text. -/
def foreignChar : Char := '\uFFFF'

/-- A character of a text in which none is cut. -/
def uncut (c : Char) : Char :=
  if c = cutChar then foreignChar else c

namespace TextForm

def isWide : TextForm → Bool
  | wide _ => true
  | _ => false

/-- Whether an octet is left over at the end of the text. -/
def hasLeftover : TextForm → Bool
  | wide leftover => leftover
  | _ => false

/-- The letters of the wide form only. -/
def isWideLetter (c : Char) : Bool :=
  c == 'ª' || c == 'µ' || c == 'º'

def isNameStart (f : TextForm) (c : Char) : Bool :=
  Xml.isNameStart c || (f.isWide && isWideLetter c)

def isNameChar (f : TextForm) (c : Char) : Bool :=
  Xml.isNameChar c || (f.isWide && isWideLetter c)

/-- The characters of keywords: letters of ASCII, and those of Latin-1 in the wide form. -/
def isKeywordChar (f : TextForm) (c : Char) : Bool :=
  f.isNameStart c && c.toNat < if f.isWide then 0x100 else 0x80

/-- Whether a character behind an opening bracket is taken for the beginning of the root element.
It need not be one that a name may begin with. -/
def beginsRoot (f : TextForm) (c : Char) : Bool :=
  if f.isWide && 0x100 ≤ c.toNat then c != foreignChar
  else f.isNameStart c || (!f.isWide && 0x80 ≤ c.toNat)

/-- Whether a character is a carriage return that ends a line. -/
def isReturn (f : TextForm) (c : Char) : Bool :=
  c == '\r' && f != entity

/-- Whether a character ends a line. -/
def endsLine (f : TextForm) (c : Char) : Bool :=
  c == '\n' || f.isReturn c

/-- The number of octets of the characters of ASCII. -/
def unit (f : TextForm) : Nat :=
  if f.isWide then 2 else 1

def charOctets (f : TextForm) (c : Char) : Nat :=
  if f.isWide then if c.toNat < 0x10000 then 2 else 4 else c.utf8Size

/-- The number of octets of a text. -/
def octets (f : TextForm) (t : List Char) : Nat :=
  t.foldl (fun n c => n + f.charOctets c) 0

/-- The number of octets at the front of a text, before a text that it ends with. -/
def octetsBefore (f : TextForm) (t behind : List Char) : Nat :=
  f.octets (t.take (t.length - behind.length))

theorem foldl_charOctets (f : TextForm) (n : Nat) (t : List Char) :
    t.foldl (fun n c => n + f.charOctets c) n = n + f.octets t := by
  induction t generalizing n with
  | nil => rfl
  | cons c rest ih =>
      rw [octets, List.foldl_cons, List.foldl_cons, ih, ih (0 + f.charOctets c), Nat.zero_add,
        Nat.add_assoc]

@[simp]
theorem octets_cons (f : TextForm) (c : Char) (rest : List Char) :
    f.octets (c :: rest) = f.charOctets c + f.octets rest := by
  rw [octets, List.foldl_cons, foldl_charOctets, Nat.zero_add]

@[simp]
theorem octets_append (f : TextForm) (front back : List Char) :
    f.octets (front ++ back) = f.octets front + f.octets back := by
  rw [octets, List.foldl_append, foldl_charOctets]
  rfl

theorem isNameChar_of_isNameStart {f : TextForm} {c : Char} (h : f.isNameStart c = true) :
    f.isNameChar c = true := by
  rw [isNameStart, Bool.or_eq_true] at h
  rw [isNameChar, Bool.or_eq_true]
  exact h.imp_left Xml.isNameChar_of_isNameStart

end TextForm

end Xml
end DocumentGateway
