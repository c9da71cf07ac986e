import DocumentGateway.Text.Encoding
import DocumentGateway.Xml.TextForm

namespace DocumentGateway
namespace Xml

/-!
# Texts in units of two octets

No character of an XML text is zero.  A text that has a zero octet first or second is therefore
taken for one in which every character has two octets, and its octets are read once more in that
way.  Which of the first two octets is zero tells in which order the octets of a unit stand.

Two units that belong together spell one character beyond `U+FFFF`: one that begins a pair, and
whatever comes behind it.  A unit that ends a pair but has no partner stands for a character that no
XML text may hold.  A unit that begins a pair at the end of the text is a character that is cut, and
an octet may be left over behind the last unit.
-/

/-- Which octet of a unit comes first. -/
inductive OctetOrder where
  | highFirst
  | lowFirst
deriving DecidableEq

/-- The order of octets that the beginning of a text tells, if it has a zero octet there. -/
def octetOrder? : Bytes → Option OctetOrder
  | 0 :: _ => some .highFirst
  | _ :: 0 :: _ => some .lowFirst
  | _ => none

/-- The number of a unit. -/
def OctetOrder.unit : OctetOrder → (first second : UInt8) → Nat
  | highFirst, first, second => 256 * first.toNat + second.toNat
  | lowFirst, first, second => 256 * second.toNat + first.toNat

/-- The units that octets make.  A single octet at the end makes none. -/
def OctetOrder.units (order : OctetOrder) : Bytes → List Nat
  | first :: second :: rest => order.unit first second :: order.units rest
  | _ => []

/-- The character of a unit that belongs to no pair. -/
def charOfUnit (unit : Nat) : Char :=
  if unit.isValidChar then uncut (Char.ofNat unit) else foreignChar

/-- Whether a unit begins a pair. -/
def beginsPair (unit : Nat) : Bool :=
  0xD800 ≤ unit && unit < 0xDC00

/-- The characters that units spell. -/
def charsOfUnits : List Nat → List Char
  | [] => []
  | [unit] => [if beginsPair unit then cutChar else charOfUnit unit]
  | unit :: next :: rest =>
    if beginsPair unit then
      Char.ofNat (0x10000 + 0x400 * (unit - 0xD800) + next % 0x400) :: charsOfUnits rest
    else charOfUnit unit :: charsOfUnits (next :: rest)

/-- The characters that octets spell in units of two. -/
def OctetOrder.chars (order : OctetOrder) (octets : Bytes) : List Char :=
  charsOfUnits (order.units octets)

/-- The form of a text of octets in units of two. -/
def wideForm (octets : Bytes) : TextForm :=
  .wide (octets.length % 2 = 1)

end Xml
end DocumentGateway
