import DocumentGateway.Number.Decimal
import DocumentGateway.Text.Blank

namespace DocumentGateway

/-!
# Numerals

A numeral is a row of digits with an optional fraction and an optional exponent.  JSON numbers
and the values of aggregates are both read into this form.

The value of an aggregate may be spelled more freely than a JSON number: with blanks around it,
digits of any script, underscores between digits, a leading plus sign, no digits on one side of
the point, or one of the words for infinity and for not-a-number in any case.
-/

/-- The parts of a numeral: digits before and behind the point, and a signed exponent. -/
structure Numeral where
  negative : Bool
  whole : List Char
  fraction : List Char
  exponent : Int
deriving DecidableEq

namespace Numeral

/-- The decimal number that a numeral spells. -/
def toDecimal (n : Numeral) : Decimal :=
  ⟨n.negative, digitsValue (n.whole ++ n.fraction), n.exponent - n.fraction.length⟩

def toBinary64 (n : Numeral) : Binary64 :=
  n.toDecimal.toBinary64

/-- The ASCII digits at the front of a text, and what follows them. -/
def takeDigits : Text → List Char × Text
  | .scalar c :: rest =>
    if isAsciiDigit c then
      let (digits, tail) := takeDigits rest
      (c :: digits, tail)
    else ([], .scalar c :: rest)
  | t => ([], t)

/-- A sign at the front of a text, and what follows it. -/
def takeSign : Text → Bool × Text
  | .scalar '-' :: rest => (true, rest)
  | .scalar '+' :: rest => (false, rest)
  | t => (false, t)

/-- An exponent at the front of a text, and what follows it.  The letter without a digit behind
it is no exponent. -/
def takeExponent? : Text → Option (Int × Text)
  | .scalar c :: rest =>
    if c = 'e' || c = 'E' then
      let (negative, signed) := takeSign rest
      match takeDigits signed with
      | ([], _) => none
      | (digits, tail) =>
        let size : Int := digitsValue digits
        some (if negative then -size else size, tail)
    else none
  | _ => none

end Numeral

/-- The character a numeral is read with: blanks beyond ASCII as spaces and the digits of other
scripts as ASCII digits. -/
def plainNumeralChar? (c : Char) : Option Char :=
  if c.toNat < 0x7F then some c
  else if isBlank c then some ' '
  else (decimalDigit? c).map digitChar

/-- The blanks allowed around a numeral, once it is spelled in plain characters. -/
def isNumeralBlank (c : Char) : Bool :=
  c = ' ' || (9 ≤ c.toNat && c.toNat ≤ 13)

/-- Characters without the underscores between them.  An underscore needs a digit on both
sides. -/
def joinUnderscores : (afterDigit : Bool) → List Char → Option (List Char)
  | _, [] => some []
  | afterDigit, '_' :: c :: rest =>
    if afterDigit && isAsciiDigit c then return c :: (← joinUnderscores true rest) else none
  | _, ['_'] => none
  | _, c :: rest => return c :: (← joinUnderscores (isAsciiDigit c) rest)

/-- The numeral that a text without sign spells, if it spells one to its end. -/
def unsignedNumeral? (negative : Bool) (t : Text) : Option Numeral :=
  let (whole, afterWhole) := Numeral.takeDigits t
  let (fraction, afterFraction) := match afterWhole with
    | .scalar '.' :: rest => Numeral.takeDigits rest
    | rest => ([], rest)
  if whole.isEmpty && fraction.isEmpty then none
  else
    match Numeral.takeExponent? afterFraction, afterFraction with
    | some (exponent, []), _ => some ⟨negative, whole, fraction, exponent⟩
    | none, [] => some ⟨negative, whole, fraction, 0⟩
    | _, _ => none

/-- Read the magnitude behind an optional sign: a word or a numeral. -/
def magnitude? (negative : Bool) (s : List Char) : Option Binary64 :=
  let word := String.ofList (s.map Char.toLower)
  if word = "inf" || word = "infinity" then some (.infinite negative)
  else if word = "nan" then some .nan
  else (unsignedNumeral? negative (Text.ofChars s)).map Numeral.toBinary64

/-- Read a number in the free spelling of aggregate values. -/
def readNumber? (t : Text) : Option Binary64 := do
  let chars ← t.mapM fun p => p.char?.bind plainNumeralChar?
  let joined ← joinUnderscores false (trimBy isNumeralBlank chars)
  match joined with
  | '-' :: rest => magnitude? true rest
  | '+' :: rest => magnitude? false rest
  | rest => magnitude? false rest

end DocumentGateway
