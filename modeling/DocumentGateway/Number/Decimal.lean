import DocumentGateway.Number.Binary64
import DocumentGateway.Number.Digits

namespace DocumentGateway

/-!
# Decimal numbers and their shortest forms

A decimal number is a row of digits scaled by a power of ten.  Converting one to binary rounds
to the nearest number of the format.  In the other direction a finite binary number is shown by
the fewest digits that convert back to it, and among those by the digits nearest to its value.

The shortest form is found by trying rows of one to seventeen digits.  On each grid only the two
neighbours of the value can qualify, and a neighbour qualifies when it converts back.
-/

/-- The number `± digits * 10 ^ exponent`. -/
structure Decimal where
  negative : Bool
  digits : Nat
  exponent : Int
deriving DecidableEq

namespace Decimal

/-- The nearest binary number.  A magnitude of more than four hundred places before the point is
infinite and one that begins more than four hundred places behind it is zero, which spares the
power of ten. -/
def toBinary64 (d : Decimal) : Binary64 :=
  let place := d.exponent + digitCount d.digits
  if d.digits = 0 || place < -400 then .ofRank d.negative 0
  else if 400 < place then .infinite d.negative
  else if 0 ≤ d.exponent then
    .ofRatio d.negative (d.digits * Nat.pow 10 d.exponent.toNat) 1
  else
    .ofRatio d.negative d.digits (Nat.pow 10 (-d.exponent).toNat)

/-- The decimal of the given digits, with zeros at their end moved into the exponent. -/
def trimZeros (digits : Nat) (exponent : Int) : Nat × Int :=
  if h : digits ≠ 0 ∧ digits % 10 = 0 then trimZeros (digits / 10) (exponent + 1)
  else (digits, exponent)
termination_by digits
decreasing_by omega

/-- Whether digits at an exponent convert to the magnitude of a rank. -/
def converts (rank : Nat) (candidate : Nat × Int) : Bool :=
  toBinary64 ⟨false, candidate.1, candidate.2⟩ = .ofRank false rank

/-- Decimal places kept in the working form of a magnitude: enough for seventeen digits of the
smallest one. -/
def workingPlaces : Nat := 340

/-- The decimal of the given number of digits that is nearest to a rank's magnitude, among the
two neighbours of the magnitude that convert back.  The magnitude is `working` tenfold reduced
`workingPlaces` times, rounded down. -/
def candidate? (rank working length count : Nat) : Option (Nat × Int) :=
  let unit := Nat.pow 10 (length - count)
  let exponent : Int := length - count - workingPlaces
  let below := working / unit
  let lower := trimZeros below exponent
  let upper := trimZeros (below + 1) exponent
  match converts rank lower, converts rank upper with
  | true, true =>
    let doubled := 2 * Binary64.units rank * Nat.pow 10 workingPlaces
    let middle := (2 * below + 1) * unit * Nat.pow 2 1074
    some (if doubled < middle then lower
      else if middle < doubled then upper
      else if below % 2 = 0 then lower else upper)
  | true, false => some lower
  | false, true => some upper
  | false, false => none

/-- The digits and the exponent that show the magnitude of a rank. -/
def shortest (rank : Nat) : Nat × Int :=
  let working := Binary64.units rank * Nat.pow 10 workingPlaces / Nat.pow 2 1074
  let length := digitCount working
  ((List.range 17).findSome? fun i => candidate? rank working length (i + 1)).getD
    (Binary64.units rank * Nat.pow 5 1074, -1074)

end Decimal

namespace Binary64

/-- Digits with a decimal point behind the given number of them. -/
def pointed (digits : List Char) (point : Int) : List Char :=
  if point ≤ 0 then '0' :: '.' :: List.replicate (-point).toNat '0' ++ digits
  else if digits.length ≤ point then
    digits ++ List.replicate (point.toNat - digits.length) '0' ++ ['.', '0']
  else digits.take point.toNat ++ '.' :: digits.drop point.toNat

/-- Digits in exponent form.  The exponent shows its sign and has two digits at least. -/
def scientific (digits : List Char) (exponent : Int) : List Char :=
  let size := decimalDigits exponent.natAbs
  let padded := if size.length < 2 then '0' :: size else size
  let tail := 'e' :: (if exponent < 0 then '-' else '+') :: padded
  match digits with
  | [] => tail
  | [d] => d :: tail
  | d :: rest => d :: '.' :: rest ++ tail

/-- A magnitude in positional form when its first digit stands at most sixteen places before the
point or four behind it, and in exponent form otherwise. -/
def magnitudeText (digits : Nat) (exponent : Int) : List Char :=
  let row := decimalDigits digits
  let point : Int := row.length + exponent
  if -4 < point ∧ point ≤ 16 then pointed row point else scientific row (point - 1)

/-- The text of a finite magnitude. -/
def rankText (rank : Nat) : List Char :=
  if rank = 0 then ['0', '.', '0']
  else
    let (digits, exponent) := Decimal.shortest rank
    magnitudeText digits exponent

/-- The text of a number, given the words for what is not finite. -/
def textWith (nanWord infinityWord : String) : Binary64 → List Char
  | nan => nanWord.toList
  | infinite negative => (if negative then ['-'] else []) ++ infinityWord.toList
  | finite negative rank => (if negative then ['-'] else []) ++ rankText rank.val

/-- The text of a number in messages. -/
def text (x : Binary64) : List Char :=
  x.textWith "nan" "inf"

end Binary64

end DocumentGateway
