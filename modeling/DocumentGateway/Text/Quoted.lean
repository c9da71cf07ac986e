import DocumentGateway.Text.Printable
import DocumentGateway.Binary.Hex

namespace DocumentGateway

/-!
# Quoted texts

Messages show a text between quotes.  The single quote is used unless the text holds a single
quote and no double one.  The backslash and the chosen quote are escaped, three control
characters have a short escape, and every other code point that is not printable is written by
its number in the narrowest of three widths.  Octet strings are shown the same way behind a `b`.
-/

/-- The escape that names a code point by its number. -/
def numericEscape (n : Nat) : List Char :=
  if n ≤ 0xFF then '\\' :: 'x' :: hexDigits 2 n
  else if n ≤ 0xFFFF then '\\' :: 'u' :: hexDigits 4 n
  else '\\' :: 'U' :: hexDigits 8 n

/-- The quote to put around a text, chosen by the quotes it holds. -/
def chooseQuote (holdsSingle holdsDouble : Bool) : Char :=
  if holdsSingle && !holdsDouble then '"' else '\''

namespace CodePoint

/-- One code point inside quotes. -/
def quoted (quote : Char) (p : CodePoint) : List Char :=
  match p with
  | scalar '\\' => ['\\', '\\']
  | scalar '\n' => ['\\', 'n']
  | scalar '\r' => ['\\', 'r']
  | scalar '\t' => ['\\', 't']
  | scalar c =>
    if c = quote then ['\\', c]
    else if p.isPrintable then [c]
    else numericEscape p.code
  | surrogate _ => numericEscape p.code

end CodePoint

namespace Text

/-- A text as messages show it. -/
def quoted (t : Text) : List Char :=
  let quote := chooseQuote (t.contains (.scalar '\'')) (t.contains (.scalar '"'))
  quote :: t.flatMap (·.quoted quote) ++ [quote]

end Text

/-- One octet inside quotes. -/
def quotedByte (quote : Char) (b : UInt8) : List Char :=
  let c := Char.ofNat b.toNat
  if c = quote || c = '\\' then ['\\', c]
  else if c = '\n' then ['\\', 'n']
  else if c = '\r' then ['\\', 'r']
  else if c = '\t' then ['\\', 't']
  else if 0x20 ≤ b && b < 0x7F then [c]
  else numericEscape b.toNat

/-- An octet string as messages show it. -/
def quotedBytes (bytes : Bytes) : List Char :=
  let quote := chooseQuote (bytes.contains 39) (bytes.contains 34)
  'b' :: quote :: bytes.flatMap (quotedByte quote) ++ [quote]

end DocumentGateway
