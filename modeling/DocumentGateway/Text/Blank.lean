import DocumentGateway.Text.CodePoint

namespace DocumentGateway

/-!
# Blank characters

The characters that separate words: the Unicode spaces and line separators, together with the
ASCII control characters that move the cursor or separate records.  Media types and error
details are trimmed of them at both ends, and a body of nothing else counts as empty.
-/

/-- The blank characters. -/
def isBlank (c : Char) : Bool :=
  let n := c.toNat
  (9 ≤ n && n ≤ 13) || (28 ≤ n && n ≤ 32) || n == 0x85 || n == 0xA0 || n == 0x1680 ||
    (0x2000 ≤ n && n ≤ 0x200A) || n == 0x2028 || n == 0x2029 || n == 0x202F || n == 0x205F ||
    n == 0x3000

/-- Drop the elements with a property from both ends of a list. -/
def trimBy (p : α → Bool) (xs : List α) : List α :=
  ((xs.dropWhile p).reverse.dropWhile p).reverse

namespace CodePoint

/-- A blank code point is a blank character; a surrogate is never blank. -/
def isBlank : CodePoint → Bool
  | scalar c => DocumentGateway.isBlank c
  | surrogate _ => false

end CodePoint

namespace Text

/-- A text without the blank characters at its ends. -/
def trim (t : Text) : Text :=
  trimBy CodePoint.isBlank t

end Text

end DocumentGateway
