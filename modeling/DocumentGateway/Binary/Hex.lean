import DocumentGateway.Text.CodePoint

namespace DocumentGateway

/-!
# Hexadecimal digits

Numbers and octets in base sixteen.  Digits are written in lower case and read in either case.
An octet is always a pair of digits, so a written octet string has even length.
-/

abbrev Bytes := List UInt8

/-- The lower-case digit of a number below sixteen. -/
def hexDigit (n : Nat) : Char :=
  if n < 10 then Char.ofNat (48 + n) else Char.ofNat (87 + n)

/-- The value of a hexadecimal digit in either case. -/
def hexDigit? (c : Char) : Option Nat :=
  if '0' ≤ c && c ≤ '9' then some (c.toNat - 48)
  else if 'a' ≤ c && c ≤ 'f' then some (c.toNat - 87)
  else if 'A' ≤ c && c ≤ 'F' then some (c.toNat - 55)
  else none

/-- The last `width` hexadecimal digits of a number. -/
def hexDigits : (width : Nat) → (n : Nat) → List Char
  | 0, _ => []
  | width + 1, n => hexDigits width (n / 16) ++ [hexDigit (n % 16)]

theorem hexDigit?_hexDigit_all : ∀ n, n < 16 → hexDigit? (hexDigit n) = some n := by
  decide

/-- Reading a written digit gives the number back. -/
theorem hexDigit?_hexDigit {n : Nat} (h : n < 16) : hexDigit? (hexDigit n) = some n :=
  hexDigit?_hexDigit_all n h

namespace Hex

/-- The ways in which a text fails to spell octets.  They are looked for in this order. -/
inductive Fault where
  | notAscii
  | oddLength
  | notADigit
deriving DecidableEq

def Fault.message : Fault → String
  | notAscii => "string argument should contain only ASCII characters"
  | oddLength => "Odd-length string"
  | notADigit => "Non-hexadecimal digit found"

/-- Two digits per octet. -/
def encode (bytes : Bytes) : List Char :=
  bytes.flatMap fun b => hexDigits 2 b.toNat

/-- Read pairs of digits as octets. -/
def pairs : Text → Except Fault Bytes
  | [] => .ok []
  | [_] => .error .oddLength
  | high :: low :: rest =>
    match high.char?.bind hexDigit?, low.char?.bind hexDigit? with
    | some h, some l => return UInt8.ofNat (16 * h + l) :: (← pairs rest)
    | _, _ => .error .notADigit

/-- Read digits as octets.  An odd number of them is refused before any digit is looked at. -/
def ofDigits (t : Text) : Except Fault Bytes :=
  if t.length % 2 = 1 then .error .oddLength else pairs t

/-- Read a text as octets. -/
def decode (t : Text) : Except Fault Bytes :=
  if t.any (fun p => 128 ≤ p.code) then .error .notAscii else ofDigits t

theorem encode_cons (b : UInt8) (bytes : Bytes) :
    encode (b :: bytes) =
      hexDigit (b.toNat / 16 % 16) :: hexDigit (b.toNat % 16) :: encode bytes := rfl

/-- Octets are written with two digits each. -/
theorem length_encode (bytes : Bytes) : (encode bytes).length = 2 * bytes.length := by
  induction bytes with
  | nil => rfl
  | cons b bytes ih =>
      simp only [encode_cons, List.length_cons, ih]
      omega

/-- Reading written octets gives the octets back. -/
theorem pairs_encode (bytes : Bytes) : pairs (Text.ofChars (encode bytes)) = .ok bytes := by
  induction bytes with
  | nil => rfl
  | cons b bytes ih =>
      have bound : b.toNat < 256 := b.toNat_lt_size
      have high : hexDigit? (hexDigit (b.toNat / 16 % 16)) = some (b.toNat / 16 % 16) :=
        hexDigit?_hexDigit (by omega)
      have low : hexDigit? (hexDigit (b.toNat % 16)) = some (b.toNat % 16) :=
        hexDigit?_hexDigit (by omega)
      have whole : 16 * (b.toNat / 16 % 16) + b.toNat % 16 = b.toNat := by omega
      rw [encode_cons, Text.ofChars_cons, Text.ofChars_cons]
      simp only [pairs, CodePoint.char?, Option.bind_some, high, low, ih, whole, UInt8.ofNat_toNat]
      rfl

end Hex

end DocumentGateway
