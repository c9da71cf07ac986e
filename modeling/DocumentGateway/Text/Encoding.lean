import DocumentGateway.Text.Quoted

namespace DocumentGateway

/-!
# Encodings

Texts travel as octets.  UTF-8 has a form for every character and none for a surrogate; the
single-octet encoding covers the first 256 characters.  Encoding fails at the first run of code
points that have no form, and the failure names the whole run.

Decoding UTF-8 reads one octet at a time.  What has been read of an unfinished character fixes
the octets that may come next, so overlong forms, surrogates and numbers beyond the code space
are refused at the first octet that rules them out.
-/

/-- The encodings of texts. -/
inductive Encoding where
  | utf8
  | latin1
deriving DecidableEq

namespace Encoding

def name : Encoding → String
  | utf8 => "utf-8"
  | latin1 => "latin-1"

/-- Why a code point has no form. -/
def limitation : Encoding → String
  | utf8 => "surrogates not allowed"
  | latin1 => "ordinal not in range(256)"

/-- The octets of one code point. -/
def form? : Encoding → CodePoint → Option Bytes
  | utf8, .scalar c => some (String.utf8EncodeChar c)
  | latin1, .scalar c => if c.toNat < 256 then some [UInt8.ofNat c.toNat] else none
  | _, .surrogate _ => none

end Encoding

/-- A run of code points without a form, by its place, its first member and its length. -/
structure EncodingFault where
  encoding : Encoding
  position : Nat
  first : CodePoint
  length : Nat
deriving DecidableEq

/-- Where a fault lies, when it concerns the given number of places from a position on. -/
def placeText (position length : Nat) : String :=
  if length = 1 then s!"in position {position}"
  else "in position " ++ toString position ++ "-" ++ toString (position + length - 1)

def EncodingFault.message (f : EncodingFault) : String :=
  let subject :=
    if f.length = 1 then "character '" ++ String.ofList (numericEscape f.first.code) ++ "'"
    else "characters"
  "'" ++ f.encoding.name ++ "' codec can't encode " ++ subject ++ " " ++
    placeText f.position f.length ++ ": " ++ f.encoding.limitation

namespace Encoding

/-- Encode a text whose first code point stands at the given position. -/
def encodeFrom (encoding : Encoding) (position : Nat) : Text → Except EncodingFault Bytes
  | [] => .ok []
  | p :: rest =>
    match encoding.form? p with
    | some bytes => return bytes ++ (← encodeFrom encoding (position + 1) rest)
    | none =>
      let run := rest.takeWhile fun q => (encoding.form? q).isNone
      .error ⟨encoding, position, p, run.length + 1⟩

/-- Encode a text. -/
def encode (encoding : Encoding) (t : Text) : Except EncodingFault Bytes :=
  encoding.encodeFrom 0 t

end Encoding

/-- Read every octet as the character of the same number. -/
def latin1Chars (bytes : Bytes) : List Char :=
  bytes.map fun b => Char.ofNat b.toNat

/-- The UTF-8 octets of characters. -/
def utf8Octets (chars : List Char) : Bytes :=
  chars.flatMap String.utf8EncodeChar

namespace Utf8

/-- The ways in which octets fail to be UTF-8. -/
inductive Reason where
  | startByte
  | continuationByte
  | endOfData
deriving DecidableEq

def Reason.text : Reason → String
  | startByte => "invalid start byte"
  | continuationByte => "invalid continuation byte"
  | endOfData => "unexpected end of data"

/-- The octets of a broken character: their place, the first of them and their number. -/
structure Fault where
  position : Nat
  first : UInt8
  length : Nat
  reason : Reason
deriving DecidableEq

def Fault.message (f : Fault) : String :=
  let subject :=
    if f.length = 1 then "byte 0x" ++ String.ofList (hexDigits 2 f.first.toNat) else "bytes"
  "'utf-8' codec can't decode " ++ subject ++ " " ++ placeText f.position f.length ++ ": " ++
    f.reason.text

/-- An unfinished character: its first octet, the number of octets read and still owed, the bounds
of the next octet, and the number spelled so far. -/
structure Pending where
  first : UInt8
  taken : Nat
  owed : Nat
  low : UInt8
  high : UInt8
  value : Nat
deriving DecidableEq

/-- What a first octet begins: a whole character, an unfinished one, or nothing. -/
inductive Start where
  | whole (c : Char)
  | pending (p : Pending)
  | invalid

/-- Classify a first octet. -/
def start (b : UInt8) : Start :=
  if b < 0x80 then .whole (Char.ofNat b.toNat)
  else if b < 0xC2 then .invalid
  else if b < 0xE0 then .pending ⟨b, 1, 1, 0x80, 0xBF, b.toNat - 0xC0⟩
  else if b < 0xF0 then
    .pending ⟨b, 1, 2, if b = 0xE0 then 0xA0 else 0x80, if b = 0xED then 0x9F else 0xBF,
      b.toNat - 0xE0⟩
  else if b < 0xF5 then
    .pending ⟨b, 1, 3, if b = 0xF0 then 0x90 else 0x80, if b = 0xF4 then 0x8F else 0xBF,
      b.toNat - 0xF0⟩
  else .invalid

/-- Decode octets, the first of which stands at the given position, possibly after the first
octets of an unfinished character. -/
def decodeFrom : Option Pending → (position : Nat) → Bytes → Except Fault (List Char)
  | none, _, [] => .ok []
  | some p, position, [] => .error ⟨position - p.taken, p.first, p.taken, .endOfData⟩
  | none, position, b :: rest =>
    match start b with
    | .whole c => return c :: (← decodeFrom none (position + 1) rest)
    | .pending p => decodeFrom (some p) (position + 1) rest
    | .invalid => .error ⟨position, b, 1, .startByte⟩
  | some p, position, b :: rest =>
    if p.low ≤ b && b ≤ p.high then
      let value := 64 * p.value + (b.toNat - 0x80)
      if p.owed = 1 then return Char.ofNat value :: (← decodeFrom none (position + 1) rest)
      else
        decodeFrom (some ⟨p.first, p.taken + 1, p.owed - 1, 0x80, 0xBF, value⟩) (position + 1)
          rest
    else .error ⟨position - p.taken, p.first, p.taken, .continuationByte⟩

/-- Decode octets. -/
def decode (bytes : Bytes) : Except Fault (List Char) :=
  decodeFrom none 0 bytes

end Utf8

end DocumentGateway
