import DocumentGateway.Json.Fault
import DocumentGateway.Limits
import DocumentGateway.Number.Numeral
import DocumentGateway.Value.Basic

namespace DocumentGateway
namespace Json

/-!
# Reading JSON

The reader takes values off the front of a text and hands back what follows them.  A failure
keeps the text from the failing place on, so that the place can be computed once at the end.

The grammar is that of RFC 8259 with three more words for numbers that are not finite.  Strings
admit everything but raw control characters, unpaired surrogates included.  A number is an
integer exactly when it has neither fraction nor exponent.  A record keeps its names in the order
in which they first occur, each with the value it was given last.

A list or a record that stands in too many others is not read, and nothing is said then about the
form of the text.
-/

/-- Why reading stopped, with the text from the failing place on. -/
inductive Stop where
  | here (cause : Cause) (remaining : Text)
  | longInteger (digits : Nat)
  | tooDeep (container : Container)
deriving DecidableEq

def isSpace (p : CodePoint) : Bool :=
  p == .scalar ' ' || p == .scalar '\t' || p == .scalar '\n' || p == .scalar '\r'

def skipSpace (t : Text) : Text :=
  t.dropWhile isSpace

/-! ## Strings -/

/-- A part of a string between its quotes: a code point as it stands, or a code unit spelled by
its number. -/
inductive Piece where
  | plain (p : CodePoint)
  | unit (n : Fin 65536)
deriving DecidableEq

/-- The code point that a code unit is on its own. -/
def unitAlone (n : Fin 65536) : CodePoint :=
  if h : 0xD800 ≤ n.val ∧ n.val < 0xE000 then .surrogate ⟨n.val - 0xD800, by omega⟩
  else .scalar (Char.ofNat n.val)

def isHighUnit (n : Fin 65536) : Bool :=
  0xD800 ≤ n.val && n.val < 0xDC00

def isLowUnit (n : Fin 65536) : Bool :=
  0xDC00 ≤ n.val && n.val < 0xE000

/-- The character that a high and a low code unit spell together. -/
def unitPair (high low : Fin 65536) : Char :=
  Char.ofNat (0x10000 + (high.val - 0xD800) * 1024 + (low.val - 0xDC00))

/-- The text of a string's pieces.  A high code unit right before a low one is one character with
it. -/
def joinPieces : List Piece → Text
  | [] => []
  | .plain p :: rest => p :: joinPieces rest
  | .unit high :: .unit low :: rest =>
    if isHighUnit high && isLowUnit low then .scalar (unitPair high low) :: joinPieces rest
    else unitAlone high :: joinPieces (.unit low :: rest)
  | .unit n :: rest => unitAlone n :: joinPieces rest

/-- The code unit that four hexadecimal digits spell. -/
def fourDigits? (a b c d : CodePoint) : Option (Fin 65536) := do
  let digit (p : CodePoint) : Option Nat := p.char?.bind hexDigit?
  let n := 4096 * (← digit a) + 256 * (← digit b) + 16 * (← digit c) + (← digit d)
  return Fin.ofNat 65536 n

/-- The character named by a short escape. -/
def shortEscape? : CodePoint → Option Char
  | .scalar '"' => some '"'
  | .scalar '\\' => some '\\'
  | .scalar '/' => some '/'
  | .scalar 'b' => some '\x08'
  | .scalar 'f' => some '\x0c'
  | .scalar 'n' => some '\n'
  | .scalar 'r' => some '\r'
  | .scalar 't' => some '\t'
  | _ => none

/-- The pieces of a string up to its closing quote.  `opening` is the text from the opening quote
on.  An escape by number has to be followed by something. -/
def scanPieces (opening : Text) : Text → Except Stop (List Piece × Text)
  | [] => .error (.here .openString opening)
  | p :: rest =>
    if p = .scalar '"' then .ok ([], rest)
    else if p = .scalar '\\' then
      match rest with
      | [] => .error (.here .openString opening)
      | e :: more =>
        if e = .scalar 'u' then
          match more with
          | a :: b :: c :: d :: tail =>
            match fourDigits? a b c d, tail.isEmpty with
            | some n, false => do
              let (pieces, behind) ← scanPieces opening tail
              return (.unit n :: pieces, behind)
            | _, _ => .error (.here .unicodeEscape rest)
          | _ => .error (.here .unicodeEscape rest)
        else
          match shortEscape? e with
          | some c => do
            let (pieces, behind) ← scanPieces opening more
            return (.plain (.scalar c) :: pieces, behind)
          | none => .error (.here .escape (p :: rest))
    else if p.code < 0x20 then .error (.here .controlCharacter (p :: rest))
    else do
      let (pieces, behind) ← scanPieces opening rest
      return (.plain p :: pieces, behind)

/-- A string whose opening quote has been taken off. -/
def scanString (opening rest : Text) : Except Stop (Text × Text) := do
  let (pieces, behind) ← scanPieces opening rest
  return (joinPieces pieces, behind)

/-! ## Numbers and words -/

/-- A text without the given characters at its front. -/
def dropWord? : List Char → Text → Option Text
  | [], t => some t
  | c :: word, .scalar d :: t => if c = d then dropWord? word t else none
  | _, _ => none

/-- The words that stand for values. -/
def words : List (String × Value) := [
  ("null", .null), ("true", .bool true), ("false", .bool false), ("NaN", .float .nan),
  ("Infinity", .float (.infinite false)), ("-Infinity", .float (.infinite true))]

/-- The digits before the point: a lone zero, or digits that do not begin with zero. -/
def takeWhole : Text → List Char × Text
  | .scalar '0' :: rest => (['0'], rest)
  | t => Numeral.takeDigits t

/-- The digits behind the point.  A point without a digit behind it is not part of the number. -/
def takeFraction : Text → List Char × Text
  | .scalar '.' :: rest =>
    match Numeral.takeDigits rest with
    | ([], _) => ([], .scalar '.' :: rest)
    | found => found
  | t => ([], t)

/-- A minus at the front of a text, and what follows it. -/
def takeMinus : Text → Bool × Text
  | .scalar '-' :: rest => (true, rest)
  | t => (false, t)

/-- The number of a whole part, by what follows that part. -/
def scanBehindWhole (negative : Bool) (whole : List Char) (afterWhole : Text) :
    Except Stop (Value × Text) :=
  let (fraction, afterFraction) := takeFraction afterWhole
  match Numeral.takeExponent? afterFraction, fraction with
  | some (exponent, behind), _ =>
    .ok (.float (Numeral.toBinary64 ⟨negative, whole, fraction, exponent⟩), behind)
  | none, [] =>
    if digitLimit < whole.length then .error (.longInteger whole.length)
    else
      let size : Int := digitsValue whole
      .ok (.int (if negative then -size else size), afterFraction)
  | none, _ =>
    .ok (.float (Numeral.toBinary64 ⟨negative, whole, fraction, 0⟩), afterFraction)

/-- A number. -/
def scanNumber (t : Text) : Except Stop (Value × Text) :=
  let (negative, unsigned) := takeMinus t
  match takeWhole unsigned with
  | ([], _) => .error (.here .value t)
  | (whole, afterWhole) => scanBehindWhole negative whole afterWhole

/-- A word or a number. -/
def scanPlain (t : Text) : Except Stop (Value × Text) :=
  match words.findSome? fun word => (dropWord? word.1.toList t).map (word.2, ·) with
  | some found => .ok found
  | none => scanNumber t

/-! ## Values -/

mutual

/-- A value.  The room is how many lists and records may be opened one in another, and the budget
bounds the steps of nested reading. -/
def scanValue : (room budget : Nat) → Text → Except Stop (Value × Text)
  | _, 0, t => .error (.here .value t)
  | room, budget + 1, t =>
    match t, room with
    | .scalar '"' :: rest, _ => do
      let (content, behind) ← scanString t rest
      return (.text content, behind)
    | .scalar '[' :: _, 0 => .error (.tooDeep .list)
    | .scalar '[' :: rest, room + 1 =>
      match skipSpace rest with
      | .scalar ']' :: behind => .ok (.list [], behind)
      | inside => do
        let (items, behind) ← scanItems room budget inside
        return (.list items, behind)
    | .scalar '{' :: _, 0 => .error (.tooDeep .record)
    | .scalar '{' :: rest, room + 1 =>
      match skipSpace rest with
      | .scalar '}' :: behind => .ok (.record [], behind)
      | inside => do
        let (members, behind) ← scanMembers room budget inside
        return (.record (OrderedPairs.ofPairs members), behind)
    | _, _ => scanPlain t

/-- The values of a list up to its closing bracket. -/
def scanItems : (room budget : Nat) → Text → Except Stop (List Value × Text)
  | _, 0, t => .error (.here .value t)
  | room, budget + 1, t => do
    let (item, afterItem) ← scanValue room budget t
    match skipSpace afterItem with
    | .scalar ']' :: behind => return ([item], behind)
    | .scalar ',' :: rest =>
      let (items, behind) ← scanItems room budget (skipSpace rest)
      return (item :: items, behind)
    | found => .error (.here .comma found)

/-- The names and values of a record up to its closing brace, as they are written. -/
def scanMembers : (room budget : Nat) → Text → Except Stop (List (Key × Value) × Text)
  | _, 0, t => .error (.here .memberName t)
  | room, budget + 1, t =>
    match t with
    | .scalar '"' :: rest => do
      let (name, afterName) ← scanString t rest
      match skipSpace afterName with
      | .scalar ':' :: afterColon =>
        let (value, afterValue) ← scanValue room budget (skipSpace afterColon)
        match skipSpace afterValue with
        | .scalar '}' :: behind => return ([(.text name, value)], behind)
        | .scalar ',' :: more =>
          let (members, behind) ← scanMembers room budget (skipSpace more)
          return ((.text name, value) :: members, behind)
        | found => .error (.here .comma found)
      | found => .error (.here .colon found)
    | _ => .error (.here .memberName t)

end

/-- A text that consists of one value. -/
def scanDocument (room : Nat) (t : Text) : Except Stop Value := do
  if t.head? = some (.scalar '\uFEFF') then .error (.here .byteOrderMark t)
  else
    let (value, behind) ← scanValue room (2 * t.length + 2) (skipSpace t)
    match skipSpace behind with
    | [] => return value
    | found => .error (.here .extraData found)

/-- Why a text is not read: it is not JSON, or it is nested too deeply for that to be known. -/
inductive Refusal where
  | malformed (fault : ReadFault)
  | tooDeep (container : Container)
deriving DecidableEq

/-- What a stop says about the text being read. -/
def Stop.refusal (t : Text) : Stop → Refusal
  | here cause remaining =>
    .malformed (.misplaced cause (.behind (t.take (t.length - remaining.length))))
  | longInteger digits => .malformed (.longInteger digits)
  | tooDeep container => .tooDeep container

/-- Read a text as a JSON value. -/
def read [Limits] (t : Text) : Except Refusal Value :=
  (scanDocument (Limits.values t) t).mapError (Stop.refusal t)

end Json
end DocumentGateway
