import DocumentGateway.Xml.Fault
import DocumentGateway.Xml.TextForm
import DocumentGateway.Binary.Hex
import DocumentGateway.Number.Digits

namespace DocumentGateway
namespace Xml

/-!
# Markup

Names, references, tags, comments and processing instructions, each taken off the front of a
text together with what follows it.  A piece of markup that the text ends in the middle of is
unclosed, which is reported at its start, and so is a character that the text ends in the middle of;
a character that does not fit is reported where it stands.
-/

def skipSpaces (t : List Char) : List Char :=
  t.dropWhile isSpace

/-- The stop at a text that does not continue the markup begun at `start`. -/
def unexpected (start : List Char) : List Char → Except Stop α
  | [] => stop .unclosedToken start
  | found => stop .invalidToken found

/-- The stop at a text whose first character may not stand in the markup begun at `start`, where
other characters may. -/
def refused (start : List Char) : List Char → Except Stop α
  | [] => stop .unclosedToken start
  | c :: rest =>
    if c = cutChar then stop .partialCharacter start else stop .invalidToken (c :: rest)

/-! ## Names -/

/-- A name and what follows it.  No name ends before a character that is cut. -/
def endName (start name : List Char) : List Char → Except Stop (List Char × List Char)
  | [] => .ok (name, [])
  | c :: rest =>
    if c = cutChar then stop .partialCharacter start else .ok (name, c :: rest)

/-- A name without colon. -/
def scanName (f : TextForm) (start : List Char) : List Char → Except Stop (List Char × List Char)
  | [] => stop .unclosedToken start
  | c :: rest =>
    if f.isNameStart c then
      endName start (c :: rest.takeWhile f.isNameChar) (rest.dropWhile f.isNameChar)
    else refused start (c :: rest)

/-- A name with at most one colon in it. -/
def scanQualifiedName (f : TextForm) (start t : List Char) :
    Except Stop (List Char × List Char) := do
  let (first, behind) ← scanName f start t
  match behind with
  | ':' :: rest =>
    let (second, behindSecond) ← scanName f start rest
    return (first ++ ':' :: second, behindSecond)
  | _ => return (first, behind)

/-- The prefix and the rest of a name, parted at the first colon. -/
def splitName : List Char → Option (List Char) × List Char
  | [] => (none, [])
  | ':' :: rest => (some [], rest)
  | c :: rest =>
    match splitName rest with
    | (some front, back) => (some (c :: front), back)
    | (none, back) => (none, c :: back)

/-! ## References -/

/-- A reference to a character by its number or to an entity by its name. -/
inductive Reference where
  | character (number : Nat)
  | entity (name : List Char)
deriving DecidableEq

/-- The digits of a character number up to the semicolon. -/
def scanNumber (start : List Char) (base : Nat) (isDigit : Char → Bool) (t : List Char) :
    Except Stop (Reference × List Char) :=
  let digits := t.takeWhile isDigit
  match digits, t.dropWhile isDigit with
  | _ :: _, ';' :: behind =>
    let number := digits.foldl (fun n c => base * n + (hexDigit? c).getD 0) 0
    .ok (.character number, behind)
  | _, found => unexpected start found

/-- A reference whose ampersand has been taken off. -/
def scanReference (f : TextForm) (start : List Char) :
    List Char → Except Stop (Reference × List Char)
  | '#' :: 'x' :: rest => scanNumber start 16 (fun c => (hexDigit? c).isSome) rest
  | '#' :: rest => scanNumber start 10 isAsciiDigit rest
  | t => do
    let (name, behind) ← scanName f start t
    match behind with
    | ';' :: rest => return (.entity name, rest)
    | found => unexpected start found

/-- The character of a number, if it may be referred to. -/
def characterOf? (number : Nat) : Option Char :=
  if number.isValidChar ∧ isXmlChar (Char.ofNat number) then some (Char.ofNat number) else none

/-- The characters that have names without any declaration. -/
def predefined? (name : List Char) : Option Char :=
  [("lt", '<'), ("gt", '>'), ("amp", '&'), ("apos", '\''), ("quot", '"')].findSome?
    fun known => if known.1.toList = name then some known.2 else none

/-! ## Comments and instructions -/

/-- What follows a comment whose opening has been taken off. -/
def scanComment (start : List Char) : List Char → Except Stop (List Char)
  | [] => stop .unclosedToken start
  | '-' :: '-' :: '>' :: behind => .ok behind
  | '-' :: '-' :: found => unexpected start found
  | c :: rest => if isXmlChar c then scanComment start rest else refused start (c :: rest)

/-- What follows a comment of whose opening the last hyphen is still there. -/
def scanCommentOpening (start : List Char) : List Char → Except Stop (List Char)
  | '-' :: rest => scanComment start rest
  | found => unexpected start found

/-- The text up to the end of an instruction, and what follows it. -/
def scanInstructionBody (start : List Char) : List Char → Except Stop (List Char × List Char)
  | [] => stop .unclosedToken start
  | '?' :: '>' :: behind => .ok ([], behind)
  | c :: rest =>
    if isXmlChar c then do
      let (body, behind) ← scanInstructionBody start rest
      return (c :: body, behind)
    else refused start (c :: rest)

/-- A processing instruction.  The target `xml` makes it an XML declaration, of which the text
behind the target and the text from its closing on are kept. -/
inductive Instruction where
  | declaration (body closing : List Char)
  | processing
deriving DecidableEq

/-- Whether a target is reserved without being the target of an XML declaration. -/
def isReservedTarget (target : List Char) : Bool :=
  target.map Char.toLower = ['x', 'm', 'l'] && target != ['x', 'm', 'l']

def instructionOf (target body closing : List Char) : Instruction :=
  if target = ['x', 'm', 'l'] then .declaration body closing else .processing

/-- An instruction whose opening has been taken off. -/
def scanInstruction (f : TextForm) (start t : List Char) :
    Except Stop (Instruction × List Char) := do
  let (target, behindTarget) ← scanName f start t
  match behindTarget with
  | [] => stop .unclosedToken start
  | c :: rest =>
    if !(isSpace c || c == '?') || isReservedTarget target then
      stop .invalidToken (c :: rest)
    else if c = '?' then
      match rest with
      | '>' :: behind => return (instructionOf target [] (c :: rest), behind)
      | found => unexpected start found
    else
      let (body, behind) ← scanInstructionBody start rest
      return (instructionOf target (c :: body) ('?' :: '>' :: behind), behind)

/-! ## Tags -/

/-- An attribute as it is written: its name and value, the text from the name on, and the text
that follows the value. -/
structure WrittenAttribute where
  name : List Char
  value : List Char
  place : List Char
  following : List Char
deriving DecidableEq

/-- A start tag as it is written.  An empty element has no end tag. -/
structure StartTag where
  name : List Char
  attributes : List WrittenAttribute
  isEmpty : Bool
deriving DecidableEq

/-- The opening quote of an attribute value, behind the name of the attribute. -/
def scanEquals (start t : List Char) : Except Stop (Char × List Char) :=
  match skipSpaces t with
  | '=' :: rest =>
    match skipSpaces rest with
    | '"' :: behind => .ok ('"', behind)
    | '\'' :: behind => .ok ('\'', behind)
    | found => unexpected start found
  | found => unexpected start found

/-- An attribute value up to its closing quote, and what follows the quote. -/
def scanValue (f : TextForm) (start : List Char) (quote : Char) : List Char →
    Except Stop (List Char × List Char)
  | [] => stop .unclosedToken start
  | c :: rest =>
    if c = quote then .ok ([], rest)
    else if c = '<' || !isXmlChar c then refused start (c :: rest)
    else do
      if c = '&' then let _ ← scanReference f start rest
      let (value, behind) ← scanValue f start quote rest
      return (c :: value, behind)

/-- Whether the name of a tag or the value of an attribute may end before a text. -/
def endsPart : List Char → Bool
  | [] => false
  | c :: _ => isSpace c || c == '/' || c == '>'

/-- The attributes of a tag up to its end, whether the tag is that of an empty element, and what
follows the tag. -/
def scanAttributes (f : TextForm) (start : List Char) : (budget : Nat) → List Char →
    Except Stop (List WrittenAttribute × Bool × List Char)
  | 0, _ => stop .unclosedToken start
  | budget + 1, t =>
    if !endsPart t then unexpected start t
    else
      match skipSpaces t with
      | '>' :: behind => .ok ([], false, behind)
      | '/' :: '>' :: behind => .ok ([], true, behind)
      | '/' :: found => unexpected start found
      | place => do
        let (name, behindName) ← scanQualifiedName f start place
        let (quote, opened) ← scanEquals start behindName
        let (value, behindValue) ← scanValue f start quote opened
        let (attributes, isEmpty, behind) ← scanAttributes f start budget behindValue
        return (⟨name, value, place, quote :: behindValue⟩ :: attributes, isEmpty, behind)

/-- A start tag whose opening bracket has been taken off. -/
def scanStartTag (f : TextForm) (start t : List Char) : Except Stop (StartTag × List Char) := do
  let (name, behindName) ← scanQualifiedName f start t
  let (attributes, isEmpty, behind) ← scanAttributes f start (t.length + 1) behindName
  return (⟨name, attributes, isEmpty⟩, behind)

/-- The name in an end tag whose opening has been taken off, and what follows the tag. -/
def scanEndTag (f : TextForm) (start : List Char) :
    List Char → Except Stop (List Char × List Char)
  | [] => stop .unclosedToken start
  | c :: rest =>
    if f.isNameStart c then do
      let inName (d : Char) : Bool := f.isNameChar d || d == ':'
      let (name, behindName) ←
        endName start (c :: rest.takeWhile inName) (rest.dropWhile inName)
      match skipSpaces behindName with
      | '>' :: behind => return (name, behind)
      | found => unexpected start found
    else refused start (c :: rest)

/-! ## Sections of character data -/

/-- What follows the opening of a section of character data behind the characters that every such
section begins with.  A text too short for the word that follows them is unclosed. -/
def scanCdataOpening (f : TextForm) (start t : List Char) : Except Stop (List Char) :=
  let rec dropWord : List Char → List Char → Except Stop (List Char)
    | [], rest => .ok rest
    | c :: word, d :: rest => if c = d then dropWord word rest else stop .invalidToken (d :: rest)
    | _, [] => stop .unclosedToken start
  if f.octets (t.take 6) < 6 * f.unit then stop .unclosedToken start
  else dropWord ['C', 'D', 'A', 'T', 'A', '['] t

/-- A piece of a section of character data: some of its text, or its end. -/
inductive CdataPiece where
  | text (run : List Char)
  | lineEnd
  | close
deriving DecidableEq

/-- The piece that the text of a section begins with.  A section that the text ends in is reported
at its end, or at the carriage return or the brackets that stand there. -/
def scanCdataPiece (f : TextForm) : List Char → Except Stop (CdataPiece × List Char)
  | [] => stop .openCdata []
  | ']' :: ']' :: '>' :: behind => .ok (.close, behind)
  | [']'] => stop .openCdata [']']
  | [']', ']'] => stop .openCdata [']', ']']
  | '\n' :: rest => .ok (.lineEnd, rest)
  | c :: rest =>
    if f.isReturn c then
      match rest with
      | [] => stop .openCdata [c]
      | '\n' :: behind => .ok (.lineEnd, behind)
      | behind => .ok (.lineEnd, behind)
    else if isXmlChar c then
      let isInside (d : Char) : Bool := isXmlChar d && d != ']' && !f.endsLine d
      .ok (.text (c :: rest.takeWhile isInside), rest.dropWhile isInside)
    else refused (c :: rest) (c :: rest)

end Xml
end DocumentGateway
