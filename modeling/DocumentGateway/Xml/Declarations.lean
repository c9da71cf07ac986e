import DocumentGateway.Xml.Markup
import DocumentGateway.Xml.Tally

namespace DocumentGateway
namespace Xml

/-!
# Declared entities and attributes

The document type declaration may name texts and give attributes their defaults.  Only what the
document itself declares is known.  When it refers to declarations elsewhere, an entity that is
not known may be one of those, unless the document says that it stands alone.
-/

/-- What an entity stands for: a text of the document, or something elsewhere that is to be read
or is not to be read as XML. -/
inductive Entity where
  | internal (replacement : List Char)
  | external
  | unparsed
deriving DecidableEq

/-- The declaration of an attribute: whether its values are lists of words, and its default. -/
structure AttributeRule where
  elementName : List Char
  attributeName : List Char
  isTokenized : Bool
  default? : Option (List Char)
deriving DecidableEq

/-- What a document declares.  Declarations are heeded until the document refers to declarations
elsewhere, and throughout when it stands alone. -/
structure Declarations where
  standsAlone : Bool
  refersElsewhere : Bool
  isHeeded : Bool
  entities : List (List Char × Entity)
  rules : List AttributeRule
deriving DecidableEq

namespace Declarations

/-- A document without declarations. -/
def empty (standsAlone : Bool) : Declarations :=
  ⟨standsAlone, false, true, [], []⟩

/-- Whether every entity that may be referred to is declared in the document. -/
def isComplete (d : Declarations) : Bool :=
  !d.refersElsewhere || d.standsAlone

def entity? (d : Declarations) (name : List Char) : Option Entity :=
  (d.entities.find? fun declared => declared.1 = name).map (·.2)

/-- Declare an entity.  The first declaration of a name counts, and the predefined names cannot be
declared otherwise. -/
def withEntity (d : Declarations) (name : List Char) (e : Entity) : Declarations :=
  if d.isHeeded && (predefined? name).isNone && (d.entity? name).isNone then
    { d with entities := d.entities ++ [(name, e)] }
  else d

def rule? (d : Declarations) (elementName attributeName : List Char) : Option AttributeRule :=
  d.rules.find? fun rule => rule.elementName = elementName && rule.attributeName = attributeName

/-- Declare an attribute.  A declaration that gives a default or marks an identifier counts only
when it is the first one of its attribute. -/
def withRule (d : Declarations) (rule : AttributeRule) (isIdentifier : Bool) : Declarations :=
  let isKnown := (d.rule? rule.elementName rule.attributeName).isSome
  if !d.isHeeded || (isKnown && (rule.default?.isSome || isIdentifier)) then d
  else { d with rules := d.rules ++ [rule] }

/-- Whether the values of an attribute are lists of words. -/
def isTokenized (d : Declarations) (elementName attributeName : List Char) : Bool :=
  (d.rule? elementName attributeName).any (·.isTokenized)

/-- The attributes of an element that have defaults. -/
def defaults (d : Declarations) (elementName : List Char) : List (List Char × List Char) :=
  d.rules.filterMap fun rule =>
    if rule.elementName = elementName then rule.default?.map (rule.attributeName, ·) else none

/-- The number of characters in the declared texts, each of them counted with one more. -/
def entitySize (d : Declarations) : Nat :=
  d.entities.foldl (fun size declared =>
    size + match declared.2 with
      | .internal replacement => replacement.length + 1
      | _ => 1) 0

end Declarations

/-! ## Values in declarations -/

/-- The text that an entity is declared to stand for.  Character references are resolved and line
ends made line feeds; references to entities are kept for later.  `following` is the text behind
the value. -/
def entityValue (f : TextForm) (following : List Char) :
    (budget : Nat) → List Char → Except Stop (List Char)
  | 0, _ => .ok []
  | _, [] => .ok []
  | budget + 1, t@('&' :: rest) =>
    match scanReference f t rest with
    | .error s => .error (Stop.before following ⟨.invalidToken, s.remaining⟩)
    | .ok (.character number, behind) =>
      match characterOf? number with
      | some c => return c :: (← entityValue f following budget behind)
      | none => stop .characterNumber (t ++ following)
    | .ok (.entity name, behind) =>
      return '&' :: name ++ ';' :: (← entityValue f following budget behind)
  | _, t@('%' :: rest) =>
    match scanName f t rest with
    | .error s => .error (Stop.before following ⟨.invalidToken, s.remaining⟩)
    | .ok (_, ';' :: _) => stop .parameterReference (t ++ following)
    | .ok (_, []) => stop .invalidToken (t ++ following)
    | .ok (_, found) => stop .invalidToken (found ++ following)
  | budget + 1, '\r' :: '\n' :: rest => return '\n' :: (← entityValue f following budget rest)
  | budget + 1, c :: rest =>
    return (if c = '\r' then '\n' else c) :: (← entityValue f following budget rest)

/-! ## Attribute values -/

/-- A piece of an attribute value: some of its text, a space or the end of a line, or a
reference. -/
inductive ValuePiece where
  | text (run : List Char)
  | space
  | reference (r : Reference)
deriving DecidableEq

/-- Whether a character goes on with a piece of text. -/
def isInsideRun (c : Char) : Bool :=
  c != '&' && c != '<' && !isSpace c

/-- The piece that an attribute value begins with, the number of its octets, and what follows it.
A carriage return at the end of a value is counted as nothing. -/
def scanValuePiece (f : TextForm) : List Char → Except Stop (ValuePiece × Nat × List Char)
  | [] => .ok (.text [], 0, [])
  | '<' :: rest => stop .invalidToken ('<' :: rest)
  | '&' :: rest => do
    let (r, behind) ← scanReference f ('&' :: rest) rest
    let octets := match r with
      | .entity name => f.octets name + 2 * f.unit
      | .character _ => f.octetsBefore ('&' :: rest) behind
    return (.reference r, octets, behind)
  | c :: rest =>
    if f.isReturn c then
      match rest with
      | [] => .ok (.space, 0, [])
      | '\n' :: behind => .ok (.space, 2 * f.unit, behind)
      | behind => .ok (.space, f.unit, behind)
    else if isSpace c then .ok (.space, f.unit, rest)
    else
      let run := c :: rest.takeWhile isInsideRun
      match rest.dropWhile isInsideRun with
      | '<' :: behind => stop .invalidToken ('<' :: behind)
      | behind => .ok (.text run, f.octets run, behind)

/-- The same, where every fault is an invalid token in a whole that `place` finds it in. -/
def nextValuePiece (f : TextForm) (place : List Char → List Char) (t : List Char) :
    Except Stop (ValuePiece × Nat × List Char) :=
  (scanValuePiece f t).mapError fun s => ⟨.invalidToken, place s.remaining⟩

/-- The text of an attribute value.  White space becomes spaces, and references are resolved.
`opened` are the entities whose texts the value is read in.  Faults in the value lie where `place`
puts them; faults in the texts of entities lie at `home`, and so does a reference to an entity
that is not declared. -/
def attributeText (d : Declarations) (home : List Char) : (budget : Nat) → (f : TextForm) →
    Account → (opened : List (List Char)) → (place : List Char → List Char) → List Char →
    Reading (List Char)
  | 0, _, _, _, _, _ => return []
  | _, _, _, _, _, [] => return []
  | budget + 1, f, account, opened, place, t => do
    let (piece, octets, behind) ← nextValuePiece f place t
    account.count home octets
    let inner ← match piece with
      | .text run => pure run
      | .space => pure [' ']
      | .reference (.character number) =>
        match characterOf? number with
        | some c => pure [c]
        | none => stop .characterNumber (place t)
      | .reference (.entity name) =>
        match predefined? name with
        | some c => do
          countPredefined
          pure [c]
        | none =>
          match d.entity? name with
          | none => if d.isComplete then stop .undefinedEntity home else pure []
          | some e =>
            if opened.contains name then stop .recursiveEntity home
            else
              match e with
              | .unparsed => stop .binaryEntity (place t)
              | .external => stop .externalEntityInAttribute (place t)
              | .internal replacement =>
                attributeText d home budget .entity .indirect (name :: opened) (fun _ => home)
                  replacement
    return inner ++ (← attributeText d home budget f account opened place behind)

/-- A list of words with one space between two of them. -/
def joinWords (t : List Char) : List Char :=
  [' '].intercalate ((t.splitOnP (· == ' ')).filter (· != []))

/-- The value of an attribute, given its written form and the text that follows it. -/
def attributeValue (d : Declarations) (f : TextForm) (account : Account) (home : List Char)
    (opened : List (List Char)) (isTokenized : Bool) (following t : List Char) :
    Reading (List Char) := do
  let text ←
    attributeText d home (t.length + d.entitySize + 1) f account opened (· ++ following) t
  return if isTokenized then joinWords text else text

end Xml
end DocumentGateway
