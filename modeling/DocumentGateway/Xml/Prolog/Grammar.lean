import DocumentGateway.Xml.Declarations
import DocumentGateway.Xml.Prolog.Token
import DocumentGateway.Xml.Prolog.XmlDeclaration

namespace DocumentGateway
namespace Xml
namespace Prolog

/-!
# What precedes the root element

Before the root element there may be an XML declaration and a document type declaration, with
comments and instructions around them.  The document type declaration may hold declarations of
entities, attributes, elements and notations.  Reading goes token by token: what has been read so
far decides which tokens may come next, and a token that may not come is a fault at its start.
-/

/-- What may come next. -/
inductive Expecting where
  | anything
  | doctypeOrRoot
  | rootOnly
  | doctypeName
  | doctypeSource
  | doctypePublic
  | doctypeSystem
  | doctypeSubset
  | doctypeEnd
  | declaration
  | declarationEnd
  | entityName
  | parameterName
  | entityDefinition (name? : Option (List Char))
  | entityPublic (name? : Option (List Char))
  | entitySystem (name? : Option (List Char))
  | entityFormat (name? : Option (List Char))
  | entityFormatName (name? : Option (List Char))
  | notationName
  | notationSource
  | notationPublic
  | notationSystem
  | notationSystemOrEnd
  | attributeElement
  | attributeName (elementName : List Char)
  | attributeType (elementName attributeName : List Char)
  | attributeNotations (rule : AttributeRule)
  | attributeChoice (rule : AttributeRule) (ofNotations : Bool)
  | attributeChoiceEnd (rule : AttributeRule) (ofNotations : Bool)
  | attributeDefault (rule : AttributeRule) (isIdentifier : Bool)
  | attributeFixed (rule : AttributeRule)
  | contentElement
  | contentModel
  | contentFirst
  | mixedFirst
  | mixedName
  | mixedNext
  | groupMember (connectors : List (Option Token))
  | groupNext (connectors : List (Option Token))
deriving DecidableEq

/-- The stop at a token that may not come. -/
def misplaced (place : List Char) : Token → Except Stop α
  | .parameterReference => stop .parameterReference place
  | .xmlDeclaration _ _ => stop .misplacedDeclaration place
  | _ => stop .syntaxError place

/-- The characters of public identifiers. -/
def isPublicChar (c : Char) : Bool :=
  c.isAlphanum || " \r\n-'()+,./:=?;!*#@$_%".toList.contains c

/-- Accept a literal as a public identifier. -/
def checkPublicId (content following : List Char) : Except Stop Unit :=
  match content.dropWhile isPublicChar with
  | [] => .ok ()
  | found => stop .publicId (found ++ following)

/-- Declare an entity, unless it is a parameter entity, which has no name here. -/
def declareEntity (d : Declarations) (name? : Option (List Char)) (e : Entity) : Declarations :=
  match name? with
  | some name => d.withEntity name e
  | none => d

/-- The text of an entity, which matters while declarations are heeded. -/
def readEntityValue (d : Declarations) (f : TextForm) (name? : Option (List Char))
    (content following : List Char) : Except Stop Declarations := do
  if d.isHeeded then
    let replacement ← entityValue f following (content.length + 1) content
    return declareEntity d name? (.internal replacement)
  else return d

/-- The default of an attribute, which matters while declarations are heeded.  Its own octets are
counted with those of the declaration. -/
def readDefault (d : Declarations) (f : TextForm) (place : List Char) (rule : AttributeRule)
    (content following : List Char) : Reading Declarations := do
  if d.isHeeded then
    let value ← attributeValue d f .free place [] rule.isTokenized following content
    return d.withRule { rule with default? := some value } false
  else return d

/-- The types of attributes that are lists of words, the type of identifiers among them. -/
def wordTypes : List String :=
  ["ID", "IDREF", "IDREFS", "ENTITY", "ENTITIES", "NMTOKEN", "NMTOKENS"]

/-- What a declaration begins with, by its keyword. -/
def declarationKind? (keyword : List Char) : Option Expecting :=
  [("ENTITY", .entityName), ("ATTLIST", .attributeElement), ("ELEMENT", .contentElement),
    ("NOTATION", .notationName)].findSome?
    fun known => if known.1.toList = keyword then some known.2 else none

/-- Leave a group of a content model. -/
def leaveGroup : List (Option Token) → Expecting
  | [] => .declarationEnd
  | [_] => .declarationEnd
  | _ :: outer => .groupNext outer

/-- Join the members of the innermost group by a connector.  All connectors of a group are
alike. -/
def joinGroup (connector : Token) (place : List Char) :
    List (Option Token) → Except Stop Expecting
  | [] => stop .syntaxError place
  | inner :: outer =>
    if inner = none ∨ inner = some connector then .ok (.groupMember (some connector :: outer))
    else stop .syntaxError place

/-- Go on in the document type declaration outside of its inner declarations. -/
def stepDoctype (d : Declarations) (place : List Char) :
    Expecting → Token → Except Stop (Expecting × Declarations)
  | .doctypeName, .name _ => .ok (.doctypeSource, d)
  | .doctypeName, .qualifiedName _ => .ok (.doctypeSource, d)
  | .doctypeSource, .openBracket => .ok (.declaration, d)
  | .doctypeSource, .close => .ok (.rootOnly, d)
  | .doctypeSource, .name spelling =>
    if spelling = "SYSTEM".toList then .ok (.doctypeSystem, d)
    else if spelling = "PUBLIC".toList then .ok (.doctypePublic, d)
    else stop .syntaxError place
  | .doctypePublic, .literal content following => do
    checkPublicId content following
    return (.doctypeSystem, { d with refersElsewhere := true })
  | .doctypeSystem, .literal _ _ => .ok (.doctypeSubset, { d with refersElsewhere := true })
  | .doctypeSubset, .openBracket => .ok (.declaration, d)
  | .doctypeSubset, .close => .ok (.rootOnly, d)
  | .doctypeEnd, .close => .ok (.rootOnly, d)
  | .declaration, .declarationOpen keyword =>
    match declarationKind? keyword with
    | some next => .ok (next, d)
    | none => stop .syntaxError place
  | .declaration, .comment => .ok (.declaration, d)
  | .declaration, .instruction => .ok (.declaration, d)
  | .declaration, .closeBracket => .ok (.doctypeEnd, d)
  | .declaration, .parameterReference =>
    .ok (.declaration, { d with refersElsewhere := true, isHeeded := d.standsAlone })
  | .declarationEnd, .close => .ok (.declaration, d)
  | _, token => misplaced place token

/-- Go on in the declaration of an entity or a notation. -/
def stepEntity (d : Declarations) (f : TextForm) (place : List Char) :
    Expecting → Token → Except Stop (Expecting × Declarations)
  | .entityName, .percent => .ok (.parameterName, d)
  | .entityName, .name spelling => .ok (.entityDefinition (some spelling), d)
  | .parameterName, .name _ => .ok (.entityDefinition none, d)
  | .entityDefinition name?, .name spelling =>
    if spelling = "SYSTEM".toList then .ok (.entitySystem name?, d)
    else if spelling = "PUBLIC".toList then .ok (.entityPublic name?, d)
    else stop .syntaxError place
  | .entityDefinition name?, .literal content following =>
    return (.declarationEnd, ← readEntityValue d f name? content following)
  | .entityPublic name?, .literal content following => do
    checkPublicId content following
    return (.entitySystem name?, d)
  | .entitySystem name?, .literal _ _ => .ok (.entityFormat name?, d)
  | .entityFormat name?, .close => .ok (.declaration, declareEntity d name? .external)
  | .entityFormat (some name), .name spelling =>
    if spelling = "NDATA".toList then .ok (.entityFormatName (some name), d)
    else stop .syntaxError place
  | .entityFormatName name?, .name _ => .ok (.declarationEnd, declareEntity d name? .unparsed)
  | .notationName, .name _ => .ok (.notationSource, d)
  | .notationSource, .name spelling =>
    if spelling = "SYSTEM".toList then .ok (.notationSystem, d)
    else if spelling = "PUBLIC".toList then .ok (.notationPublic, d)
    else stop .syntaxError place
  | .notationPublic, .literal content following => do
    checkPublicId content following
    return (.notationSystemOrEnd, d)
  | .notationSystem, .literal _ _ => .ok (.declarationEnd, d)
  | .notationSystemOrEnd, .literal _ _ => .ok (.declarationEnd, d)
  | .notationSystemOrEnd, .close => .ok (.declaration, d)
  | _, token => misplaced place token

/-- What follows the name of an attribute's type. -/
def afterType? (rule : AttributeRule) (type : List Char) : Option Expecting :=
  if type = "CDATA".toList then some (.attributeDefault { rule with isTokenized := false } false)
  else if type = "NOTATION".toList then some (.attributeNotations rule)
  else if wordTypes.any (·.toList = type) then
    some (.attributeDefault rule (type = "ID".toList))
  else none

/-- Go on in the declaration of an element's attributes. -/
def stepAttribute (d : Declarations) (f : TextForm) (place : List Char) :
    Expecting → Token → Reading (Expecting × Declarations)
  | .attributeElement, .name spelling => return (.attributeName spelling, d)
  | .attributeElement, .qualifiedName spelling => return (.attributeName spelling, d)
  | .attributeName _, .close => return (.declaration, d)
  | .attributeName elementName, .name spelling => return (.attributeType elementName spelling, d)
  | .attributeName elementName, .qualifiedName spelling =>
    return (.attributeType elementName spelling, d)
  | .attributeType elementName attributeName, .name spelling =>
    match afterType? ⟨elementName, attributeName, true, none⟩ spelling with
    | some next => return (next, d)
    | none => stop .syntaxError place
  | .attributeType elementName attributeName, .openParen =>
    return (.attributeChoice ⟨elementName, attributeName, true, none⟩ false, d)
  | .attributeNotations rule, .openParen => return (.attributeChoice rule true, d)
  | .attributeChoice rule ofNotations, .name _ => return (.attributeChoiceEnd rule ofNotations, d)
  | .attributeChoice rule false, .qualifiedName _ => return (.attributeChoiceEnd rule false, d)
  | .attributeChoice rule false, .nameToken => return (.attributeChoiceEnd rule false, d)
  | .attributeChoiceEnd rule ofNotations, .bar => return (.attributeChoice rule ofNotations, d)
  | .attributeChoiceEnd rule _, .closeParen => return (.attributeDefault rule false, d)
  | .attributeDefault rule isIdentifier, .hashName spelling =>
    if spelling = "IMPLIED".toList || spelling = "REQUIRED".toList then
      return (.attributeName rule.elementName, d.withRule rule isIdentifier)
    else if spelling = "FIXED".toList then return (.attributeFixed rule, d)
    else stop .syntaxError place
  | .attributeDefault rule _, .literal content following =>
    return (.attributeName rule.elementName, ← readDefault d f place rule content following)
  | .attributeFixed rule, .literal content following =>
    return (.attributeName rule.elementName, ← readDefault d f place rule content following)
  | _, token => misplaced place token

/-- Go on in the declaration of an element's content. -/
def stepContent (d : Declarations) (place : List Char) :
    Expecting → Token → Except Stop (Expecting × Declarations)
  | .contentElement, .name _ => .ok (.contentModel, d)
  | .contentElement, .qualifiedName _ => .ok (.contentModel, d)
  | .contentModel, .name spelling =>
    if spelling = "EMPTY".toList || spelling = "ANY".toList then .ok (.declarationEnd, d)
    else stop .syntaxError place
  | .contentModel, .openParen => .ok (.contentFirst, d)
  | .contentFirst, .hashName spelling =>
    if spelling = "PCDATA".toList then .ok (.mixedFirst, d) else stop .syntaxError place
  | .contentFirst, .openParen => .ok (.groupMember [none, none], d)
  | .contentFirst, .name _ => .ok (.groupNext [none], d)
  | .contentFirst, .qualifiedName _ => .ok (.groupNext [none], d)
  | .contentFirst, .repeatedName => .ok (.groupNext [none], d)
  | .mixedFirst, .closeParen => .ok (.declarationEnd, d)
  | .mixedFirst, .closeParenStar => .ok (.declarationEnd, d)
  | .mixedFirst, .bar => .ok (.mixedName, d)
  | .mixedName, .name _ => .ok (.mixedNext, d)
  | .mixedName, .qualifiedName _ => .ok (.mixedNext, d)
  | .mixedNext, .closeParenStar => .ok (.declarationEnd, d)
  | .mixedNext, .bar => .ok (.mixedName, d)
  | .groupMember connectors, .openParen => .ok (.groupMember (none :: connectors), d)
  | .groupMember connectors, .name _ => .ok (.groupNext connectors, d)
  | .groupMember connectors, .qualifiedName _ => .ok (.groupNext connectors, d)
  | .groupMember connectors, .repeatedName => .ok (.groupNext connectors, d)
  | .groupNext connectors, .closeParen => .ok (leaveGroup connectors, d)
  | .groupNext connectors, .closeParenStar => .ok (leaveGroup connectors, d)
  | .groupNext connectors, .closeParenOther => .ok (leaveGroup connectors, d)
  | .groupNext connectors, .comma => return (← joinGroup .comma place connectors, d)
  | .groupNext connectors, .bar => return (← joinGroup .bar place connectors, d)
  | _, token => misplaced place token

/-- Whether an expectation belongs to an entity or a notation, to attributes, or to content. -/
inductive Area where
  | outside
  | doctype
  | entity
  | attributes
  | content
deriving DecidableEq

def Expecting.area : Expecting → Area
  | anything | doctypeOrRoot | rootOnly => .outside
  | doctypeName | doctypeSource | doctypePublic | doctypeSystem | doctypeSubset | doctypeEnd
  | declaration | declarationEnd => .doctype
  | entityName | parameterName | entityDefinition _ | entityPublic _ | entitySystem _
  | entityFormat _ | entityFormatName _ | notationName | notationSource | notationPublic
  | notationSystem | notationSystemOrEnd => .entity
  | attributeElement | attributeName _ | attributeType _ _ | attributeNotations _
  | attributeChoice _ _ | attributeChoiceEnd _ _ | attributeDefault _ _ | attributeFixed _ =>
    .attributes
  | contentElement | contentModel | contentFirst | mixedFirst | mixedName | mixedNext
  | groupMember _ | groupNext _ => .content

/-- Go on outside of the document type declaration. -/
def stepOutside (d : Declarations) (place : List Char) (expecting : Expecting) (token : Token) :
    Except Stop (Expecting × Declarations) :=
  let next := if expecting = .rootOnly then Expecting.rootOnly else .doctypeOrRoot
  match token with
  | .space | .comment | .instruction => .ok (next, d)
  | .xmlDeclaration body closing => do
    if expecting ≠ .anything then stop .misplacedDeclaration place
    return (next, .empty (← readXmlDeclaration body closing))
  | .declarationOpen keyword =>
    if expecting ≠ .rootOnly ∧ keyword = "DOCTYPE".toList then .ok (.doctypeName, d)
    else stop .syntaxError place
  | found => misplaced place found

/-- Go on with a token that stands at a place. -/
def step (d : Declarations) (f : TextForm) (place : List Char) (expecting : Expecting)
    (token : Token) : Reading (Expecting × Declarations) :=
  match expecting.area, token with
  | .outside, _ => stepOutside d place expecting token
  | _, .space => return (expecting, d)
  | .doctype, _ => stepDoctype d place expecting token
  | .entity, _ => stepEntity d f place expecting token
  | .attributes, _ => stepAttribute d f place expecting token
  | .content, _ => stepContent d place expecting token

/-- Whether a token has to be one of some keywords where it may come. -/
def isKeyword : Expecting → Token → Bool
  | _, .hashName _ => true
  | .doctypeSource, .name _ => true
  | .entityDefinition _, .name _ => true
  | .entityFormat _, .name _ => true
  | .notationSource, .name _ => true
  | .attributeType _ _, .name _ => true
  | .contentModel, .name _ => true
  | _, _ => false

/-- Whether the content of a literal is read where it may come. -/
def isContentRead : Expecting → Bool
  | .entityDefinition _ => true
  | .attributeDefault _ _ => true
  | .attributeFixed _ => true
  | _ => false

/-- The stop in a text whose last token takes an octet with it that is left over.  It is no keyword with
that, and of a literal half of the closing quote is taken for content. -/
def lastStop (d : Declarations) (place : List Char) (expecting : Expecting) (token : Token) : Stop :=
  if isKeyword expecting token then ⟨.syntaxError, place⟩
  else
    match token with
    | .literal _ following =>
      if d.isHeeded && isContentRead expecting then ⟨.invalidToken, following⟩ else ⟨.noElement, []⟩
    | _ => ⟨.noElement, []⟩

/-- The end of a text in which something more is wanted.  An octet that is left over there begins a
token, unless the token before took it, which stops as `taken?` says. -/
def endOfText (f : TextForm) (taken? : Option Stop) : Except Stop α :=
  .error (if f.hasLeftover then taken?.getD ⟨.unclosedToken, []⟩ else ⟨.noElement, []⟩)

/-- Read up to the root element: what is declared before it, and the text from it on.  Where the token
before ends a text that ends here, `taken?` is the stop that an octet behind it leads to. -/
def readFrom (f : TextForm) : (budget : Nat) → (taken? : Option Stop) → Expecting → Declarations →
    List Char → Reading (Declarations × List Char)
  | 0, _, _, _, t => stop .noElement t
  | _, taken?, _, _, [] => endOfText f taken?
  | budget + 1, _, expecting, d, t => do
    let (token, behind) ← scanToken f t
    if token = .root ∧ expecting.area = .outside then return (d, t)
    else
      tolerate t (·.upTo f behind)
      let (next, declared) ← step d f t expecting token
      let taken? := if token.isEndedByText then some (lastStop d t expecting token) else none
      readFrom f budget taken? next declared behind

/-- Read up to the root element.  A byte order mark may precede everything. -/
def read (f : TextForm) (t : List Char) : Reading (Declarations × List Char) :=
  match t with
  | '\uFEFF' :: rest => readFrom f (t.length + 1) none .anything (.empty false) rest
  | _ => readFrom f (t.length + 1) none .anything (.empty false) t

/-- Read what follows the root element: white space, comments and instructions. -/
def readEpilog (f : TextForm) : (budget : Nat) → List Char → Reading Unit
  | 0, _ => return ()
  | _, [] => if f.hasLeftover then stop .unclosedToken [] else return ()
  | budget + 1, t => do
    let (token, behind) ← scanToken f t
    match token with
    | .space | .comment | .instruction =>
      tolerate t (·.upTo f behind)
      readEpilog f budget behind
    | _ =>
      if !(behind.isEmpty && token.isEndedByText) then tolerate t (·.upTo f behind)
      stop .junkBehindElement t

end Prolog
end Xml
end DocumentGateway
