import DocumentGateway.Xml.Declarations
import DocumentGateway.Xml.Element

namespace DocumentGateway
namespace Xml

/-!
# Reading elements

Content is text, references, sections of character data, comments, instructions and elements.  It
ends at the end tag of the element that it is in.  The text of an entity is content of its own: it
begins and ends outside of all elements that are inside of it.  What is wrong in the text of an
entity is reported at the reference to the entity.
-/

/-! ## Start tags -/

/-- Whether the value of an attribute says what it is written as: it holds no reference, no white
space but spaces, and those only one at a time and between other characters. -/
def isPlainValue (t : List Char) : Bool :=
  t.all (fun c => c != '&' && (c == ' ' || !isSpace c)) && !spaceMayGo true t
where
  /-- Whether a space stands behind another one or at the end. -/
  spaceMayGo (isBehindSpace : Bool) : List Char → Bool
    | [] => false
    | [c] => c == ' '
    | c :: rest => (c == ' ' && isBehindSpace) || spaceMayGo (c == ' ') rest

/-- The values of written attributes.  No name is written twice, and a prefix is bound only to a
namespace that it may be bound to. -/
def readAttributes (d : Declarations) (f : TextForm) (account : Account)
    (opened : List (List Char)) (home elementName : List Char) :
    (seen : List (List Char)) → List WrittenAttribute → Reading (List (List Char × List Char))
  | _, [] => return []
  | seen, a :: rest => do
    if seen.contains a.name then stop .duplicateAttribute a.place
    let isTokenized := d.isTokenized elementName a.name
    let value ←
      if isPlainValue a.value then pure a.value
      else attributeValue d f account home opened isTokenized a.following a.value
    checkBinding home a.name value
    let more ← readAttributes d f account opened home elementName (a.name :: seen) rest
    return (a.name, value) :: more
where
  /-- Accept an attribute that binds no prefix, or binds one rightly. -/
  checkBinding (home name value : List Char) : Except Stop Unit :=
    match (boundPrefix? name).bind (bindingFault? · value) with
    | some cause => stop cause home
    | none => .ok ()

/-- A start tag with its names expanded. -/
structure OpenedElement where
  tag : List Char
  attributes : OrderedPairs (List Char) (List Char)
  scope : Scope

/-- Where the values in a tag are counted.  The tag of an empty element has been counted with
everything in it. -/
def accountOf (opened : List (List Char)) (tag : StartTag) : Account :=
  if tag.isEmpty then .free else if opened.isEmpty then .direct else .indirect

/-- Read what a start tag says.  Attributes that it lacks have their defaults. -/
def openElement (d : Declarations) (f : TextForm) (opened : List (List Char)) (scope : Scope)
    (home : List Char) (tag : StartTag) : Reading OpenedElement := do
  let written ← readAttributes d f (accountOf opened tag) opened home tag.name [] tag.attributes
  let defaults := (d.defaults tag.name).filter fun pair =>
    !(written.any fun known => known.1 = pair.1)
  defaults.forM fun pair => readAttributes.checkBinding home pair.1 pair.2
  let all := written ++ defaults
  let bindings := all.filterMap fun pair => (boundPrefix? pair.1).map (·, pair.2)
  let plain := all.filter fun pair => (boundPrefix? pair.1).isNone
  let inner : Scope := bindings.reverse ++ scope
  let expanded : Except Cause OpenedElement := do
    let attributes ← expandAttributes inner [] plain
    return ⟨← expandElement inner tag.name, attributes, inner⟩
  match expanded with
  | .ok element => return element
  | .error cause => stop cause home

/-! ## Pieces of content -/

/-- What a piece of content is. -/
inductive Token where
  | text (run : List Char)
  | lineEnd
  | lastReturn
  | lastBrackets (run : List Char)
  | reference (r : Reference)
  | cdataOpen
  | nothing
  | startTag (tag : StartTag)
  | endTag (name place : List Char)
deriving DecidableEq

/-- The piece that an opening bracket begins. -/
def scanBracketed (f : TextForm) (start : List Char) : List Char → Except Stop (Token × List Char)
  | [] => stop .unclosedToken start
  | '/' :: rest => do
    let (name, behind) ← scanEndTag f start rest
    return (.endTag name rest, behind)
  | '!' :: '-' :: rest => return (.nothing, ← scanCommentOpening start rest)
  | '!' :: '[' :: rest => return (.cdataOpen, ← scanCdataOpening f start rest)
  | '!' :: found => unexpected start found
  | '?' :: rest => do
    let (instruction, behind) ← scanInstruction f start rest
    match instruction with
    | .declaration _ _ => stop .misplacedDeclaration start
    | .processing => return (.nothing, behind)
  | t => do
    let (tag, behind) ← scanStartTag f start t
    return (.startTag tag, behind)

/-- The number of characters in the run of text that a text begins with.  Brackets at the end of
all text are not in the run, nor are those that would end a section of character data. -/
def runLength (f : TextForm) : List Char → Nat
  | [] => 0
  | ']' :: ']' :: '>' :: _ => 0
  | [']'] => 0
  | [']', ']'] => 0
  | c :: rest =>
    if c = '<' || c = '&' || f.endsLine c || !isXmlChar c then 0 else runLength f rest + 1

/-- The run of text that a text begins with, and what follows it. -/
def scanRun (f : TextForm) (t : List Char) : Except Stop (List Char × List Char) :=
  match t.drop (runLength f t) with
  | ']' :: ']' :: '>' :: rest => stop .invalidToken ('>' :: rest)
  | behind => .ok (t.take (runLength f t), behind)

/-- The piece that a text begins with. -/
def scanToken (f : TextForm) : List Char → Except Stop (Token × List Char)
  | [] => stop .noElement []
  | '<' :: rest => scanBracketed f ('<' :: rest) rest
  | '&' :: rest => do
    let (r, behind) ← scanReference f ('&' :: rest) rest
    return (.reference r, behind)
  | [']'] => .ok (.lastBrackets [']'], [])
  | [']', ']'] => .ok (.lastBrackets [']', ']'], [])
  | '\n' :: rest => .ok (.lineEnd, rest)
  | c :: rest =>
    if f.isReturn c then
      match rest with
      | [] => .ok (.lastReturn, [])
      | '\n' :: behind => .ok (.lineEnd, behind)
      | behind => .ok (.lineEnd, behind)
    else if isXmlChar c then do
      let (run, behind) ← scanRun f (c :: rest)
      return (.text run, behind)
    else refused (c :: rest) (c :: rest)

/-- Count a piece of content of the document, or of the text of an entity. -/
def countToken (f : TextForm) (opened : List (List Char)) (place : List Char) (token : Token)
    (behind : List Char) : Reading Unit :=
  if opened.isEmpty then tolerate place (·.upTo f behind)
  else
    Account.indirect.count place <|
      match token with
      | .text run => f.octets run
      | .reference (.entity name) => f.octets name + 2 * f.unit
      | _ => f.octetsBefore place behind

/-- The end of a text: of the document, which has to be in no element, or of an entity, which has
to be in none of the elements opened in it. -/
def endOfText (opened : List (List Char)) (place : List Char) :
    (enclosing : Option (List Char)) → Except Stop Unit
  | none => .ok ()
  | some _ => stop (if opened.isEmpty then .noElement else .asynchronousEntity) place

/-- The text that a reference to an entity stands for, if the reference is in order. -/
def replacementText (d : Declarations) (opened : List (List Char)) (place name : List Char) :
    Except Stop (List Char) :=
  match d.entity? name with
  | none =>
    if d.isComplete then stop .undefinedEntity place
    else stop (.unknownEntity ('&' :: name ++ [';'])) place
  | some e =>
    if opened.contains name then stop .recursiveEntity place
    else
      match e with
      | .unparsed => stop .binaryEntity place
      | .external => stop (.unknownEntity ('&' :: name ++ [';'])) place
      | .internal replacement => .ok replacement

/-! ## Content -/

/-- The text of a section of character data up to its end, and what follows the section. -/
def readCdata (f : TextForm) (opened : List (List Char)) : (budget : Nat) → List Char →
    Reading (List Char × List Char)
  | 0, t => stop .openCdata t
  | budget + 1, t => do
    let (piece, behind) ← scanCdataPiece f t
    if opened.isEmpty then tolerate t (·.upTo f behind)
    else Account.indirect.count t (f.octetsBefore t behind)
    match piece with
    | .close => return ([], behind)
    | .lineEnd =>
      let (more, following) ← readCdata f opened budget behind
      return ('\n' :: more, following)
    | .text run =>
      let (more, following) ← readCdata f opened budget behind
      return (run ++ more, following)

mutual

/-- Content up to the end tag of the enclosing element or, in an entity outside of all elements in
it, up to the end of the text.  `opened` are the entities being read. -/
def readContent (d : Declarations) : (budget : Nat) → (f : TextForm) →
    (opened : List (List Char)) → (enclosing : Option (List Char)) → Scope → List Char →
    Reading (Content × List Char)
  | 0, _, _, _, _, t => stop .noElement t
  | _, f, opened, enclosing, _, [] => do
    if f.hasLeftover then stop .unclosedToken []
    endOfText opened [] enclosing
    return (.empty, [])
  | budget + 1, f, opened, enclosing, scope, t => do
    let (token, behind) ← scanToken f t
    countToken f opened t token behind
    match token with
    | .text run =>
      let (content, following) ← readContent d budget f opened enclosing scope behind
      return (content.behindText run, following)
    | .lineEnd =>
      let (content, following) ← readContent d budget f opened enclosing scope behind
      return (content.behindText ['\n'], following)
    | .lastReturn =>
      endOfText opened t enclosing
      return (⟨['\n'], []⟩, [])
    | .lastBrackets run =>
      endOfText opened [] enclosing
      return (⟨run, []⟩, [])
    | .cdataOpen =>
      let (text, afterSection) ← readCdata f opened (behind.length + 1) behind
      let (content, following) ← readContent d budget f opened enclosing scope afterSection
      return (content.behindText text, following)
    | .nothing => readContent d budget f opened enclosing scope behind
    | .reference (.character number) =>
      match characterOf? number with
      | none => stop .characterNumber t
      | some c =>
        let (content, following) ← readContent d budget f opened enclosing scope behind
        return (content.behindText [c], following)
    | .reference (.entity name) =>
      match predefined? name with
      | some c =>
        countPredefined
        let (content, following) ← readContent d budget f opened enclosing scope behind
        return (content.behindText [c], following)
      | none =>
        let replacement ← replacementText d opened t name
        let (inner, _) ←
          Reading.movedTo t (readContent d budget .entity (name :: opened) none scope replacement)
        let (content, following) ← readContent d budget f opened enclosing scope behind
        return (inner.append content, following)
    | .startTag tag =>
      let (element, afterElement) ← readElement d budget f opened scope t tag behind
      let (content, following) ← readContent d budget f opened enclosing scope afterElement
      return (content.behindChild element, following)
    | .endTag name place =>
      match enclosing with
      | none => stop .asynchronousEntity t
      | some expected =>
        if name = expected then return (.empty, behind) else stop .mismatchedTag place

/-- The element that a start tag begins, and what follows the element. -/
def readElement (d : Declarations) : (budget : Nat) → (f : TextForm) →
    (opened : List (List Char)) → Scope → (place : List Char) → StartTag →
    (behind : List Char) → Reading (Element × List Char)
  | 0, _, _, _, place, _, _ => stop .noElement place
  | budget + 1, f, opened, scope, place, tag, behind => do
    let element ← openElement d f opened scope place tag
    if tag.isEmpty then return (Content.empty.toElement element.tag element.attributes, behind)
    else
      let (content, following) ←
        readContent d budget f opened (some tag.name) element.scope behind
      return (content.toElement element.tag element.attributes, following)

end

end Xml
end DocumentGateway
