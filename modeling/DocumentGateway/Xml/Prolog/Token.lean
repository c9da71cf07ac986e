import DocumentGateway.Xml.Markup

namespace DocumentGateway
namespace Xml
namespace Prolog

/-!
# Tokens before and behind the root element

Outside of the root element a text consists of white space, comments, instructions, names,
literals and punctuation.  Tokens are told apart by their characters alone; which of them may
come next is a matter of the grammar.
-/

/-- A token. -/
inductive Token where
  | space
  | comment
  | instruction
  | xmlDeclaration (body closing : List Char)
  | root
  | declarationOpen (keyword : List Char)
  | conditionalOpen
  | conditionalClose
  | name (spelling : List Char)
  | qualifiedName (spelling : List Char)
  | nameToken
  | repeatedName
  | hashName (spelling : List Char)
  | literal (content following : List Char)
  | percent
  | parameterReference
  | openBracket
  | closeBracket
  | openParen
  | closeParen
  | closeParenStar
  | closeParenOther
  | comma
  | bar
  | close
deriving DecidableEq

/-- Whether the end of a text may end a token that otherwise needs to know what is behind it.  Such a
token takes an octet with it that is left over at the end. -/
def Token.isEndedByText : Token → Bool
  | name _ => true
  | qualifiedName _ => true
  | nameToken => true
  | hashName _ => true
  | literal _ _ => true
  | closeBracket => true
  | closeParen => true
  | _ => false

/-- Whether a token that needs a delimiter behind it may end before a text.  The end of the text
always delimits. -/
def isDelimited (delimiters : List Char) : List Char → Bool
  | [] => true
  | c :: _ => isSpace c || delimiters.contains c

/-! ## Names -/

/-- What kind of name has been read so far: one without colon, one with a colon inside, or a name
token, which need not begin with a letter. -/
inductive NameKind where
  | plain
  | qualified
  | loose
deriving DecidableEq

/-- The rest of a name, the kind of the whole and what follows it.  Of a name with a sign of
repetition behind it the kind is not known any more. -/
def scanNameRest (f : TextForm) (start : List Char) : NameKind → List Char →
    Except Stop (List Char × Option NameKind × List Char)
  | kind, [] => .ok ([], some kind, [])
  | kind, c :: rest =>
    if f.isNameChar c then do
      let (more, whole, behind) ← scanNameRest f start kind rest
      return (c :: more, whole, behind)
    else if c = ':' then do
      let next ← match kind, rest with
        | .plain, [] => stop .unclosedToken start
        | .plain, d :: _ => pure (if f.isNameChar d then NameKind.qualified else .loose)
        | _, _ => pure .loose
      let (more, whole, behind) ← scanNameRest f start next rest
      return (c :: more, whole, behind)
    else if isDelimited ['>', ')', ',', '|', '[', '%'] (c :: rest) then .ok ([], some kind, c :: rest)
    else if (c = '+' || c = '*' || c = '?') && kind != .loose then .ok ([], none, rest)
    else refused start (c :: rest)

def nameOf (spelling : List Char) : Option NameKind → Token
  | some .plain => .name spelling
  | some .qualified => .qualifiedName spelling
  | some .loose => .nameToken
  | none => .repeatedName

/-- A name, a name token, or a name with a sign of repetition. -/
def scanWord (f : TextForm) : List Char → Except Stop (Token × List Char)
  | [] => stop .invalidToken []
  | c :: rest =>
    if f.isNameChar c || c = ':' then do
      let kind := if f.isNameStart c then .plain else .loose
      let (more, whole, behind) ← scanNameRest f (c :: rest) kind rest
      return (nameOf (c :: more) whole, behind)
    else refused (c :: rest) (c :: rest)

/-! ## Other tokens -/

/-- A literal whose opening quote has been taken off. -/
def scanLiteral (start : List Char) (quote : Char) : List Char →
    Except Stop (List Char × List Char)
  | [] => stop .unclosedToken start
  | c :: rest =>
    if c = quote then
      if isDelimited ['>', '%', '['] rest then .ok ([], rest) else stop .invalidToken rest
    else if isXmlChar c then do
      let (content, behind) ← scanLiteral start quote rest
      return (c :: content, behind)
    else refused start (c :: rest)

/-- What a percent sign begins. -/
def scanPercent (f : TextForm) (start : List Char) : List Char → Except Stop (Token × List Char)
  | [] => stop .unclosedToken start
  | c :: rest =>
    if isSpace c || c = '%' then .ok (.percent, c :: rest)
    else do
      let (_, behind) ← scanName f start (c :: rest)
      match behind with
      | ';' :: more => return (.parameterReference, more)
      | found => unexpected start found

/-- A name behind a number sign. -/
def scanHashName (f : TextForm) (start t : List Char) : Except Stop (Token × List Char) := do
  let (spelling, behind) ← scanName f start t
  if isDelimited [')', '>', '%', '|'] behind then return (.hashName spelling, behind)
  else stop .invalidToken behind

/-- What an opening bracket and an exclamation mark begin. -/
def scanDeclarationOpen (f : TextForm) (start : List Char) :
    List Char → Except Stop (Token × List Char)
  | [] => stop .unclosedToken start
  | '-' :: rest => return (.comment, ← scanCommentOpening start rest)
  | '[' :: rest => .ok (.conditionalOpen, rest)
  | c :: rest =>
    if f.isKeywordChar c then
      let keyword := c :: rest.takeWhile f.isKeywordChar
      match rest.dropWhile f.isKeywordChar with
      | ['%'] => stop .unclosedToken start
      | '%' :: d :: more =>
        if isSpace d || d = '%' then stop .invalidToken ('%' :: d :: more)
        else .ok (.declarationOpen keyword, '%' :: d :: more)
      | d :: more =>
        if isSpace d then .ok (.declarationOpen keyword, d :: more)
        else stop .invalidToken (d :: more)
      | [] => stop .unclosedToken start
    else stop .invalidToken (c :: rest)

/-- What an opening bracket begins. -/
def scanBracket (f : TextForm) (start : List Char) :
    List Char → Except Stop (Token × List Char)
  | [] => stop .unclosedToken start
  | '!' :: rest => scanDeclarationOpen f start rest
  | '?' :: rest => do
    let (instruction, behind) ← scanInstruction f start rest
    match instruction with
    | .declaration body closing => return (.xmlDeclaration body closing, behind)
    | .processing => return (.instruction, behind)
  | c :: rest =>
    if f.beginsRoot c then .ok (.root, start)
    else stop .invalidToken (c :: rest)

/-- What a closing parenthesis begins. -/
def scanCloseParen : List Char → Except Stop (Token × List Char)
  | '*' :: rest => .ok (.closeParenStar, rest)
  | '?' :: rest => .ok (.closeParenOther, rest)
  | '+' :: rest => .ok (.closeParenOther, rest)
  | t =>
    if isDelimited ['>', ',', '|', ')'] t then .ok (.closeParen, t) else stop .invalidToken t

/-- The token that a text begins with.  Nothing is taken off for the root element. -/
def scanToken (f : TextForm) (t : List Char) : Except Stop (Token × List Char) :=
  match t with
  | '"' :: rest => do
    let (content, behind) ← scanLiteral t '"' rest
    return (.literal content ('"' :: behind), behind)
  | '\'' :: rest => do
    let (content, behind) ← scanLiteral t '\'' rest
    return (.literal content ('\'' :: behind), behind)
  | '<' :: rest => scanBracket f t rest
  | '%' :: rest => scanPercent f t rest
  | '#' :: rest => scanHashName f t rest
  | ',' :: rest => .ok (.comma, rest)
  | '[' :: rest => .ok (.openBracket, rest)
  | ']' :: ']' :: '>' :: rest => .ok (.conditionalClose, rest)
  | [']', ']'] => stop .unclosedToken t
  | ']' :: rest => .ok (.closeBracket, rest)
  | '(' :: rest => .ok (.openParen, rest)
  | ')' :: rest => scanCloseParen rest
  | '|' :: rest => .ok (.bar, rest)
  | '>' :: rest => .ok (.close, rest)
  | c :: rest => if isSpace c then .ok (.space, skipSpaces rest) else scanWord f (c :: rest)
  | [] => scanWord f []

end Prolog
end Xml
end DocumentGateway
