import DocumentGateway.Xml.Markup

namespace DocumentGateway
namespace Xml
namespace Prolog

/-!
# The XML declaration

The declaration gives a version, then possibly an encoding, then possibly whether the document
stands alone.  Texts are read in the encoding they come in, whatever the declaration names.  All
places in the declaration are given with the text from its closing on.
-/

/-- One setting of the declaration: its name and its value, each with the text from it on. -/
structure Setting where
  name : List Char
  namePlace : List Char
  value : List Char
  valuePlace : List Char
deriving DecidableEq

/-- The characters of a setting's value. -/
def isSettingChar (c : Char) : Bool :=
  c.isAlphanum || c == '.' || c == '-' || c == '_'

/-- The value of a setting behind its equals sign, and what follows it. -/
def scanSettingValue (t : List Char) : Except Stop (List Char × List Char × List Char) :=
  match skipSpaces t with
  | quote :: opened =>
    if quote = '"' || quote = '\'' then
      match opened.dropWhile isSettingChar with
      | c :: rest =>
        if c = quote then .ok (opened.takeWhile isSettingChar, opened, rest)
        else stop .declaration (c :: rest)
      | [] => stop .declaration []
    else stop .declaration (quote :: opened)
  | [] => stop .declaration []

/-- The next setting, if there is one, and what follows it. -/
def scanSetting (t : List Char) : Except Stop (Option (Setting × List Char)) :=
  match t, skipSpaces t with
  | [], _ => .ok none
  | _, [] => .ok none
  | c :: rest, place => do
    if !isSpace c then stop .declaration (c :: rest)
    let inName (d : Char) : Bool := d.toNat < 0x80 && d != '=' && !isSpace d
    match place.takeWhile inName, skipSpaces (place.dropWhile inName) with
    | [], found => stop .declaration found
    | name, '=' :: behind =>
      let (value, valuePlace, following) ← scanSettingValue behind
      return some (⟨name, place, value, valuePlace⟩, following)
    | _, found => stop .declaration found

/-- Whether the document stands alone, by the settings from the one for that on. -/
def readStandalone (s : Setting) (following : List Char) : Except Stop Bool := do
  if s.name ≠ "standalone".toList then stop .declaration s.namePlace
  if s.value ≠ "yes".toList && s.value ≠ "no".toList then stop .declaration s.valuePlace
  if skipSpaces following ≠ [] then stop .declaration (skipSpaces following)
  return s.value = "yes".toList

/-- Whether the document stands alone, by the settings from the one for the encoding on. -/
def readEncoding (s : Setting) (following : List Char) : Except Stop Bool :=
  if s.name ≠ "encoding".toList then readStandalone s following
  else if !(s.value.head?.any Char.isAlpha) then stop .declaration s.valuePlace
  else do
    match ← scanSetting following with
    | some (next, behind) => readStandalone next behind
    | none => return false

/-- Whether the document stands alone, by the body of its declaration. -/
def readSettings (body : List Char) : Except Stop Bool := do
  match ← scanSetting body with
  | none => stop .declaration body
  | some (s, following) =>
    if s.name ≠ "version".toList then stop .declaration s.namePlace
    match ← scanSetting following with
    | some (next, behind) => readEncoding next behind
    | none => return false

/-- Whether a document stands alone, by the body of its declaration and the text from the closing
of the declaration on. -/
def readXmlDeclaration (body closing : List Char) : Except Stop Bool :=
  (readSettings body).mapError (Stop.before closing)

end Prolog
end Xml
end DocumentGateway
