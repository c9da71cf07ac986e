import DocumentGateway.Json.Fault
import DocumentGateway.MediaType
import DocumentGateway.Value.AccessFault
import DocumentGateway.Value.Shown
import DocumentGateway.Xml.Fault
import DocumentGateway.Xml.Printer

namespace DocumentGateway

/-!
# Faults

Everything that an operation can fail with.  Most faults are of one kind: a body, a document or a
value that does not have the form an operation needs.  The others are kept apart by what a caller
does about them.
-/

/-- The two formats that documents and bodies are converted from and to. -/
inductive Format where
  | json
  | xml
deriving DecidableEq

def Format.name : Format → String
  | json => "JSON"
  | xml => "XML"

/-- The body type of a format. -/
def Format.bodyType : Format → BodyType
  | json => .json
  | xml => .xml

/-- The ways in which something lacks the form that is needed. -/
inductive FormatFault where
  | json (fault : Json.ReadFault)
  | xml (cause : Xml.Cause) (line column : Nat)
  | notSerializable (fault : Json.WriteFault)
  | notElement (kind : String)
  | documentType (mimeType : Text) (wanted : Format)
  | responseType (found : BodyType) (wanted : Format)
  | bodyNotUtf8 (fault : Utf8.Fault)
  | contentNotUtf8 (fault : Utf8.Fault)
  | hexadecimal (fault : Hex.Fault)
  | latin1 (fault : EncodingFault)
  | noPermissions
  | permissionsNotList
  | permissionEntry (entry : Value)
  | unknownCapability (capability : Value) (role : Text)
  | suggestionsNotList (kind : String)
  | aggregatesNotObject
  | valuesResponse
  | aggregateEntry (entry : Value)
  | notScalar (name value : Value)
  | notNumeric (name value : Value)

/-- Why an operation failed. -/
inductive Fault where
  | format (fault : FormatFault)
  | notInError
  | inError (message : Text)
  | noSuchAggregate (name : Text)
  | noCredentials
  | unsupportedScheme (given : Value)
  | transport (kind : String) (message : Text)
  | unencodable (fault : EncodingFault)
  | tooDeep (container : Json.Container)
  | serialization (fault : Json.WriteFault)
  | element (fault : Xml.WriteFault)
  | integerTooLarge
  | unhashable (kind : String)
  | missingKey (key : Value)
  | populatedName (name : Value)
  | noValues
  | negativeRange
  | textKind (kind : String)
  | octetsKind (kind : String)
  | octetsFromText
  | digitsKind (kind : String)
  | access (fault : AccessFault)
  | notInstantiable (name : String)
  | logFormat (format : Text)
  | unknownLevel (name : Text)
  | levelKind (level : Value)
  | cannotOpen (path : Text)
  | raised (message : Text)

/-- Quote a value inside of a message. -/
def shownText (v : Value) : Text :=
  Text.ofChars v.shown

def FormatFault.message : FormatFault → Text
  | json fault => "Invalid JSON: " ++ Text.ofString fault.message
  | xml cause line column =>
    "Invalid XML: " ++ Text.ofString (Xml.ReadFault.misplaced cause line column).message
  | notSerializable fault => "Value is not JSON serializable: " ++ Text.ofString fault.message
  | notElement kind => "Cannot serialize " ++ Text.ofString kind ++ Text.ofString " as XML"
  | documentType mimeType wanted =>
    "Document MIME type " ++ Text.ofChars mimeType.quoted ++ Text.ofString " is not " ++
      Text.ofString wanted.name
  | responseType found wanted =>
    "Response is " ++ Text.ofString found.shown ++ Text.ofString ", not " ++
      Text.ofString wanted.name
  | bodyNotUtf8 fault => "Response body is not valid UTF-8: " ++ Text.ofString fault.message
  | contentNotUtf8 fault => "Binary content is not UTF-8 text: " ++ Text.ofString fault.message
  | hexadecimal fault => "Invalid hexadecimal content: " ++ Text.ofString fault.message
  | latin1 fault => "Invalid binary content: " ++ Text.ofString fault.message
  | noPermissions => "Metadata has no permissions"
  | permissionsNotList => "Permissions must be a list"
  | permissionEntry entry => "Invalid permission entry: " ++ shownText entry
  | unknownCapability capability role =>
    "Unknown capability " ++ shownText capability ++ Text.ofString " for role " ++
      Text.ofChars role.quoted
  | suggestionsNotList kind => "Suggestions must be a list, not " ++ Text.ofString kind
  | aggregatesNotObject => "Aggregate results must be a JSON object"
  | valuesResponse => "Invalid values-response"
  | aggregateEntry entry => "Invalid aggregate result: " ++ shownText entry
  | notScalar name value =>
    "Aggregate " ++ shownText name ++ Text.ofString " is not a scalar value: " ++ shownText value
  | notNumeric name value =>
    "Aggregate " ++ shownText name ++ Text.ofString " is not numeric: " ++ shownText value

def Fault.message : Fault → Text
  | format fault => fault.message
  | notInError => "Response is not in error"
  | inError message => "Response is in error: " ++ message
  | noSuchAggregate name =>
    "No aggregate named " ++ Text.ofChars name.quoted ++ Text.ofString " in response"
  | noCredentials => "No username or password configured for this connection"
  | unsupportedScheme given => "Unsupported authentication scheme: " ++ shownText given
  | transport _ message => message
  | unencodable fault => fault.message
  | tooDeep container => container.message
  | serialization fault => fault.message
  | element fault => fault.message
  | integerTooLarge => "int too large to convert to float"
  | unhashable kind => "unhashable type: '" ++ Text.ofString kind ++ Text.ofString "'"
  | missingKey key => shownText key
  | populatedName name =>
    shownText (.text ("Aggregate " ++ shownText name ++
      Text.ofString " is already populated, use add()"))
  | noValues => "list index out of range"
  | negativeRange => "offset and max_size must not be negative"
  | textKind kind => "Text content must be a str, not " ++ Text.ofString kind
  | octetsKind kind => "cannot convert '" ++ Text.ofString kind ++ Text.ofString "' object to bytes"
  | octetsFromText => "string argument without an encoding"
  | digitsKind kind =>
    "argument should be bytes, buffer or ASCII string, not '" ++ Text.ofString kind ++
      Text.ofString "'"
  | access fault => fault.message
  | notInstantiable name => Text.ofString name ++ Text.ofString " only provides static methods"
  | logFormat given => "Invalid format '" ++ given ++ Text.ofString "' for '%' style"
  | unknownLevel name => "Unknown level: " ++ Text.ofChars name.quoted
  | levelKind level => "Level not an integer or a valid string: " ++ shownText level
  | cannotOpen path => "[Errno 2] No such file or directory: " ++ Text.ofChars path.quoted
  | raised message => message

end DocumentGateway
