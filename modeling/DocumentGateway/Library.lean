namespace DocumentGateway

/-!
# The library as its callers see it

The version of the library and of the interface it speaks to, the names it exports, and the errors
that its operations end with, as they are named to callers.
-/

def version : String := "1.0.0"

def interfaceVersion : String := "v1"

/-- The exported names, sorted. -/
def exports : List String := [
  "AggregateNotFoundError", "BinaryDocumentContent", "BinaryEncoding", "Capability", "Connection",
  "ContentKind", "DictObject", "DocumentContent", "GenericBinaryDocumentContent",
  "GenericTextDocumentContent", "HttpHeaders", "InvalidFormatError", "InvalidFormatException",
  "JsonHelper", "MIME_BINARY", "MIME_JSON", "MIME_TEXT", "MIME_XML", "MLCLIENT_AUTH",
  "MLCLIENT_HOST", "MLCLIENT_PASSWORD", "MLCLIENT_PORT", "MLCLIENT_USERNAME", "MLClientError",
  "NoCredentialsError", "NoCredentialsException", "Outcome", "Permission", "PermissionSet",
  "Response", "ResponseCode", "ResponseHelper", "ResponseStateError", "ResponseType",
  "SearchSuggestionSet", "TextDocumentContent", "TransportError", "ValuesResult", "XmlHelper",
  "classify"]

/-- A named error: the class it stands for, and whether that is one of the library's own and one
of missing keys. -/
structure NamedError where
  name : String
  className : String
  isOwn : Bool
  isMissingKey : Bool
deriving DecidableEq

def namedErrors : List NamedError := [
  ⟨"MLClientError", "MLClientError", true, false⟩,
  ⟨"InvalidFormatError", "InvalidFormatError", true, false⟩,
  ⟨"NoCredentialsError", "NoCredentialsError", true, false⟩,
  ⟨"ResponseStateError", "ResponseStateError", true, false⟩,
  ⟨"AggregateNotFoundError", "AggregateNotFoundError", true, true⟩,
  ⟨"InvalidFormatException", "InvalidFormatError", true, false⟩,
  ⟨"NoCredentialsException", "NoCredentialsError", true, false⟩,
  ⟨"TransportError", "HTTPStatusError", false, false⟩]

end DocumentGateway
