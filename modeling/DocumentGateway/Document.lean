import DocumentGateway.Run

namespace DocumentGateway

/-!
# Documents

A document is a text or a string of octets together with a bare media type.  Octets can be given
and shown as text, in hexadecimal digits or with one character for each octet, and a document of
octets that are UTF-8 can be read as a text.
-/

/-- How octets are spelled as text. -/
inductive BinaryEncoding where
  | hex
  | bin
deriving DecidableEq

namespace BinaryEncoding

def all : List BinaryEncoding :=
  [hex, bin]

def name : BinaryEncoding → String
  | hex => "HEX"
  | bin => "BIN"

def value : BinaryEncoding → Nat
  | hex => 1
  | bin => 2

/-- The encoding of a number: every number but that of `hex` stands for `bin`. -/
def ofNumber (n : Int) : BinaryEncoding :=
  if n = 1 then hex else bin

/-- Spell octets. -/
def spell : BinaryEncoding → Bytes → Text
  | hex, bytes => Text.ofChars (Hex.encode bytes)
  | bin, bytes => Text.ofChars (latin1Chars bytes)

/-- Read the octets that a text spells. -/
def read : BinaryEncoding → Text → Except FormatFault Bytes
  | hex, t => (Hex.decode t).mapError .hexadecimal
  | bin, t => (Encoding.latin1.encode t).mapError .latin1

end BinaryEncoding

/-- What a document holds. -/
inductive DocumentContent where
  | text (t : Text)
  | binary (bytes : Bytes)
deriving DecidableEq

namespace DocumentContent

/-- The kinds of content, by name and value. -/
def kinds : List (String × String) :=
  [("TEXT", "text"), ("BINARY", "binary")]

def kind : DocumentContent → String
  | text _ => "text"
  | binary _ => "binary"

/-- The octets that a document's content is sent as. -/
def octets : DocumentContent → Except Fault Bytes
  | text t => (Encoding.utf8.encode t).mapError .unencodable
  | binary bytes => .ok bytes

end DocumentContent

/-- A document. -/
structure Document where
  content : DocumentContent
  mimeType : Text
deriving DecidableEq

namespace Document

/-- A document with a media type, of which the parameters are dropped. -/
def make (content : DocumentContent) (mimeType : Text) : Document :=
  ⟨content, MediaType.bare mimeType⟩

/-- A text document.  Only a text can be its content. -/
def ofText (content : Value) (mimeType : Text) : Except Fault Document :=
  match content with
  | .text t => .ok (make (.text t) mimeType)
  | v => .error (.textKind v.kindName)

/-- A binary document. -/
def ofOctets (content : Value) (mimeType : Text) : Except Fault Document :=
  match content with
  | .bytes b => .ok (make (.binary b) mimeType)
  | .buffer b => .ok (make (.binary b) mimeType)
  | .text _ => .error .octetsFromText
  | v => .error (.octetsKind v.kindName)

def setMimeType (d : Document) (mimeType : Text) : Document :=
  { d with mimeType := MediaType.bare mimeType }

/-- The octets whose hexadecimal digits are themselves given as octets. -/
def octetsOfDigits (digits : Bytes) : Except Fault Bytes :=
  (Hex.ofDigits (Text.ofChars (latin1Chars digits))).mapError (.format ∘ .hexadecimal)

/-- The octets that a value spells. -/
def spelledOctets (encoding : BinaryEncoding) (v : Value) : Except Fault Bytes :=
  match encoding, v with
  | _, .text t => (encoding.read t).mapError .format
  | .hex, .bytes b => octetsOfDigits b
  | .hex, .buffer b => octetsOfDigits b
  | .hex, _ => .error (.digitsKind v.kindName)
  | .bin, _ => .error (.access (.noAttribute v.kindName "encode"))

/-- Replace the content.  The encoding matters for binary documents only. -/
def setContent (d : Document) (v : Value) (encoding : BinaryEncoding) : Except Fault Document :=
  match d.content with
  | .text _ =>
    match v with
    | .text t => .ok { d with content := .text t }
    | _ => .error (.textKind v.kindName)
  | .binary _ => return { d with content := .binary (← spelledOctets encoding v) }

/-- Replace the octets of a binary document. -/
def setOctets (d : Document) (bytes : Bytes) : Document :=
  { d with content := .binary bytes }

/-- The content as text, octets being spelled in an encoding. -/
def contentText (d : Document) (encoding : BinaryEncoding) : Text :=
  match d.content with
  | .text t => t
  | .binary bytes => encoding.spell bytes

/-- The number of characters of a text, or of hexadecimal digits of octets. -/
def length (d : Document) : Nat :=
  match d.content with
  | .text t => t.length
  | .binary bytes => 2 * bytes.length

/-- The document as messages show it. -/
def shown (d : Document) : Text :=
  match d.content with
  | .text t =>
    "GenericTextDocumentContent(mime_type=" ++ Text.ofChars d.mimeType.quoted ++
      Text.ofString (", length=" ++ toString t.length ++ ")")
  | .binary bytes =>
    "GenericBinaryDocumentContent(mime_type=" ++ Text.ofChars d.mimeType.quoted ++
      Text.ofString (", size=" ++ toString bytes.length ++ ")")

/-- The text of a document.  Octets have to be UTF-8. -/
def text (d : Document) : Except Fault Text :=
  match d.content with
  | .text t => .ok t
  | .binary bytes =>
    match Utf8.decode bytes with
    | .ok chars => .ok (Text.ofChars chars)
    | .error fault => .error (.format (.contentNotUtf8 fault))

/-- A text document with the text and the media type of another document. -/
def copyAsText (d : Document) : Document :=
  make (.text (d.contentText .hex)) d.mimeType

/-- The text of a document in a format, if it is to be accepted: unless its media type is not
looked at, it has to be one of the format. -/
def textIn (d : Document) (format : Format) (isTypeChecked : Bool) : Except Fault Text :=
  if isTypeChecked && MediaType.classify d.mimeType != format.bodyType then
    .error (.format (.documentType d.mimeType format))
  else d.text

end Document

/-! ## Reading piece by piece -/

namespace DocumentContent

/-- What reading asks for: everything, a number of characters or octets, or a line. -/
inductive Portion where
  | all
  | count (n : Nat)
  | line
deriving DecidableEq

/-- The length of the first line of a list, its line feed included. -/
def lineLength [BEq α] (lineFeed : α) (xs : List α) : Nat :=
  min xs.length ((xs.takeWhile (!· == lineFeed)).length + 1)

/-- How much of what is left a portion takes. -/
def Portion.size [BEq α] (lineFeed : α) (xs : List α) : Portion → Nat
  | all => xs.length
  | count n => n
  | line => lineLength lineFeed xs

/-- Take a portion off the front of content, and keep what is left. -/
def take (portion : Portion) : DocumentContent → DocumentContent × DocumentContent
  | text t =>
    let n := portion.size (.scalar '\n') t
    (text (t.take n), text (t.drop n))
  | binary bytes =>
    let n := portion.size 10 bytes
    (binary (bytes.take n), binary (bytes.drop n))

/-- Take portions one after the other. -/
def takeAll : List Portion → DocumentContent → List DocumentContent
  | [], _ => []
  | portion :: rest, content =>
    let (piece, left) := content.take portion
    piece :: takeAll rest left

end DocumentContent

end DocumentGateway
