import DocumentGateway.Aggregate
import DocumentGateway.Binary.Hex
import DocumentGateway.Connection
import DocumentGateway.Document
import DocumentGateway.ErrorEnvelope
import DocumentGateway.Fault
import DocumentGateway.Handle
import DocumentGateway.Headers
import DocumentGateway.Json.Conversion
import DocumentGateway.Json.Fault
import DocumentGateway.Json.Printer
import DocumentGateway.Json.Reader
import DocumentGateway.Library
import DocumentGateway.Limits
import DocumentGateway.Logging
import DocumentGateway.MediaType
import DocumentGateway.Number.Binary64
import DocumentGateway.Number.Decimal
import DocumentGateway.Number.Digits
import DocumentGateway.Number.Numeral
import DocumentGateway.Permission
import DocumentGateway.Proofs.Connection.SavedDocument
import DocumentGateway.Proofs.Connection.SentRequest
import DocumentGateway.Proofs.Document.BareType
import DocumentGateway.Proofs.Document.Spelling
import DocumentGateway.Proofs.Headers.Writes
import DocumentGateway.Proofs.Json.Acceptance
import DocumentGateway.Proofs.Json.GainedField
import DocumentGateway.Proofs.Json.Grammar
import DocumentGateway.Proofs.Json.Nesting
import DocumentGateway.Proofs.Json.PlainValue
import DocumentGateway.Proofs.Json.ReadGrammar
import DocumentGateway.Proofs.Json.ReadValue
import DocumentGateway.Proofs.Json.RoundTrip
import DocumentGateway.Proofs.Json.WrittenNumber
import DocumentGateway.Proofs.Json.WrittenText
import DocumentGateway.Proofs.Json.WrittenValue
import DocumentGateway.Proofs.Logging.SetUp
import DocumentGateway.Proofs.MediaType.FirstPair
import DocumentGateway.Proofs.Number.DigitRow
import DocumentGateway.Proofs.Number.Nearest
import DocumentGateway.Proofs.Number.Rounding
import DocumentGateway.Proofs.Peeling
import DocumentGateway.Proofs.Response.AggregateForms
import DocumentGateway.Proofs.Response.BodyForms
import DocumentGateway.Proofs.Response.Carriers
import DocumentGateway.Proofs.Response.Classification
import DocumentGateway.Proofs.Response.Converters
import DocumentGateway.Proofs.Response.ErrorGate
import DocumentGateway.Proofs.Response.ErrorReadout
import DocumentGateway.Proofs.Response.Formed
import DocumentGateway.Proofs.Response.JsonBody
import DocumentGateway.Proofs.Response.KeptAnswers
import DocumentGateway.Proofs.Response.NamedNumber
import DocumentGateway.Proofs.Response.Paging
import DocumentGateway.Proofs.Response.Permissions
import DocumentGateway.Proofs.Response.UnknownKeys
import DocumentGateway.Proofs.Response.XmlErrorDetail
import DocumentGateway.Proofs.Store.Contributions
import DocumentGateway.Proofs.Store.Filling
import DocumentGateway.Proofs.Store.FirstNumber
import DocumentGateway.Proofs.Store.History
import DocumentGateway.Proofs.Store.InOrder
import DocumentGateway.Proofs.Text.Decoding
import DocumentGateway.Proofs.Text.Trimming
import DocumentGateway.Proofs.Xml.Amplification
import DocumentGateway.Proofs.Xml.BuiltElement
import DocumentGateway.Proofs.Xml.ContentPieces
import DocumentGateway.Proofs.Xml.ElementPieces
import DocumentGateway.Proofs.Xml.ForeignText
import DocumentGateway.Proofs.Xml.LegibleNames
import DocumentGateway.Proofs.Xml.LineEnds
import DocumentGateway.Proofs.Xml.MarkupPieces
import DocumentGateway.Proofs.Xml.PrefixTable
import DocumentGateway.Proofs.Xml.PrologAlike
import DocumentGateway.Proofs.Xml.PrologPieces
import DocumentGateway.Proofs.Xml.QualifiedName
import DocumentGateway.Proofs.Xml.ReadAlike
import DocumentGateway.Proofs.Xml.ReadDeclarations
import DocumentGateway.Proofs.Xml.ReadElement
import DocumentGateway.Proofs.Xml.ReadMarkup
import DocumentGateway.Proofs.Xml.ReadProlog
import DocumentGateway.Proofs.Xml.Reading
import DocumentGateway.Proofs.Xml.RoundTrip
import DocumentGateway.Proofs.Xml.ScalarText
import DocumentGateway.Proofs.Xml.TagPieces
import DocumentGateway.Proofs.Xml.TrimmedDocument
import DocumentGateway.Proofs.Xml.WrittenCharacters
import DocumentGateway.Proofs.Xml.WrittenDocument
import DocumentGateway.Proofs.Xml.WrittenElement
import DocumentGateway.Proofs.Xml.WrittenMarkup
import DocumentGateway.Proofs.Xml.WrittenTag
import DocumentGateway.Proofs.Xml.WrittenText
import DocumentGateway.Proofs.Xml.WrittenTree
import DocumentGateway.Proofs.Xml.WrittenValue
import DocumentGateway.Response
import DocumentGateway.Run
import DocumentGateway.StatusCode
import DocumentGateway.Suggestion
import DocumentGateway.Text.Blank
import DocumentGateway.Text.CodePoint
import DocumentGateway.Text.Digit
import DocumentGateway.Text.Encoding
import DocumentGateway.Text.Printable
import DocumentGateway.Text.Quoted
import DocumentGateway.Text.WordCharacter
import DocumentGateway.Value.AccessFault
import DocumentGateway.Value.Attribute
import DocumentGateway.Value.Basic
import DocumentGateway.Value.OrderedPairs
import DocumentGateway.Value.Shown
import DocumentGateway.ValueStore
import DocumentGateway.Xml.Content
import DocumentGateway.Xml.Conversion
import DocumentGateway.Xml.Declarations
import DocumentGateway.Xml.Element
import DocumentGateway.Xml.Fault
import DocumentGateway.Xml.Markup
import DocumentGateway.Xml.NameChar
import DocumentGateway.Xml.Namespace
import DocumentGateway.Xml.Printer
import DocumentGateway.Xml.Prolog.Grammar
import DocumentGateway.Xml.Prolog.Token
import DocumentGateway.Xml.Prolog.XmlDeclaration
import DocumentGateway.Xml.Reader
import DocumentGateway.Xml.Tally
import DocumentGateway.Xml.TextForm
import DocumentGateway.Xml.WideText
