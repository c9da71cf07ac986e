import DocumentGateway.Proofs.Response.JsonBody
import DocumentGateway.Proofs.Xml.Amplification
import DocumentGateway.Proofs.Xml.RoundTrip

namespace DocumentGateway
namespace Response

/-!
# The detail of an error that comes as XML

The detail is the text of the body without the blank characters around it.  It is read as the same
element, and a response with the detail for its body is in error as the first one is.  There are two
exceptions.  A body in units of two octets is not trimmed between units.  And white space in front of
an element counts among the octets that its entities may be in proportion to, so that the detail may
be refused for what they stand for.
-/

variable {r : Response}

/-- A response of the type of XML that is in error has an element `error-response` for its body. -/
theorem exists_root_of_isInError [Limits] (isXml : r.type = .xml)
    (inError : r.isInError.result = .ok true) :
    ∃ text root, r.text = .ok text ∧ Xml.read text = .ok root ∧
      root.localName = "error-response".toList := by
  rw [isInError, Run.result_timed, Run.result_bind, ErrorEnvelope.result_find] at inError
  cases tried : (ErrorEnvelope.read r).result with
  | error fault =>
      rw [tried] at inError
      cases fault <;> cases inError
  | ok found? =>
      rw [tried] at inError
      have carries : found?.isSome = true := Except.ok.inj inError
      rw [ErrorEnvelope.read, Run.result_bind, Run.result_ofExcept] at tried
      rcases exists_of_bind_eq_ok tried with ⟨text, isText, tried⟩
      rw [if_pos isXml, Run.result_bind] at tried
      rcases exists_of_bind_eq_ok tried with ⟨root, parsed, given⟩
      cases given
      rw [ErrorEnvelope.isSome_ofElement?] at carries
      exact ⟨text, root, isText, Xml.result_parse_eq_ok_iff.mp parsed, carries⟩

/-- What such a response says. -/
theorem results_of_root [Limits] {text : Text} {root : Xml.Element} (isText : r.text = .ok text)
    (isXml : r.type = .xml) (isElement : Xml.read text = .ok root)
    (isError : root.localName = "error-response".toList) :
    r.isInError.result = .ok true ∧
      r.errorMessage.result = (ErrorEnvelope.xml root).message.result ∧
      r.errorDetail.result = .ok text.trim := by
  have isFound := ErrorEnvelope.result_find_xml isText isXml isElement isError
  refine ⟨result_isInError isFound, result_errorMessage isFound, ?_⟩
  rw [result_errorDetail isFound, Option.elim_some, ErrorEnvelope.detail, isText]
  rfl

theorem exists_message_of_root (root : Xml.Element) :
    ∃ message, (ErrorEnvelope.xml root).message.result = .ok message := by
  rw [ErrorEnvelope.message]
  split
  · exact ⟨_, rfl⟩
  · exact ⟨_, rfl⟩

/-- The detail of a response in error is the text of its body, trimmed.  If the body has no character
zero in it, or nothing to trim, the detail is read as the same element, and every response that has it
for its body is in error with the same message and the same detail.  The only other case is that of a
body with blank characters in front, whose detail is refused for what its entities stand for. -/
theorem errorDetail_ofXml [Limits] (isXml : r.type = .xml) (inError : r.isInError.result = .ok true) :
    ∃ text root message, r.text = .ok text ∧ (Xml.parse text).result = .ok root ∧
      r.errorMessage.result = .ok message ∧ r.errorDetail.result = .ok text.trim ∧
      text.trim.IsTrimmed ∧
      (.scalar '\x00' ∉ text ∨ text.IsTrimmed →
        ((Xml.parse text.trim).result = .ok root ∧
          ∀ again : Response, again.type = .xml → again.text = .ok text.trim →
            again.isInError.result = .ok true ∧ again.errorMessage.result = .ok message ∧
              again.errorDetail.result = .ok text.trim) ∨
        text.leadingBlanks ≠ [] ∧ ∃ line column, (Xml.parse text.trim).result =
          .error (.format (.xml .excessiveExpansion line column))) := by
  rcases exists_root_of_isInError isXml inError with ⟨text, root, isText, isElement, isError⟩
  rcases results_of_root isText isXml isElement isError with ⟨-, hasMessage, hasDetail⟩
  rcases exists_message_of_root root with ⟨message, given⟩
  refine ⟨text, root, message, isText, Xml.result_parse_eq_ok_iff.mpr isElement,
    hasMessage.trans given, hasDetail, text.isTrimmed_trim, fun plain => ?_⟩
  have readAgain : Xml.read text.trim = .ok root ∨
      text.leadingBlanks ≠ [] ∧ Xml.IsRefusedForExpansion (Xml.read text.trim) := by
    rcases plain with noZero | trimmed
    · exact Xml.read_trim noZero isElement
    · rw [Text.trim_of_isTrimmed trimmed]
      exact Or.inl isElement
  rcases readAgain with same | ⟨blank, line, column, refused⟩
  · refine Or.inl ⟨Xml.result_parse_eq_ok_iff.mpr same, fun again againXml againText => ?_⟩
    rcases results_of_root againText againXml same isError with ⟨repeats, repeatsMessage, repeatsDetail⟩
    rw [Text.trim_of_isTrimmed text.isTrimmed_trim] at repeatsDetail
    exact ⟨repeats, repeatsMessage.trans given, repeatsDetail⟩
  · refine Or.inr ⟨blank, line, column, ?_⟩
    rw [Xml.parse, refused]
    rfl

/-- A body in error with white space around it. -/
def spacedError : Text :=
  Text.ofString "\n<error-response>e</error-response> "

/-- The element in a body in error. -/
def errorElement (t : List Char) : Xml.Element :=
  .node "error-response".toList [] (Xml.textValue t) .null []

open scoped Limits in
/-- The detail of the error in such a body is the element alone, with the same message. -/
theorem errorDetail_ofXml_spacedError :
    (ofXml spacedError).type = .xml ∧ (ofXml spacedError).isInError.result = .ok true ∧
      (ofXml spacedError).errorDetail.result = .ok spacedError.trim ∧
      (Xml.parse spacedError.trim).result = .ok (errorElement ['e']) ∧
      (ofXml spacedError.trim).isInError.result = .ok true ∧
      (ofXml spacedError.trim).errorMessage.result = (ofXml spacedError).errorMessage.result := by
  have parsed : (Xml.parse spacedError).result = .ok (errorElement ['e']) :=
    Xml.result_parse_of_isLeaf (by decide +kernel)
  have accepted : (Xml.read spacedError.trim).isOk = true := by
    decide +kernel
  have inError : (ofXml spacedError).isInError.result = .ok true :=
    (results_of_root rfl rfl (Xml.result_parse_eq_ok_iff.mp parsed) rfl).1
  rcases errorDetail_ofXml rfl inError with
    ⟨text, root, message, isText, isRoot, hasMessage, detail, -, again⟩
  cases isText
  cases parsed.symm.trans isRoot
  rcases again (Or.inl (by decide +kernel)) with ⟨same, repeats⟩ | ⟨-, line, column, refused⟩
  · rcases repeats (ofXml spacedError.trim) rfl rfl with ⟨repeatsError, repeatsMessage, -⟩
    exact ⟨rfl, inError, detail, same, repeatsError, repeatsMessage.trans hasMessage.symm⟩
  · rcases exists_of_isOk accepted with ⟨e, readAgain⟩
    cases refused.symm.trans (Xml.result_parse_eq_ok_iff.mpr readAgain)

/-! ## Details that are lost -/

/-- A response of the type of XML is in error, and its detail is no XML, so that a response with the
detail for its body is not in error. -/
def LosesDetail [Limits] (body : Text) : Prop :=
  (ofXml body).type = .xml ∧ (ofXml body).isInError.result = .ok true ∧
    ∃ detail, (ofXml body).errorDetail.result = .ok detail ∧
      (∀ root, (Xml.parse detail).result ≠ .ok root) ∧ (ofXml detail).isInError.result ≠ .ok true

theorem losesDetail_of_read [Limits] {body : Text} {root : Xml.Element}
    (isElement : Xml.read body = .ok root) (isError : root.localName = "error-response".toList)
    (unread : ∀ again, Xml.read body.trim ≠ .ok again) : LosesDetail body := by
  rcases results_of_root (r := ofXml body) rfl rfl isElement isError with ⟨inError, -, detail⟩
  refine ⟨rfl, inError, body.trim, detail, fun again parsed => ?_, fun inErrorAgain => ?_⟩
  · exact unread again (Xml.result_parse_eq_ok_iff.mp parsed)
  · rcases exists_root_of_isInError rfl inErrorAgain with ⟨text, again, isText, parsed, -⟩
    cases isText
    exact unread again parsed

/-- A text in units of two octets, the high one first. -/
def wideText (s : String) : Text :=
  Text.ofChars (s.toList.flatMap fun c => ['\x00', c])

/-- The last octet of a text in units of two is blank where a line feed ends it, and what is left
without it is no XML. -/
theorem losesDetail_wideText [Limits] : LosesDetail (wideText "<error-response/>\n") := by
  have parsed : (Xml.parse (wideText "<error-response/>\n")).result = .ok (errorElement []) :=
    Xml.result_parse_of_isLeaf (by decide +kernel)
  have refused : (Xml.read (wideText "<error-response/>\n").trim).isOk = false := by
    decide +kernel
  refine losesDetail_of_read (Xml.result_parse_eq_ok_iff.mp parsed) rfl fun root parsedAgain => ?_
  rw [parsedAgain] at refused
  cases refused

/-- Line feeds in front of a document may be all that its entities are in proportion to. -/
theorem losesDetail_behindFeeds [Limits] {feeds size count : Nat}
    (covered : count * (size + 1) ≤ feeds) (large : Xml.Tally.freeOctets ≤ count * (size + 1))
    (excessive : 404 * (size + 3 * count + 63) < count * (size + 1)) :
    LosesDetail (Text.ofChars (Xml.Amplified.behindFeeds feeds (size + 1) count)) := by
  rcases Xml.Amplified.read_behindFeeds covered large excessive with ⟨⟨root, isElement, isError⟩, unread⟩
  exact losesDetail_of_read isElement isError unread

open scoped Limits in
/-- Details are lost in both ways: to the trimming of half a unit, and to that of the white space in
front of nine thousand references to a text of two thousand characters. -/
theorem errorDetail_ofXml_lost :
    LosesDetail (wideText "<error-response/>\n") ∧
      LosesDetail (Text.ofChars (Xml.Amplified.behindFeeds 18000000 2000 9000)) :=
  ⟨losesDetail_wideText, losesDetail_behindFeeds (by decide) (by decide) (by decide)⟩

end Response
end DocumentGateway
