import DocumentGateway.Aggregate
import DocumentGateway.Permission
import DocumentGateway.Proofs.Text.Decoding
import DocumentGateway.Suggestion

namespace DocumentGateway

/-!
# Text and octets as bodies

A body of octets is read as a text exactly when it is the UTF-8 form of one without surrogates, and
then it is as good as that text.  Everything that is done with a response reads its body as text or
as octets and looks at nothing else of it but status and type; so it does not matter in which of the
two forms the body was set.  The same holds of documents.
-/

namespace Response

/-! ## Reading octets as text -/

/-- Octets are read as the text that they are the UTF-8 form of. -/
theorem text_octets_eq_ok_iff (r : Response) (bytes : Bytes) (t : Text) :
    (r.setBody (.octets bytes)).text = .ok t ↔
      ∃ chars, t = Text.ofChars chars ∧ utf8Octets chars = bytes := by
  have decoded := Utf8.decode_eq_ok_iff bytes
  rw [setBody, text]
  dsimp only
  cases found : Utf8.decode bytes with
  | error fault =>
      constructor
      · intro read
        exact absurd read (by simp)
      · rintro ⟨chars, -, same⟩
        rw [(decoded chars).mpr same] at found
        exact absurd found (by simp)
  | ok chars =>
      constructor
      · intro read
        exact ⟨chars, (Except.ok.inj read).symm, (decoded chars).mp found⟩
      · rintro ⟨others, rfl, same⟩
        rw [(decoded others).mpr same] at found
        rw [Except.ok.inj found]

/-- Octets that are no UTF-8 form are refused for that. -/
theorem text_octets_of_not_exists (r : Response) {bytes : Bytes}
    (none : ¬ ∃ chars, utf8Octets chars = bytes) :
    ∃ fault, (r.setBody (.octets bytes)).text = .error (.format (.bodyNotUtf8 fault)) := by
  rw [setBody, text]
  dsimp only
  cases found : Utf8.decode bytes with
  | error fault => exact ⟨fault, rfl⟩
  | ok chars => exact absurd ⟨chars, (Utf8.decode_eq_ok_iff bytes chars).mp found⟩ none

/-! ## Responses that are read alike -/

/-- Two responses are read alike when they have one status and one type, and their bodies give the
same text and the same octets. -/
structure ReadAlike (r s : Response) : Prop where
  status : r.status = s.status
  type : r.type = s.type
  text : r.text = s.text
  octets : r.octets = s.octets

/-- A text without surrogates and its UTF-8 form are read alike. -/
theorem readAlike_setBody (r : Response) (chars : List Char) :
    ReadAlike (r.setBody (.text (Text.ofChars chars))) (r.setBody (.octets (utf8Octets chars))) where
  status := rfl
  type := rfl
  text := ((text_octets_eq_ok_iff r _ _).mpr ⟨chars, rfl, rfl⟩).symm
  octets := by
    change (Encoding.utf8.encode (Text.ofChars chars)).mapError Fault.unencodable = _
    rw [Encoding.encode_utf8_ofChars]
    rfl

namespace ReadAlike

variable {r s : Response} (h : ReadAlike r s)

include h

theorem read_congr (buffer : Bytes) (maxSize offset : Int) :
    r.read buffer maxSize offset = s.read buffer maxSize offset := by
  unfold Response.read
  rw [h.octets]

theorem textIn_congr (format : Format) : r.textIn format = s.textIn format := by
  unfold textIn
  rw [h.type, h.text]

theorem detail_congr (envelope : ErrorEnvelope) : envelope.detail r = envelope.detail s := by
  unfold ErrorEnvelope.detail
  rw [h.text]

theorem ofResponse_xml_congr : Xml.ofResponse r = Xml.ofResponse s := by
  unfold Xml.ofResponse
  rw [h.textIn_congr]

variable [Limits]

theorem ofResponse_json_congr : Json.ofResponse r = Json.ofResponse s := by
  unfold Json.ofResponse
  rw [h.textIn_congr]

theorem bodyToDocument_json_congr : Json.bodyToDocument r = Json.bodyToDocument s := by
  unfold Json.bodyToDocument
  rw [h.text]

theorem bodyToDocument_xml_congr : Xml.bodyToDocument r = Xml.bodyToDocument s := by
  unfold Xml.bodyToDocument
  rw [h.text]

theorem ofResponse_permission_congr : Permission.ofResponse r = Permission.ofResponse s := by
  unfold Permission.ofResponse
  rw [h.ofResponse_json_congr]

theorem find_congr : ErrorEnvelope.find r = ErrorEnvelope.find s := by
  unfold ErrorEnvelope.find ErrorEnvelope.read
  rw [h.type, h.text]

theorem require_congr : ErrorEnvelope.require r = ErrorEnvelope.require s := by
  unfold ErrorEnvelope.require
  rw [h.find_congr]

theorem isInError_congr : r.isInError = s.isInError := by
  unfold isInError
  rw [h.find_congr]

theorem errorMessage_congr : r.errorMessage = s.errorMessage := by
  unfold errorMessage
  rw [h.require_congr]

theorem errorDetail_congr : r.errorDetail = s.errorDetail := by
  unfold errorDetail
  rw [h.require_congr, funext h.detail_congr]

theorem requireSuccess_congr : r.requireSuccess = s.requireSuccess := by
  unfold requireSuccess
  rw [h.isInError_congr, h.errorMessage_congr]

theorem suggestions_congr : r.suggestions = s.suggestions := by
  unfold suggestions Suggestion.ofBody
  rw [h.requireSuccess_congr, h.type, h.text]

theorem ofResponse_aggregate_congr : Aggregate.ofResponse r = Aggregate.ofResponse s := by
  unfold Aggregate.ofResponse
  rw [h.requireSuccess_congr, h.text]

theorem aggregateNumber_congr (name : Text) : r.aggregateNumber name = s.aggregateNumber name := by
  unfold aggregateNumber
  rw [h.ofResponse_aggregate_congr]

theorem addNumbers_congr (store : ValueStore) : store.addNumbers r = store.addNumbers s := by
  unfold ValueStore.addNumbers aggregateNumbers
  rw [h.ofResponse_aggregate_congr]

theorem addContributions_congr (store : ValueStore) :
    store.addContributions r = store.addContributions s := by
  unfold ValueStore.addContributions
  rw [h.ofResponse_aggregate_congr]

theorem outcome_congr : r.outcome = s.outcome := by
  unfold outcome
  rw [h.isInError_congr, h.status]

end ReadAlike

/-- Two responses answer alike when every operation on responses has the same result and reports the
same about both. -/
structure AnswersAlike [Limits] (r s : Response) : Prop where
  text : r.text = s.text
  octets : r.octets = s.octets
  read : ∀ buffer maxSize offset, r.read buffer maxSize offset = s.read buffer maxSize offset
  value : Json.ofResponse r = Json.ofResponse s
  valueDocument : Json.bodyToDocument r = Json.bodyToDocument s
  permissions : Permission.ofResponse r = Permission.ofResponse s
  element : Xml.ofResponse r = Xml.ofResponse s
  elementDocument : Xml.bodyToDocument r = Xml.bodyToDocument s
  isInError : r.isInError = s.isInError
  errorMessage : r.errorMessage = s.errorMessage
  errorDetail : r.errorDetail = s.errorDetail
  suggestions : r.suggestions = s.suggestions
  aggregateNumber : ∀ name, r.aggregateNumber name = s.aggregateNumber name
  addNumbers : ∀ store : ValueStore, store.addNumbers r = store.addNumbers s
  addContributions : ∀ store : ValueStore, store.addContributions r = store.addContributions s
  outcome : r.outcome = s.outcome

theorem ReadAlike.answersAlike [Limits] {r s : Response} (h : ReadAlike r s) : AnswersAlike r s where
  text := h.text
  octets := h.octets
  read := h.read_congr
  value := h.ofResponse_json_congr
  valueDocument := h.bodyToDocument_json_congr
  permissions := h.ofResponse_permission_congr
  element := h.ofResponse_xml_congr
  elementDocument := h.bodyToDocument_xml_congr
  isInError := h.isInError_congr
  errorMessage := h.errorMessage_congr
  errorDetail := h.errorDetail_congr
  suggestions := h.suggestions_congr
  aggregateNumber := h.aggregateNumber_congr
  addNumbers := h.addNumbers_congr
  addContributions := h.addContributions_congr
  outcome := h.outcome_congr

end Response

/-! ## Documents -/

/-- Content without surrogates. -/
def DocumentContent.IsScalar : DocumentContent → Prop
  | text t => ∃ chars, t = Text.ofChars chars
  | binary _ => True

namespace Document

/-- Two documents answer alike when they are read as the same text and converted with the same result
and the same reports, whether or not their media types are looked at. -/
structure AnswersAlike [Limits] (d e : Document) : Prop where
  text : d.text = e.text
  value : ∀ isTypeChecked, Json.ofDocument d isTypeChecked = Json.ofDocument e isTypeChecked
  element : ∀ isTypeChecked, Xml.ofDocument d isTypeChecked = Xml.ofDocument e isTypeChecked

/-- Documents of one media type that are read as the same text answer alike. -/
theorem answersAlike_of_text [Limits] {d e : Document} (mimeType : d.mimeType = e.mimeType)
    (text : d.text = e.text) : AnswersAlike d e where
  text := text
  value isTypeChecked := by
    unfold Json.ofDocument textIn
    rw [mimeType, text]
  element isTypeChecked := by
    unfold Xml.ofDocument textIn
    rw [mimeType, text]

theorem text_binary_utf8Octets (chars : List Char) (mimeType : Text) :
    (make (.binary (utf8Octets chars)) mimeType).text = .ok (Text.ofChars chars) := by
  have decoded := (Utf8.decode_eq_ok_iff (utf8Octets chars) chars).mpr rfl
  rw [make, text]
  simp only [decoded]

end Document

/-- Texts and their UTF-8 forms are interchangeable.  A body of octets is read as a text exactly when it
is the UTF-8 form of that text, and refused for want of a form when there is none; every operation
answers alike for a body without surrogates and for its UTF-8 form; and so does every operation on
documents of one media type that hold the two. -/
theorem Response.answersAlike_text_octets [Limits] :
    (∀ (r : Response) (bytes : Bytes),
      (∀ t, (r.setBody (.octets bytes)).text = .ok t ↔
        ∃ chars, t = Text.ofChars chars ∧ utf8Octets chars = bytes) ∧
      ((¬ ∃ chars, utf8Octets chars = bytes) →
        ∃ fault, (r.setBody (.octets bytes)).text = .error (.format (.bodyNotUtf8 fault)))) ∧
    (∀ (r : Response) (chars : List Char),
      AnswersAlike (r.setBody (.text (Text.ofChars chars)))
        (r.setBody (.octets (utf8Octets chars)))) ∧
    ∀ (chars : List Char) (mimeType : Text),
      Document.AnswersAlike (.make (.text (Text.ofChars chars)) mimeType)
        (.make (.binary (utf8Octets chars)) mimeType) := by
  refine ⟨fun r bytes => ⟨r.text_octets_eq_ok_iff bytes, r.text_octets_of_not_exists⟩, ?_, ?_⟩
  · intro r chars
    exact (r.readAlike_setBody chars).answersAlike
  · intro chars mimeType
    exact Document.answersAlike_of_text rfl (Document.text_binary_utf8Octets chars mimeType).symm

end DocumentGateway
