import DocumentGateway.Proofs.Json.RoundTrip
import DocumentGateway.Proofs.Response.BodyForms
import DocumentGateway.Proofs.Response.ErrorGate
import DocumentGateway.Proofs.Response.Permissions
import DocumentGateway.Proofs.Xml.RoundTrip

namespace DocumentGateway

/-!
# Converters want nothing but a form

Converting a response or a document returns exactly if the text in it is there and of the right form,
and every refusal is for want of that form, as long as nothing is nested too deeply.  For JSON the form
is not always enough to write a document again: a record with a field `items` cannot be written.  For
XML it is, since every element that comes from a text can be written.
-/

namespace Json

theorem returnsIff_writeDocument {v : Value} (reading : IsReading v) :
    (writeDocument v).ReturnsIff (v.hidesItems = false) := by
  rw [writeDocument]
  cases hides : v.hidesItems with
  | false =>
      rcases exists_write_eq_ok reading.plain hides .compact with ⟨t, written⟩
      rw [written]
      exact .of_ok rfl rfl
  | true =>
      rcases exists_write_eq_error reading.plain hides .compact with ⟨kind, failed⟩
      rw [failed]
      exact .of_format rfl (by decide)

section

variable [Limits]

theorem returnsIff_bodyToDocument {r : Response} (shallow : IsShallow r.text) :
    (bodyToDocument r).ReturnsIff (∃ v, Holds read r.text v ∧ v.hidesItems = false) := by
  apply Run.ReturnsIff.timed
  apply Run.returnsIff_converting r.isFormedText_text
  · exact fun t isText => returnsIff_parse (shallow t isText)
  · exact fun _ _ => result_parse_eq_ok_iff
  · exact fun _ holds => returnsIff_writeDocument (isReading_of_holds holds)

theorem returnsIff_ofDocument {d : Document} {isTypeChecked : Bool}
    (shallow : IsShallow (d.textIn .json isTypeChecked)) :
    (ofDocument d isTypeChecked).ReturnsIff
      ((isTypeChecked = true → MediaType.classify d.mimeType = .json) ∧
        ∃ v, Holds read d.text v) := by
  have reading := Run.returnsIff_reading (d.isFormedText_textIn .json isTypeChecked)
    fun t isText => returnsIff_parse (shallow t isText)
  refine (reading.timed .valueOfDocument).congr ?_
  simp only [Document.holds_textIn_iff, exists_and_left]
  rfl

end

end Json

/-! ## Texts without surrogates -/

/-- A text that has no surrogates if it is there. -/
def IsScalarText (text : Except Fault Text) : Prop :=
  ∀ t, text = .ok t → ∃ chars, t = Text.ofChars chars

theorem Response.isScalarText_text {r : Response} (scalar : r.body.IsScalar) :
    IsScalarText r.text := by
  intro t isText
  rcases r.text_eq scalar with ⟨chars, same⟩ | ⟨fault, failed⟩
  · exact ⟨chars, Except.ok.inj (isText.symm.trans same)⟩
  · rw [failed] at isText
    cases isText

theorem Document.isScalarText_text {d : Document} (scalar : d.content.IsScalar) :
    IsScalarText d.text := by
  intro t isText
  unfold text at isText
  split at isText
  · next has =>
      rw [has] at scalar
      exact Except.ok.inj isText ▸ scalar
  · split at isText
    · exact ⟨_, (Except.ok.inj isText).symm⟩
    · cases isText

/-! ## XML -/

namespace Xml

theorem returnsIff_parse {text : Except Fault Text} (scalar : IsScalarText text) :
    ∀ t, text = .ok t → (parse t).ReturnsIff (∃ e, read t = .ok e) := by
  intro t isText
  rcases scalar t isText with ⟨chars, rfl⟩
  rcases result_parse_ofChars chars with ⟨e, found, parsed⟩ | ⟨_, _, _, _, failed, refused⟩
  · exact .of_ok parsed ⟨e, found⟩
  · refine .of_format refused ?_
    rw [failed]
    rintro ⟨e, ⟨⟩⟩

/-- An element that was read can be written. -/
theorem returnsIff_writeDocument [Limits] {e : Element} (alone : e.IsReadAlone)
    (fits : e.depth ≤ Limits.elements) : (writeDocument e).ReturnsIff True := by
  rcases exists_write_of_isReadAlone alone with ⟨_, -, -, -, written⟩
  rw [if_pos fits] at written
  rw [writeDocument, written]
  exact .of_ok rfl trivial

/-- The element in a text is not nested too deeply if there is one. -/
def IsShallow [Limits] (text : Except Fault Text) : Prop :=
  ∀ e, Holds read text e → e.depth ≤ Limits.elements

theorem returnsIff_bodyToDocument [Limits] {r : Response} (scalar : r.body.IsScalar)
    (shallow : IsShallow r.text) : (bodyToDocument r).ReturnsIff (∃ e, Holds read r.text e) := by
  have run : (bodyToDocument r).ReturnsIff (∃ e, Holds read r.text e ∧ True) := by
    apply Run.ReturnsIff.timed
    apply Run.returnsIff_converting r.isFormedText_text
    · exact returnsIff_parse (Response.isScalarText_text scalar)
    · exact fun _ _ => result_parse_eq_ok_iff
    · intro e holds
      have fits := shallow e holds
      rcases holds with ⟨t, -, found⟩
      exact returnsIff_writeDocument (isReadAlone_read found) fits
  simpa only [and_true] using run

theorem returnsIff_ofResponse {r : Response} (scalar : r.body.IsScalar) :
    (ofResponse r).ReturnsIff (r.type = .xml ∧ ∃ e, Holds read r.text e) := by
  have isScalar : IsScalarText (r.textIn .xml) := fun t isText =>
    Response.isScalarText_text scalar t (Response.textIn_eq_ok_iff.mp isText).2
  have reading := Run.returnsIff_reading (r.isFormedText_textIn .xml) (returnsIff_parse isScalar)
  refine (reading.timed .elementOfResponse).congr ?_
  simp only [Response.holds_textIn_iff, exists_and_left]
  rfl

theorem returnsIff_ofDocument {d : Document} (scalar : d.content.IsScalar) (isTypeChecked : Bool) :
    (ofDocument d isTypeChecked).ReturnsIff
      ((isTypeChecked = true → MediaType.classify d.mimeType = .xml) ∧
        ∃ e, Holds read d.text e) := by
  have isScalar : IsScalarText (d.textIn .xml isTypeChecked) := fun t isText =>
    Document.isScalarText_text scalar t (Document.textIn_eq_ok_iff.mp isText).2
  have reading := Run.returnsIff_reading (d.isFormedText_textIn .xml isTypeChecked)
    (returnsIff_parse isScalar)
  refine (reading.timed .elementOfDocument).congr ?_
  simp only [Document.holds_textIn_iff, exists_and_left]
  rfl

end Xml

/-! ## All of them -/

/-- Converters want nothing but a form.  Each of them returns exactly if the text is there, in the right
format, and where it looks at the type, of the right type; a value must also be one that can be
written, and metadata must say what it grants.  What does not return is refused for want of a form,
if only a text that is read as XML has no surrogates, and neither a text that is read as JSON nor an
element that is written is nested too deeply. -/
theorem Response.returnsIff_converters [Limits] :
    (∀ r : Response,
      (Json.IsShallow (r.textIn .json) →
        (Json.ofResponse r).ReturnsIff (r.type = .json ∧ ∃ v, Holds Json.read r.text v) ∧
        (Permission.ofResponse r).ReturnsIff (∃ grants, r.Grants grants)) ∧
      (Json.IsShallow r.text →
        (Json.bodyToDocument r).ReturnsIff
          (∃ v, Holds Json.read r.text v ∧ v.hidesItems = false)) ∧
      (r.body.IsScalar →
        (Xml.ofResponse r).ReturnsIff (r.type = .xml ∧ ∃ e, Holds Xml.read r.text e)) ∧
      (r.body.IsScalar → Xml.IsShallow r.text →
        (Xml.bodyToDocument r).ReturnsIff (∃ e, Holds Xml.read r.text e))) ∧
    ∀ (d : Document) (isTypeChecked : Bool),
      (Json.IsShallow (d.textIn .json isTypeChecked) →
        (Json.ofDocument d isTypeChecked).ReturnsIff
          ((isTypeChecked = true → MediaType.classify d.mimeType = .json) ∧
            ∃ v, Holds Json.read d.text v)) ∧
      (d.content.IsScalar →
        (Xml.ofDocument d isTypeChecked).ReturnsIff
          ((isTypeChecked = true → MediaType.classify d.mimeType = .xml) ∧
            ∃ e, Holds Xml.read d.text e)) := by
  refine ⟨fun r => ⟨?_, ?_, ?_, ?_⟩, fun d isTypeChecked => ⟨?_, ?_⟩⟩
  · exact fun shallow =>
      ⟨Json.returnsIff_ofResponse shallow, Permission.returnsIff_ofResponse shallow⟩
  · exact Json.returnsIff_bodyToDocument
  · exact Xml.returnsIff_ofResponse
  · exact Xml.returnsIff_bodyToDocument
  · exact Json.returnsIff_ofDocument
  · exact fun scalar => Xml.returnsIff_ofDocument scalar isTypeChecked

section

open scoped Limits

/-- A body with one element is converted whatever its type, and a document in which the tag stays open
is refused. -/
theorem Response.returnsIff_converters_tag :
    (blank.setBody (.text (Text.ofString "<r/>"))).body.IsScalar ∧
    Xml.IsShallow (blank.setBody (.text (Text.ofString "<r/>"))).text ∧
    (Document.make (.text (Text.ofString "<r>")) MediaType.xml).content.IsScalar ∧
    (∃ d, (Xml.bodyToDocument (blank.setBody (.text (Text.ofString "<r/>")))).result = .ok d) ∧
    ∃ cause, (Xml.ofDocument (.make (.text (Text.ofString "<r>")) MediaType.xml) true).result =
      .error (.format cause) := by
  have scalar : (blank.setBody (.text (Text.ofString "<r/>"))).body.IsScalar := ⟨_, rfl⟩
  have scalarDocument :
      (Document.make (.text (Text.ofString "<r>")) MediaType.xml).content.IsScalar := ⟨_, rfl⟩
  have parsed : (Xml.parse (Text.ofChars "<r/>".toList)).result =
      .ok (.node ['r'] [] (Xml.textValue []) .null []) :=
    Xml.result_parse_of_isLeaf (by decide +kernel)
  have holds : Holds Xml.read (blank.setBody (.text (Text.ofString "<r/>"))).text
      (.node ['r'] [] (Xml.textValue []) .null []) :=
    ⟨_, rfl, Xml.result_parse_eq_ok_iff.mp parsed⟩
  have shallow : Xml.IsShallow (blank.setBody (.text (Text.ofString "<r/>"))).text := by
    intro e found
    rw [found.eq holds]
    decide
  have unclosed : (Xml.readScalars "<r>".toList).toOption.isNone = true := by decide +kernel
  refine ⟨scalar, shallow, scalarDocument, ?_, ?_⟩
  · exact ((returnsIff_converters.1 _).2.2.2 scalar shallow).returns.mpr ⟨_, holds⟩
  · refine ((returnsIff_converters.2 _ true).2 scalarDocument).exists_of_not ?_
    rintro ⟨-, e, t, isText, found⟩
    obtain rfl : Text.ofString "<r>" = t := Except.ok.inj isText
    rw [Text.ofString, Xml.read_ofChars] at found
    rw [found] at unclosed
    cases unclosed

end

end DocumentGateway
