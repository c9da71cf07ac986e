import DocumentGateway.Proofs.Peeling
import DocumentGateway.Xml.Conversion

namespace DocumentGateway

/-!
# Texts without surrogates

A text without surrogates is a list of characters, and it has a form in UTF-8.  Reading it as XML
fails for no reason but its form.
-/

namespace Text

theorem filterMap_char?_ofChars (chars : List Char) :
    (ofChars chars).filterMap CodePoint.char? = chars := by
  induction chars with
  | nil => rfl
  | cons c chars ih => rw [ofChars_cons, List.filterMap_cons, CodePoint.char?, ih]

theorem ofChars_inj {front back : List Char} (same : ofChars front = ofChars back) :
    front = back := by
  rw [← filterMap_char?_ofChars front, same, filterMap_char?_ofChars]

end Text

namespace Encoding

theorem encodeFrom_utf8_ofChars (position : Nat) (chars : List Char) :
    utf8.encodeFrom position (Text.ofChars chars) = .ok (utf8Octets chars) := by
  induction chars generalizing position with
  | nil => rfl
  | cons c chars ih =>
      rw [Text.ofChars_cons, encodeFrom, form?]
      simp only [ih]
      rfl

/-- Characters are encoded one by one. -/
theorem encode_utf8_ofChars (chars : List Char) :
    utf8.encode (Text.ofChars chars) = .ok (utf8Octets chars) :=
  encodeFrom_utf8_ofChars 0 chars

/-- Nothing else has a form in UTF-8. -/
theorem exists_ofChars_of_encodeFrom {t : Text} {position : Nat} {octets : Bytes}
    (h : utf8.encodeFrom position t = .ok octets) : ∃ chars, t = Text.ofChars chars := by
  induction t generalizing position octets with
  | nil => exact ⟨[], rfl⟩
  | cons p rest ih =>
      rw [encodeFrom] at h
      cases p with
      | surrogate offset => cases h
      | scalar c =>
          rcases exists_of_bind_eq_ok h with ⟨behind, encoded, -⟩
          rcases ih encoded with ⟨chars, rfl⟩
          exact ⟨c :: chars, rfl⟩

end Encoding

namespace Xml

/-- How a list of characters is read as XML. -/
def readScalars (chars : List Char) : Except ReadFault Element :=
  match octetOrder? (utf8Octets chars) with
  | some order => readChars (wideForm (utf8Octets chars)) (order.chars (utf8Octets chars))
  | none => readChars .narrow (chars.map uncut)

theorem read_ofChars (chars : List Char) : read (Text.ofChars chars) = readScalars chars := by
  rw [read, Encoding.encode_utf8_ofChars, Text.filterMap_char?_ofChars]
  rfl

theorem exists_of_readChars_eq_error {f : TextForm} {t : List Char} {fault : ReadFault}
    (h : readChars f t = .error fault) :
    ∃ cause line column, fault = .misplaced cause line column := by
  unfold readChars at h
  split at h
  · exact absurd h (by simp)
  · next s _ => exact ⟨s.cause, _, _, (Except.error.inj h).symm⟩

theorem exists_of_readScalars_eq_error {chars : List Char} {fault : ReadFault}
    (h : readScalars chars = .error fault) :
    ∃ cause line column, fault = .misplaced cause line column := by
  unfold readScalars at h
  split at h <;> exact exists_of_readChars_eq_error h

theorem result_parse_eq_ok_iff {t : Text} {root : Element} :
    (parse t).result = .ok root ↔ read t = .ok root := by
  rw [parse]
  cases read t with
  | ok e =>
      constructor
      · rintro ⟨⟩
        rfl
      · rintro ⟨⟩
        rfl
  | error fault =>
      cases fault with
      | encoding fault => exact ⟨by rintro ⟨⟩, by rintro ⟨⟩⟩
      | misplaced cause line column => exact ⟨by rintro ⟨⟩, by rintro ⟨⟩⟩

/-- A text without surrogates is read as an element, or it lacks the form of XML. -/
theorem result_parse_ofChars (chars : List Char) :
    (∃ root, read (Text.ofChars chars) = .ok root ∧
      (parse (Text.ofChars chars)).result = .ok root) ∨
    (∃ fault cause line column, read (Text.ofChars chars) = .error fault ∧
      (parse (Text.ofChars chars)).result = .error (.format (.xml cause line column))) := by
  rw [parse, read_ofChars]
  cases found : readScalars chars with
  | ok root => exact Or.inl ⟨root, rfl, rfl⟩
  | error fault =>
      rcases exists_of_readScalars_eq_error found with ⟨cause, line, column, rfl⟩
      exact Or.inr ⟨_, cause, line, column, rfl, rfl⟩

end Xml
end DocumentGateway
