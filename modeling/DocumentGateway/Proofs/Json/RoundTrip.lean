import DocumentGateway.Proofs.Json.WrittenValue

namespace DocumentGateway
namespace Json

/-!
# JSON there and back

A plain value becomes a document of the type of JSON unless a record somewhere in it has a field
`items`, and the document holds the value again, to be read where there is room for its depth.  A
value that comes from a text is its own reading, so writing it once more gives the same document.
-/

theorem result_toDocument (v : Value) :
    (toDocument v).result =
      match write .compact v with
      | .ok t => .ok (.make (.text t) MediaType.json)
      | .error fault => .error (.format (.notSerializable fault)) := by
  rw [toDocument, Run.result_timed, writeDocument]
  cases write .compact v <;> rfl

/-- Converting a plain value fails for a field `items`, and for nothing else. -/
theorem result_toDocument_of_hidesItems {v : Value} (plain : v.IsPlain)
    (hides : v.hidesItems = true) :
    ∃ kind, (toDocument v).result = .error (.format (.notSerializable (.hiddenItems kind))) := by
  rcases exists_write_eq_error plain hides .compact with ⟨kind, failed⟩
  refine ⟨kind, ?_⟩
  rw [result_toDocument, failed]

section

variable [Limits]

/-- A document of the type of JSON is read as the text in it. -/
theorem result_ofDocument_make (t : Text) (isTypeChecked : Bool) :
    (ofDocument (.make (.text t) MediaType.json) isTypeChecked).result = (parse t).result := by
  have accepted : (Document.make (.text t) MediaType.json).textIn .json isTypeChecked = .ok t := by
    cases isTypeChecked with
    | true => rfl
    | false => rfl
  rw [ofDocument, Run.result_timed, accepted]
  rfl

/-- A plain value without such a field is written into a document that holds its reading. -/
theorem exists_document_of_isPlain {v : Value} (plain : v.IsPlain) (fits : v.depth ≤ Limits.commonValues)
    (shows : v.hidesItems = false) :
    ∃ t, (toDocument v).result = .ok (.make (.text t) MediaType.json) ∧
      (ofDocument (.make (.text t) MediaType.json) true).result = .ok v.readBack := by
  rcases exists_write_eq_ok plain shows .compact with ⟨t, written⟩
  refine ⟨t, ?_, ?_⟩
  · rw [result_toDocument, written]
  · have keeps : ∀ s ∈ v.texts, Layout.compact.Keeps s := fun s _ =>
      Layout.keeps_of_ascii_eq_false rfl s
    rw [result_ofDocument_make, result_parse_eq_ok_iff]
    exact read_write keeps plain fits written

/-- The conversion loses nothing.  A plain value is refused, for want of a form, exactly when a
record in it has a field `items`; every other one is read back from its document, and a value that
was read from a text is written into the same document again. -/
theorem readBack_ofDocument_toDocument :
    (∀ v : Value, v.IsPlain → v.depth ≤ Limits.commonValues →
      ((∃ fault, (toDocument v).result = .error (.format fault)) ↔ v.hidesItems = true) ∧
      (v.hidesItems = false →
        ∃ d, (toDocument v).result = .ok d ∧ d.mimeType = MediaType.json ∧
          (ofDocument d true).result = .ok v.readBack)) ∧
    ∀ (t : Text) (v : Value), (parse t).result = .ok v → v.depth ≤ Limits.commonValues →
      v.hidesItems = false → ∃ d w, (toDocument v).result = .ok d ∧ (ofDocument d true).result = .ok w ∧
        (toDocument w).result = .ok d := by
  constructor
  · intro v plain fits
    refine ⟨⟨?_, ?_⟩, ?_⟩
    · rintro ⟨fault, failed⟩
      by_contra shows
      rcases exists_document_of_isPlain plain fits (Bool.eq_false_iff.mpr shows) with ⟨t, written, -⟩
      rw [written] at failed
      exact absurd failed (by simp)
    · intro hides
      rcases result_toDocument_of_hidesItems plain hides with ⟨kind, failed⟩
      exact ⟨_, failed⟩
    · intro shows
      rcases exists_document_of_isPlain plain fits shows with ⟨t, written, back⟩
      exact ⟨_, written, rfl, back⟩
  · intro t v accepted fits shows
    have reading := isReading_read (result_parse_eq_ok_iff.mp accepted)
    rcases exists_document_of_isPlain reading.plain fits shows with ⟨s, written, back⟩
    rw [reading.same] at back
    exact ⟨_, v, written, back, written⟩

end

/-- A tuple that holds a mapping with two names, a NaN of a caller's own and half of a surrogate
pair. -/
def nestedValue : Value :=
  .tuple [.mapping [(.text "b", .int (-20)), (.text "a", .list [.bool true, .null])],
    .ownNan 0, .text [.surrogate 0, .scalar '\n']]

/-- A record with a list in it, spelled without spaces. -/
def tightText : Text :=
  [.scalar '\x7b', .scalar '"', .scalar 'a', .scalar '"', .scalar ':', .scalar '[', .scalar 'n',
    .scalar 'u', .scalar 'l', .scalar 'l', .scalar ']', .scalar '\x7d']

section

open scoped Limits

theorem readBack_nestedValue :
    (∃ d, (toDocument nestedValue).result = .ok d ∧ d.mimeType = MediaType.json ∧
      (ofDocument d true).result = .ok nestedValue.readBack) ∧
    (parse tightText).result = .ok (.record [(.text "a", .list [.null])]) ∧
    ∃ d w, (toDocument (.record [(.text "a", .list [.null])])).result = .ok d ∧
      (ofDocument d true).result = .ok w ∧ (toDocument w).result = .ok d := by
  have plain : nestedValue.IsPlain := by
    have short : digitCount 20 ≤ digitLimit :=
      (digitCount_le_of_lt_pow (k := 2) (by decide) (by decide)).trans (by decide)
    have names : AreNames [.text "b", .text "a"] :=
      ⟨[Text.ofString "b", Text.ofString "a"], rfl, by decide⟩
    exact ⟨⟨names, short, ⟨trivial, trivial, trivial⟩, trivial⟩, trivial, trivial, trivial⟩
  have accepted : (parse tightText).result = .ok (.record [(.text "a", .list [.null])]) := by
    have scanned : scanValue (Limits.values tightText) 26 tightText =
      .ok (.record [(.text "a", .list [.null])], []) := rfl
    exact result_parse_eq_ok_iff.mpr (read_of_scanValue rfl rfl (by decide) scanned)
  exact ⟨(readBack_ofDocument_toDocument.1 nestedValue plain (by decide)).2 rfl, accepted,
    readBack_ofDocument_toDocument.2 tightText _ accepted (by decide) rfl⟩

end

end Json
end DocumentGateway
