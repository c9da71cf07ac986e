import DocumentGateway.Proofs.Json.RoundTrip
import DocumentGateway.Proofs.Response.JsonBody
import DocumentGateway.Proofs.Xml.BuiltElement

namespace DocumentGateway

/-!
# Carriers of answers

An error with a message, or a list of suggestions, is carried by a JSON object or by an XML element,
in a namespace or in none.  Both are written into documents, and a response with the content of
either document says the same.
-/

/-! ## Namespaces -/

/-- A character of URIs. -/
def IsUriChar (c : Char) : Prop :=
  c.isAlphanum = true ∨ c ∈ "-._~:/?#[]@!$&'()*+,;=%".toList

instance (c : Char) : Decidable (IsUriChar c) :=
  inferInstanceAs (Decidable (_ ∨ _))

/-- No namespace, or one with a URI that is neither empty nor reserved. -/
def IsPlace (uri? : Option (List Char)) : Prop :=
  ∀ uri, uri? = some uri → uri ≠ [] ∧ (∀ c ∈ uri, IsUriChar c) ∧ uri ≠ Xml.xmlnsUri

theorem IsUriChar.isXmlChar {c : Char} (h : IsUriChar c) : Xml.isXmlChar c = true := by
  rcases h with alphanumeric | mark
  · change ((decide (65 ≤ c.val ∧ c.val ≤ 90) ||
      decide (97 ≤ c.val) && decide (c.val ≤ 122)) ||
        decide (48 ≤ c.val) && decide (c.val ≤ 57)) = true at alphanumeric
    simp only [Bool.or_eq_true, Bool.and_eq_true, decide_eq_true_eq, UInt32.le_iff_toNat_le]
      at alphanumeric
    change (65 ≤ c.toNat ∧ c.toNat ≤ 90 ∨ 97 ≤ c.toNat ∧ c.toNat ≤ 122) ∨
      48 ≤ c.toNat ∧ c.toNat ≤ 57 at alphanumeric
    simp only [Xml.isXmlChar, Bool.or_eq_true, Bool.and_eq_true, decide_eq_true_eq, bne_iff_ne]
    omega
  · have all : "-._~:/?#[]@!$&'()*+,;=%".toList.all Xml.isXmlChar = true := by decide
    exact List.all_eq_true.mp all c mark

theorem IsUriChar.ne_closeBrace {c : Char} (h : IsUriChar c) : c ≠ '\x7d' := by
  rintro rfl
  exact absurd h (by decide)

theorem IsPlace.isNamespace {uri? : Option (List Char)} (place : IsPlace uri?) (uri : List Char)
    (isUri : uri? = some uri) : Xml.IsNamespace uri := by
  rcases place uri isUri with ⟨nonempty, chars, unreserved⟩
  exact ⟨nonempty, fun c member => (chars c member).isXmlChar,
    fun member => (chars _ member).ne_closeBrace rfl, unreserved⟩

/-! ## Documents -/

/-- An object with an error that has a message. -/
def errorObject (message : Text) : Value :=
  .mapping [(.text "errorResponse", .mapping [(.text "message", .text message)])]

/-- An object with suggestions. -/
def suggestionsObject (suggestions : List Text) : Value :=
  .mapping [(.text "suggestions", .list (suggestions.map .text))]

/-- An element with an error that has a message. -/
def errorElement (uri? : Option (List Char)) (message : List Char) : Xml.Element :=
  Xml.listOf (Xml.nameIn uri? "error-response".toList) (Xml.nameIn uri? "message".toList) [message]

/-- An element with suggestions. -/
def suggestionsElement (uri? : Option (List Char)) (suggestions : List (List Char)) : Xml.Element :=
  Xml.listOf (Xml.nameIn uri? "suggestions".toList) (Xml.nameIn uri? "suggestion".toList) suggestions

/-- A plain value that hides no items is written into a document from which it is read. -/
theorem Json.exists_document_and_read [Limits] {v : Value} (plain : v.IsPlain)
    (fits : v.depth ≤ Limits.commonValues) (shows : v.hidesItems = false) :
    ∃ t, (toDocument v).result = .ok (.make (.text t) MediaType.json) ∧
      read t = .ok v.readBack := by
  rcases exists_write_eq_ok plain shows .compact with ⟨t, isWritten⟩
  refine ⟨t, by rw [result_toDocument, isWritten], ?_⟩
  exact read_write (fun s _ => Layout.keeps_of_ascii_eq_false rfl s) plain fits isWritten

theorem exists_document_errorObject [Limits] (message : Text) :
    ∃ t, (Json.toDocument (errorObject message)).result = .ok (.make (.text t) MediaType.json) ∧
      Json.read t = .ok (.record [(.text "errorResponse",
        .record [(.text "message", .text message)])]) := by
  refine Json.exists_document_and_read ⟨⟨["errorResponse"], rfl, List.nodup_singleton _⟩, ?_, trivial⟩
    Limits.two_le_commonValues rfl
  exact ⟨⟨["message"], rfl, List.nodup_singleton _⟩, trivial, trivial⟩

theorem Value.anyHidesItems_map_text (texts : List Text) :
    Value.anyHidesItems (texts.map .text) = false := by
  induction texts with
  | nil => rfl
  | cons t rest ih => exact ih

theorem exists_document_suggestionsObject [Limits] (suggestions : List Text) :
    ∃ t, (Json.toDocument (suggestionsObject suggestions)).result =
        .ok (.make (.text t) MediaType.json) ∧
      Json.read t = .ok (.record [(.text "suggestions", .list (suggestions.map .text))]) := by
  have plain : (suggestionsObject suggestions).IsPlain := by
    refine ⟨⟨["suggestions"], rfl, List.nodup_singleton _⟩, ?_, trivial⟩
    refine (Value.arePlain_iff _).mpr fun item member => ?_
    rcases List.mem_map.mp member with ⟨t, -, rfl⟩
    trivial
  have texts : Value.depthOfAll (suggestions.map .text) ≤ 0 :=
    Value.depthOfAll_le_iff.mpr fun item member => by
      rcases List.mem_map.mp member with ⟨t, -, rfl⟩
      exact Nat.le_refl 0
  have fits : (suggestionsObject suggestions).depth ≤ Limits.commonValues := by
    refine (Nat.succ_le_succ (Nat.max_le.mpr ⟨?_, Nat.zero_le 1⟩)).trans Limits.two_le_commonValues
    exact Nat.succ_le_succ texts
  have shows : (suggestionsObject suggestions).hidesItems = false :=
    congrArg (· || false) (Value.anyHidesItems_map_text suggestions)
  have back : (suggestionsObject suggestions).readBack =
      .record [(.text "suggestions", .list (suggestions.map .text))] := by
    simp only [suggestionsObject, Value.readBack, Value.readBackFields, Value.readBackAll_eq_map,
      List.map_map, Function.comp_def]
  rw [← back]
  exact Json.exists_document_and_read plain fits shows

/-! ## Answers -/

/-- The suggestions in an element are the texts of its children. -/
theorem ofElement_readList (uri? : Option (List Char)) (suggestions : List (List Char)) :
    Suggestion.ofElement (Xml.readList (Xml.nameIn uri? "suggestions".toList)
      (Xml.nameIn uri? "suggestion".toList) suggestions) = suggestions.map Text.ofChars := by
  have isList : Xml.localName (Xml.nameIn uri? "suggestions".toList) = "suggestions".toList :=
    Xml.localName_nameIn (by decide)
  have isSuggestion : Xml.localName (Xml.nameIn uri? "suggestion".toList) = "suggestion".toList :=
    Xml.localName_nameIn (by decide)
  have kept : ((Xml.readList (Xml.nameIn uri? "suggestions".toList)
      (Xml.nameIn uri? "suggestion".toList) suggestions).descendants.filter fun e =>
        e.localName = "suggestion".toList) =
      suggestions.map (Xml.readLeaf (Xml.nameIn uri? "suggestion".toList)) := by
    rw [Xml.readList, Xml.Element.descendants, Xml.descendantsOf_map_readLeaf]
    refine (List.filter_cons_of_neg fun isOne => ?_).trans (List.filter_eq_self.mpr fun child member => ?_)
    · cases isList.symm.trans (of_decide_eq_true isOne)
    · rcases List.mem_map.mp member with ⟨s, -, rfl⟩
      exact decide_eq_true isSuggestion
  rw [Suggestion.ofElement, kept, List.map_map]
  exact List.map_congr_left fun s _ => Xml.textOrEmpty_textValue s

namespace Response

theorem text_of_body {r : Response} {t : Text} (holds : r.body = .text t) : r.text = .ok t := by
  rw [text, holds]

/-- A response is in error and has a message. -/
structure TellsError [Limits] (r : Response) (message : Text) : Prop where
  inError : r.isInError.result = .ok true
  message : r.errorMessage.result = .ok message
  outcome : r.outcome.result = .ok .applicationError

theorem tellsError_of_find [Limits] {r : Response} {envelope : ErrorEnvelope} {message : Text}
    (isFound : (ErrorEnvelope.find r).result = .ok (some envelope))
    (isMessage : envelope.message.result = .ok message) : r.TellsError message where
  inError := result_isInError isFound
  message := (result_errorMessage isFound).trans isMessage
  outcome := result_outcome isFound

variable {r : Response} {t : Text} (isText : r.text = .ok t)

include isText

theorem tellsError_of_errorObject [Limits] (isJson : r.type = .json) {message : Text}
    (parsed : Json.read t = .ok (.record [(.text "errorResponse",
      .record [(.text "message", .text message)])])) : r.TellsError message := by
  have isFound := ErrorEnvelope.result_find_json isText (by rw [isJson]; decide) parsed rfl
  exact tellsError_of_find isFound (ErrorEnvelope.message_json_of_text rfl)

theorem tellsError_of_errorElement [Limits] (isXml : r.type = .xml) {uri? : Option (List Char)}
    {message : List Char}
    (parsed : Xml.read t = .ok (Xml.readList (Xml.nameIn uri? "error-response".toList)
      (Xml.nameIn uri? "message".toList) [message])) : r.TellsError (Text.ofChars message) := by
  have isError : Xml.localName (Xml.nameIn uri? "error-response".toList) = "error-response".toList :=
    Xml.localName_nameIn (by decide)
  have isMessage : Xml.localName (Xml.nameIn uri? "message".toList) = "message".toList :=
    Xml.localName_nameIn (by decide)
  have isFound := ErrorEnvelope.result_find_xml isText isXml parsed isError
  have found : (Xml.readList (Xml.nameIn uri? "error-response".toList)
      (Xml.nameIn uri? "message".toList) [message]).children.find?
        (fun child => child.localName = "message".toList) =
      some (Xml.readLeaf (Xml.nameIn uri? "message".toList) message) :=
    List.find?_cons_of_pos (decide_eq_true isMessage)
  refine tellsError_of_find isFound ?_
  rw [ErrorEnvelope.message, found]
  exact congrArg Except.ok (Xml.textOrEmpty_textValue message)

theorem suggestions_of_suggestionsObject [Limits] (isJson : r.type = .json) {suggestions : List Text}
    (parsed : Json.read t = .ok (.record [(.text "suggestions", .list (suggestions.map .text))])) :
    r.suggestions.result = .ok suggestions := by
  have notXml : r.type ≠ .xml := by
    rw [isJson]
    decide
  have isFound := ErrorEnvelope.result_find_of_read isText parsed notXml
  rw [result_suggestions isText isFound (Json.trim_ne_nil_of_read parsed trivial), if_neg notXml,
    Json.result_parse_eq_ok_iff.mpr parsed]
  change Except.ok ((suggestions.map Value.text).map Value.asText) = _
  rw [List.map_map]
  exact congrArg Except.ok (List.map_id suggestions)

theorem suggestions_of_suggestionsElement [Limits] (isXml : r.type = .xml) {uri? : Option (List Char)}
    {suggestions : List (List Char)} (filled : t.trim ≠ [])
    (parsed : Xml.read t = .ok (Xml.readList (Xml.nameIn uri? "suggestions".toList)
      (Xml.nameIn uri? "suggestion".toList) suggestions)) :
    r.suggestions.result = .ok (suggestions.map Text.ofChars) := by
  have isList : Xml.localName (Xml.nameIn uri? "suggestions".toList) = "suggestions".toList :=
    Xml.localName_nameIn (by decide)
  have isFound : (ErrorEnvelope.find r).result = .ok none := by
    refine (ErrorEnvelope.result_find_of_element isText isXml parsed).trans ?_
    refine congrArg Except.ok (if_neg fun isError => ?_)
    cases isList.symm.trans isError
  rw [result_suggestions isText isFound filled, if_pos isXml, Xml.result_parse_eq_ok_iff.mpr parsed]
  exact congrArg Except.ok (ofElement_readList _ _)

end Response

/-- Whether an error or suggestions come in JSON or in XML, in whatever namespace, a response says the
same about them. -/
theorem carriers_sayTheSame [Limits] (uri? : Option (List Char)) (place : IsPlace uri?) :
    (∀ message : List Char, Xml.AreXmlChars message → '\r' ∉ message →
      ∃ jsonText xmlText,
        (Json.toDocument (errorObject (Text.ofChars message))).result =
          .ok (.make (.text jsonText) MediaType.json) ∧
        (Xml.toDocument (.element (errorElement uri? message))).result =
          .ok (.make (.text xmlText) MediaType.xml) ∧
        ∀ r s : Response, r.type = .json → r.body = .text jsonText → s.type = .xml →
          s.body = .text xmlText →
            r.TellsError (Text.ofChars message) ∧ s.TellsError (Text.ofChars message)) ∧
    ∀ suggestions : List (List Char), (∀ s ∈ suggestions, Xml.AreXmlChars s) →
      (∀ s ∈ suggestions, '\r' ∉ s) →
      ∃ jsonText xmlText,
        (Json.toDocument (suggestionsObject (suggestions.map Text.ofChars))).result =
          .ok (.make (.text jsonText) MediaType.json) ∧
        (Xml.toDocument (.element (suggestionsElement uri? suggestions))).result =
          .ok (.make (.text xmlText) MediaType.xml) ∧
        ∀ r s : Response, r.type = .json → r.body = .text jsonText → s.type = .xml →
          s.body = .text xmlText →
            r.suggestions.result = .ok (suggestions.map Text.ofChars) ∧
              s.suggestions.result = .ok (suggestions.map Text.ofChars) := by
  constructor
  · intro message chars noReturn
    rcases exists_document_errorObject (Text.ofChars message) with ⟨jsonText, isJson, jsonRead⟩
    have proper : Xml.isProperName "error-response".toList = true := by decide
    have properChild : Xml.isProperName "message".toList = true := by decide
    rcases Xml.exists_document_listOf place.isNamespace proper properChild
      (List.forall_mem_singleton.mpr chars) (List.forall_mem_singleton.mpr noReturn) with
      ⟨xmlText, isXml, xmlRead, -⟩
    refine ⟨jsonText, xmlText, isJson, isXml, fun r s ofJson holdsJson ofXml holdsXml => ⟨?_, ?_⟩⟩
    · exact Response.tellsError_of_errorObject (Response.text_of_body holdsJson) ofJson jsonRead
    · exact Response.tellsError_of_errorElement (Response.text_of_body holdsXml) ofXml xmlRead
  · intro suggestions chars noReturns
    rcases exists_document_suggestionsObject (suggestions.map Text.ofChars) with
      ⟨jsonText, isJson, jsonRead⟩
    have proper : Xml.isProperName "suggestions".toList = true := by decide
    have properChild : Xml.isProperName "suggestion".toList = true := by decide
    rcases Xml.exists_document_listOf place.isNamespace proper properChild chars noReturns with
      ⟨xmlText, isXml, xmlRead, filled⟩
    refine ⟨jsonText, xmlText, isJson, isXml, fun r s ofJson holdsJson ofXml holdsXml => ⟨?_, ?_⟩⟩
    · exact Response.suggestions_of_suggestionsObject (Response.text_of_body holdsJson) ofJson
        jsonRead
    · exact Response.suggestions_of_suggestionsElement (Response.text_of_body holdsXml) ofXml filled
        xmlRead

/-- A text with characters that JSON and XML have to escape. -/
def marks : List Char :=
  "<\\\"&>\n]]>".toList

/-- The URI of a namespace with characters that XML has to escape. -/
def markedUri : List Char :=
  "urn:a?b=1&c='d'".toList

open scoped Limits in
theorem carriers_sayTheSame_marks :
    (∃ r s : Response, r.type = .json ∧ s.type = .xml ∧ r.TellsError (Text.ofChars marks) ∧
      s.TellsError (Text.ofChars marks)) ∧
    ∃ r s : Response, r.type = .json ∧ s.type = .xml ∧
      r.suggestions.result = .ok [[], Text.ofChars marks] ∧
        s.suggestions.result = .ok [[], Text.ofChars marks] := by
  have place : IsPlace (some markedUri) := by
    rintro uri ⟨⟩
    have all : markedUri.all (fun c => decide (IsUriChar c)) = true := by decide
    refine ⟨by decide, fun c member => ?_, by decide⟩
    exact of_decide_eq_true (List.all_eq_true.mp all c member)
  have chars : Xml.AreXmlChars marks := by
    have all : marks.all Xml.isXmlChar = true := by decide
    exact List.all_eq_true.mp all
  rcases carriers_sayTheSame (some markedUri) place with ⟨errors, suggestions⟩
  constructor
  · rcases errors marks chars (by decide) with ⟨jsonText, xmlText, -, -, same⟩
    exact ⟨⟨.unknown, .json, [], .text jsonText⟩, ⟨.unknown, .xml, [], .text xmlText⟩, rfl, rfl,
      same _ _ rfl rfl rfl rfl⟩
  · rcases suggestions [[], marks] (List.forall_mem_cons.mpr ⟨nofun, List.forall_mem_singleton.mpr chars⟩)
      (by decide) with ⟨jsonText, xmlText, -, -, same⟩
    exact ⟨⟨.unknown, .json, [], .text jsonText⟩, ⟨.unknown, .xml, [], .text xmlText⟩, rfl, rfl,
      same _ _ rfl rfl rfl rfl⟩

end DocumentGateway
