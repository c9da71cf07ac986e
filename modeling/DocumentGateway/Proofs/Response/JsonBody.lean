import DocumentGateway.Proofs.Json.ReadGrammar
import DocumentGateway.Proofs.Response.NamedNumber
import DocumentGateway.Proofs.Text.Trimming
import DocumentGateway.Proofs.Xml.ForeignText

namespace DocumentGateway

/-!
# Bodies that are JSON

A body that is a JSON object or list is no XML, so a response with such a body is in error exactly
when its type is not that of XML and the object holds an envelope.  There is one exception: a body
of the type of XML with a surrogate in it is refused before it is known whether it is XML.
-/

/-! ## Opening brackets -/

namespace Json

theorem exists_bracket_of_denotes {t : Text} {v : Value} (denotes : Denotes t v)
    (isCollection : v.IsCollection) : ∃ c rest, t = .scalar c :: rest ∧ Xml.IsBracket c := by
  cases denotes with
  | emptyList | list => exact ⟨'[', _, rfl, Or.inr rfl⟩
  | emptyRecord | record => exact ⟨'\x7b', _, rfl, Or.inl rfl⟩
  | number number => cases number <;> exact isCollection.elim
  | _ => exact isCollection.elim

/-- The text of an object or a list begins with a bracket, but for spaces. -/
theorem exists_bracket_of_read [Limits] {t : Text} {v : Value} (parsed : read t = .ok v)
    (isCollection : v.IsCollection) :
    ∃ blanks c rest, t = blanks ++ .scalar c :: rest ∧ (∀ p ∈ blanks, isSpace p = true) ∧
      Xml.IsBracket c := by
  rcases denotesDocument_of_read parsed with ⟨before, text, after, rfl, areSpaces, -, denotes⟩
  rcases exists_bracket_of_denotes denotes isCollection with ⟨c, rest, rfl, isBracket⟩
  exact ⟨before, c, rest ++ after, rfl, areSpaces_iff.mp areSpaces, isBracket⟩

/-- Such a text is not XML. -/
theorem read_xml_ne_ok [Limits] {chars : List Char} {v : Value}
    (parsed : read (Text.ofChars chars) = .ok v) (isCollection : v.IsCollection) (root : Xml.Element) :
    Xml.read (Text.ofChars chars) ≠ .ok root := by
  rcases exists_bracket_of_read parsed isCollection with ⟨blanks, c, rest, same, spaces, isBracket⟩
  rcases List.map_eq_append_iff.mp same with ⟨front, back, rfl, rfl, behind⟩
  rcases List.map_eq_cons_iff.mp behind with ⟨d, more, rfl, sameChar, -⟩
  obtain rfl : d = c := CodePoint.scalar.inj sameChar
  refine Xml.read_ne_ok (fun b member => ?_) isBracket more root
  have space := spaces _ (List.mem_map_of_mem member)
  simpa [isSpace, Xml.isSpace] using space

/-- Such a text is not blank. -/
theorem trim_ne_nil_of_read [Limits] {t : Text} {v : Value} (parsed : read t = .ok v)
    (isCollection : v.IsCollection) : t.trim ≠ [] := by
  rcases exists_bracket_of_read parsed isCollection with ⟨blanks, c, rest, rfl, -, isBracket⟩
  refine Text.trim_ne_nil (p := .scalar c) (by simp) ?_
  rcases isBracket with rfl | rfl <;> rfl

end Json

/-! ## Responses -/

namespace Response

/-- A response of which it can be said whether its body is XML: it is not of the type of XML, or its
body has no surrogate in it. -/
def IsReadable (r : Response) : Prop :=
  r.type = .xml → r.body.IsScalar

theorem read_xml_ne_ok [Limits] (r : Response) {t : Text} {v : Value} (isText : r.text = .ok t)
    (parsed : Json.read t = .ok v) (isCollection : v.IsCollection) (scalar : r.body.IsScalar)
    (root : Xml.Element) : Xml.read t ≠ .ok root := by
  rcases r.text_eq scalar with ⟨chars, same⟩ | ⟨fault, failed⟩
  · obtain rfl : t = Text.ofChars chars := Except.ok.inj (isText.symm.trans same)
    exact Json.read_xml_ne_ok parsed isCollection root
  · cases isText.symm.trans failed

end Response

namespace ErrorEnvelope

variable [Limits] {r : Response} {t : Text} {v : Value} (isText : r.text = .ok t)
  (parsed : Json.read t = .ok v)

include isText parsed

theorem result_find_of_read (notXml : r.type ≠ .xml) : (find r).result = .ok (ofValue? v) := by
  rw [result_find, result_read_json isText notXml, Json.result_parse_eq_ok_iff.mpr parsed]
  rfl

theorem result_find_of_isCollection (isCollection : v.IsCollection) (isXml : r.type = .xml)
    (scalar : r.body.IsScalar) : (find r).result = .ok none := by
  rcases result_find_cases r scalar with ⟨found, isFound, carries⟩ | ⟨_, -, deep⟩
  · cases found with
    | none => exact isFound
    | some envelope =>
        rcases carries.mp rfl with ⟨s, isTextToo, ⟨-, root, isRoot, -⟩ | ⟨notXml, -⟩⟩
        · obtain rfl : t = s := Except.ok.inj (isText.symm.trans isTextToo)
          exact absurd isRoot (r.read_xml_ne_ok isText parsed isCollection scalar root)
        · exact absurd isXml notXml
  · exact absurd (fun notXml => absurd isXml notXml) deep

/-- The envelope in a body that is a JSON object or list. -/
theorem result_find_json_body (isCollection : v.IsCollection) (readable : r.IsReadable) :
    (find r).result = .ok (if r.type = .xml then none else ofValue? v) := by
  by_cases isXml : r.type = .xml
  · rw [if_pos isXml]
    exact result_find_of_isCollection isText parsed isCollection isXml (readable isXml)
  · rw [if_neg isXml]
    exact result_find_of_read isText parsed isXml

end ErrorEnvelope

/-- The suggestions in a body that is not blank, when there is no error. -/
theorem Response.result_suggestions [Limits] {r : Response} {t : Text} (isText : r.text = .ok t)
    (isFound : (ErrorEnvelope.find r).result = .ok none) (filled : t.trim ≠ []) :
    r.suggestions.result =
      if r.type = .xml then (Xml.parse t).result.map Suggestion.ofElement
      else (Json.parse t).result.bind fun v => (Suggestion.ofValue v).mapError .format := by
  have success := (result_requireSuccess isFound).1 rfl
  have body : (Suggestion.ofBody r).result = if r.type = .xml then
      (Xml.parse t).result.map Suggestion.ofElement
      else (Json.parse t).result.bind fun v => (Suggestion.ofValue v).mapError .format := by
    rw [Suggestion.ofBody, isText, Run.result_bind, Run.result_ofExcept]
    change Run.result (if t.trim.isEmpty then _ else _) = _
    rw [if_neg (by rwa [List.isEmpty_iff])]
    split <;> rw [Run.result_bind] <;> rfl
  rw [suggestions, Run.result_timed, Run.result_bind, success]
  exact body

/-! ## Surrogates in a body of the type of XML -/

theorem ErrorEnvelope.exists_result_find_of_not_isReadable [Limits] {r : Response}
    (unreadable : ¬ r.IsReadable) : ∃ fault, (find r).result = .error (.unencodable fault) := by
  rcases Classical.not_imp.mp unreadable with ⟨isXml, surrogates⟩
  cases isBody : r.body with
  | octets bytes =>
      rw [isBody] at surrogates
      exact absurd trivial surrogates
  | text t =>
      have isText : r.text = .ok t := by
        rw [Response.text, isBody]
      cases encoded : Encoding.utf8.encode t with
      | ok octets =>
          rw [isBody] at surrogates
          exact absurd (Encoding.exists_ofChars_of_encodeFrom encoded) surrogates
      | error fault =>
          refine ⟨fault, ?_⟩
          have unread : (Xml.parse t).result = .error (.unencodable fault) := by
            rw [Xml.parse, Xml.read, encoded]
            rfl
          rw [result_find, read, isText, Run.result_bind, Run.result_ofExcept]
          simp only [Except.bind]
          rw [if_pos isXml, Run.result_bind, unread]
          rfl

/-! ## Values as bodies -/

namespace Json

/-- The text of a value in a layout. -/
def written (l : Layout) (v : Value) : Text :=
  (write l v).toOption.getD []

theorem read_written [Limits] {l : Layout} {v : Value} (reading : IsReading v)
    (fits : v.depth ≤ Limits.commonValues) (shows : v.hidesItems = false)
    (keeps : ∀ s ∈ v.texts, l.Keeps s) : read (written l v) = .ok v := by
  rcases exists_write_eq_ok reading.plain shows l with ⟨t, isWritten⟩
  rw [written, isWritten]
  exact (read_write keeps reading.plain fits isWritten).trans (congrArg Except.ok reading.same)

/-- Written compactly, texts keep their surrogates as they are. -/
theorem read_written_compact [Limits] {v : Value} (reading : IsReading v)
    (fits : v.depth ≤ Limits.commonValues) (shows : v.hidesItems = false) :
    read (written .compact v) = .ok v :=
  read_written reading fits shows fun t _ => Layout.keeps_of_ascii_eq_false rfl t

end Json

namespace Response

/-- A response of the type of JSON with a value written as its body. -/
def ofValue (v : Value) : Response :=
  ofJson (Json.written .compact v)

theorem type_ofValue_ne_xml (v : Value) : (ofValue v).type ≠ .xml :=
  nofun

/-- A response of the type of XML. -/
def ofXml (body : Text) : Response :=
  (blank.withHeaders [("Content-Type", MediaType.xml)]).setBody (.text body)

/-- A body of the type of XML can be read when it has a UTF-8 form. -/
theorem isReadable_ofXml_iff (body : Text) :
    (ofXml body).IsReadable ↔ (Encoding.utf8.encode body).isOk = true := by
  constructor
  · intro readable
    rcases readable rfl with ⟨chars, rfl⟩
    rw [Encoding.encode_utf8_ofChars]
    rfl
  · intro encodes _
    rcases exists_of_isOk encodes with ⟨octets, encoded⟩
    exact Encoding.exists_ofChars_of_encodeFrom encoded

end Response

end DocumentGateway
