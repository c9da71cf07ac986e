import DocumentGateway.Proofs.Json.Nesting

namespace DocumentGateway

/-!
# Wanting nothing but a form

What is done with a body or a document mostly needs nothing of it but a form: it returns exactly when
that form is there, and is refused for want of a form otherwise.  Steps of this kind are of this kind
together, so that it comes down to the texts that are read and the formats that they are read in.
-/

namespace Run

/-- A run returns exactly if something is formed, and if it fails, then for want of a form. -/
structure ReturnsIff (run : Run α) (formed : Prop) : Prop where
  returns : (∃ a, run.result = .ok a) ↔ formed
  refuses : ∀ fault, run.result = .error fault → ∃ cause, fault = .format cause

namespace ReturnsIff

variable {run : Run α} {formed : Prop}

theorem congr (h : run.ReturnsIff formed) {other : Prop} (same : formed ↔ other) :
    run.ReturnsIff other where
  returns := h.returns.trans same
  refuses := h.refuses

theorem timed (h : run.ReturnsIff formed) (operation : Operation) :
    (run.timed operation).ReturnsIff formed where
  returns := h.returns
  refuses := h.refuses

theorem exists_of_not (h : run.ReturnsIff formed) (malformed : ¬ formed) :
    ∃ cause, run.result = .error (.format cause) := by
  cases result : run.result with
  | ok a => exact absurd (h.returns.mp ⟨a, result⟩) malformed
  | error fault =>
      rcases h.refuses fault result with ⟨cause, rfl⟩
      exact ⟨cause, rfl⟩

theorem of_ok {a : α} (returned : run.result = .ok a) (holds : formed) : run.ReturnsIff formed where
  returns := iff_of_true ⟨a, returned⟩ holds
  refuses fault failed := by
    rw [returned] at failed
    cases failed

theorem of_format {cause : FormatFault} (failed : run.result = .error (.format cause))
    (malformed : ¬ formed) : run.ReturnsIff formed where
  returns := by
    refine iff_of_false ?_ malformed
    rintro ⟨a, returned⟩
    rw [failed] at returned
    cases returned
  refuses fault same := ⟨cause, Except.error.inj (same.symm.trans failed)⟩

/-- A run whose next step is of the kind whatever it starts from is of the kind. -/
theorem bind (h : run.ReturnsIff formed) {next : α → Run β} {following : α → Prop}
    (hNext : ∀ a, run.result = .ok a → (next a).ReturnsIff (following a)) :
    (run >>= next).ReturnsIff (∃ a, run.result = .ok a ∧ following a) := by
  cases result : run.result with
  | error fault =>
      have failed : (run >>= next).result = .error fault := by
        rw [result_bind, result]
        rfl
      rw [result] at hNext
      refine ⟨?_, fun first same => h.refuses first ?_⟩
      · rw [failed]
        exact ⟨fun ⟨_, same⟩ => (nomatch same), fun ⟨_, same, _⟩ => (nomatch same)⟩
      · exact Except.error.inj (failed.symm.trans same) ▸ result
  | ok a =>
      have goesOn : (run >>= next).result = (next a).result := by
        rw [result_bind, result]
        rfl
      have step := hNext a result
      refine ⟨?_, fun fault failed => step.refuses fault (goesOn ▸ failed)⟩
      rw [goesOn, step.returns]
      constructor
      · exact fun follows => ⟨a, rfl, follows⟩
      · rintro ⟨_, ⟨⟩, follows⟩
        exact follows

end ReturnsIff

theorem returnsIff_ofExcept {x : Except Fault α}
    (refuses : ∀ fault, x = .error fault → ∃ cause, fault = .format cause) :
    (ofExcept x).ReturnsIff (∃ a, x = .ok a) where
  returns := Iff.rfl
  refuses := refuses

theorem returnsIff_ofExcept_mapError (x : Except FormatFault α) :
    (ofExcept (x.mapError .format)).ReturnsIff (∃ a, x = .ok a) := by
  cases x with
  | ok a => exact .of_ok rfl ⟨a, rfl⟩
  | error cause =>
      refine .of_format rfl ?_
      rintro ⟨a, ⟨⟩⟩

end Run

/-! ## Texts -/

/-- A text that is there or is refused for want of a form. -/
def IsFormedText (text : Except Fault Text) : Prop :=
  ∀ fault, text = .error fault → ∃ cause, fault = .format cause

namespace Response

theorem isFormedText_text (r : Response) : IsFormedText r.text := by
  intro fault failed
  unfold text at failed
  split at failed
  · cases failed
  · split at failed
    · cases failed
    · exact ⟨_, (Except.error.inj failed).symm⟩

theorem isFormedText_textIn (r : Response) (format : Format) : IsFormedText (r.textIn format) := by
  intro fault failed
  unfold textIn at failed
  split at failed
  · exact r.isFormedText_text fault failed
  · exact ⟨_, (Except.error.inj failed).symm⟩

theorem textIn_eq_ok_iff {r : Response} {format : Format} {t : Text} :
    r.textIn format = .ok t ↔ r.type = format.bodyType ∧ r.text = .ok t := by
  unfold textIn
  split
  · next same => exact (and_iff_right same).symm
  · next other => exact ⟨fun failed => (nomatch failed), fun both => absurd both.1 other⟩

end Response

namespace Document

theorem isFormedText_text (d : Document) : IsFormedText d.text := by
  intro fault failed
  unfold text at failed
  split at failed
  · cases failed
  · split at failed
    · cases failed
    · exact ⟨_, (Except.error.inj failed).symm⟩

theorem isFormedText_textIn (d : Document) (format : Format) (isTypeChecked : Bool) :
    IsFormedText (d.textIn format isTypeChecked) := by
  intro fault failed
  unfold textIn at failed
  split at failed
  · exact ⟨_, (Except.error.inj failed).symm⟩
  · exact d.isFormedText_text fault failed

theorem textIn_eq_ok_iff {d : Document} {format : Format} {isTypeChecked : Bool} {t : Text} :
    d.textIn format isTypeChecked = .ok t ↔
      (isTypeChecked = true → MediaType.classify d.mimeType = format.bodyType) ∧ d.text = .ok t := by
  unfold textIn
  cases isTypeChecked with
  | false => simp
  | true =>
      by_cases same : MediaType.classify d.mimeType = format.bodyType
      · simp [same]
      · simp [same]

end Document

/-! ## What a text holds -/

/-- The text of a body or a document is there, and is read as something. -/
def Holds (read : Text → Except ε α) (text : Except Fault Text) (a : α) : Prop :=
  ∃ t, text = .ok t ∧ read t = .ok a

section

variable {read : Text → Except ε α} {a : α}

/-- A text holds one thing only. -/
theorem Holds.eq {text : Except Fault Text} {b : α} (first : Holds read text a)
    (second : Holds read text b) : a = b := by
  rcases first with ⟨t, isText, found⟩
  rcases second with ⟨s, isTextToo, foundToo⟩
  obtain rfl : t = s := Except.ok.inj (isText.symm.trans isTextToo)
  exact Except.ok.inj (found.symm.trans foundToo)

theorem Response.holds_textIn_iff {r : Response} {format : Format} :
    Holds read (r.textIn format) a ↔ r.type = format.bodyType ∧ Holds read r.text a := by
  simp only [Holds, textIn_eq_ok_iff, and_assoc, exists_and_left]

theorem Document.holds_textIn_iff {d : Document} {format : Format} {isTypeChecked : Bool} :
    Holds read (d.textIn format isTypeChecked) a ↔
      (isTypeChecked = true → MediaType.classify d.mimeType = format.bodyType) ∧
        Holds read d.text a := by
  simp only [Holds, textIn_eq_ok_iff, and_assoc, exists_and_left]

variable {parse : Text → Run α} {text : Except Fault Text}

/-- Reading a text returns what the text holds. -/
theorem Run.result_reading_eq_ok_iff
    (parses : ∀ t, (parse t).result = .ok a ↔ read t = .ok a) :
    (ofExcept text >>= parse).result = .ok a ↔ Holds read text a := by
  rw [result_bind, result_ofExcept]
  constructor
  · intro returned
    rcases exists_of_bind_eq_ok returned with ⟨t, isText, parsed⟩
    exact ⟨t, isText, (parses t).mp parsed⟩
  · rintro ⟨t, rfl, found⟩
    exact (parses t).mpr found

/-- Reading a text needs nothing but that the text holds something. -/
theorem Run.returnsIff_reading (formed : IsFormedText text)
    (parses : ∀ t, text = .ok t → (parse t).ReturnsIff (∃ a, read t = .ok a)) :
    (ofExcept text >>= parse).ReturnsIff (∃ a, Holds read text a) := by
  refine ((returnsIff_ofExcept formed).bind parses).congr ?_
  constructor
  · rintro ⟨t, isText, a, found⟩
    exact ⟨a, t, isText, found⟩
  · rintro ⟨a, t, isText, found⟩
    exact ⟨t, isText, a, found⟩

/-- Converting a text needs that the text holds something, and that this can be converted. -/
theorem Run.returnsIff_converting {convert : α → Run β} {fits : α → Prop}
    (formed : IsFormedText text)
    (parses : ∀ t, text = .ok t → (parse t).ReturnsIff (∃ a, read t = .ok a))
    (same : ∀ t a, (parse t).result = .ok a ↔ read t = .ok a)
    (converts : ∀ a, Holds read text a → (convert a).ReturnsIff (fits a)) :
    (ofExcept text >>= fun t => parse t >>= convert).ReturnsIff
      (∃ a, Holds read text a ∧ fits a) := by
  have run := (returnsIff_ofExcept formed).bind fun t isText =>
    (parses t isText).bind fun a parsed => converts a ⟨t, isText, (same t a).mp parsed⟩
  refine run.congr ?_
  constructor
  · rintro ⟨t, isText, a, parsed, fit⟩
    exact ⟨a, ⟨t, isText, (same t a).mp parsed⟩, fit⟩
  · rintro ⟨a, ⟨t, isText, found⟩, fit⟩
    exact ⟨t, isText, a, (same t a).mpr found, fit⟩

end

/-! ## JSON -/

namespace Json

variable [Limits]

/-- A value that is held by a text is a reading. -/
theorem isReading_of_holds {text : Except Fault Text} {v : Value} (h : Holds read text v) :
    IsReading v := by
  rcases h with ⟨t, -, found⟩
  exact isReading_read found

theorem returnsIff_parse {t : Text} (shallow : nesting t ≤ Limits.values t) :
    (parse t).ReturnsIff (∃ v, read t = .ok v) where
  returns := exists_congr fun _ => result_parse_eq_ok_iff
  refuses := by
    intro fault failed
    rw [result_parse] at failed
    cases found : read t with
    | ok v =>
        rw [found] at failed
        cases failed
    | error refusal =>
        rw [found] at failed
        cases refusal with
        | malformed cause => exact ⟨_, (Except.error.inj failed).symm⟩
        | tooDeep container => exact absurd (lt_nesting_of_read found) (Nat.not_lt_of_le shallow)

theorem result_ofResponse_eq_ok_iff {r : Response} {v : Value} :
    (ofResponse r).result = .ok v ↔ r.type = .json ∧ Holds read r.text v :=
  (Run.result_reading_eq_ok_iff fun _ => result_parse_eq_ok_iff).trans Response.holds_textIn_iff

theorem returnsIff_ofResponse {r : Response} (shallow : IsShallow (r.textIn .json)) :
    (ofResponse r).ReturnsIff (r.type = .json ∧ ∃ v, Holds read r.text v) := by
  have reading := Run.returnsIff_reading (r.isFormedText_textIn .json) fun t isText =>
    returnsIff_parse (shallow t isText)
  refine (reading.timed .valueOfResponse).congr ?_
  simp only [Response.holds_textIn_iff, exists_and_left]
  rfl

end Json

/-- A response of the type of JSON. -/
def Response.ofJson (body : Text) : Response :=
  (blank.withHeaders [("Content-Type", MediaType.json)]).setBody (.text body)

end DocumentGateway
