import DocumentGateway.Proofs.Number.Rounding
import DocumentGateway.Proofs.Response.ErrorReadout
import DocumentGateway.Proofs.Response.Formed
import DocumentGateway.Proofs.Store.Filling

namespace DocumentGateway

/-!
# The number of a name

The number of a name is that of the first aggregate with the name, and no other aggregate is looked
at.  It is refused for the state of the response, for want of a form, or because no aggregate has the
name; but an integer beyond the finite numbers is refused as too large, and an error with a message
that hides its items cannot be reported.
-/

/-! ## Which aggregates are listed -/

/-- A response lists its aggregates in one way. -/
theorem Response.Lists.eq [Limits] {r : Response} {aggregates others : List Aggregate}
    (first : r.Lists aggregates) (second : r.Lists others) : aggregates = others := by
  rcases first with ⟨t, body, isText, parsed, listed⟩
  rcases second with ⟨s, other, isTextToo, parsedToo, listedToo⟩
  obtain rfl : t = s := Except.ok.inj (isText.symm.trans isTextToo)
  obtain rfl : body = other := Except.ok.inj (parsed.symm.trans parsedToo)
  exact Except.ok.inj (listed.symm.trans listedToo)

/-- A response that lists aggregates is not nested too deeply. -/
theorem Response.Lists.isShallow [Limits] {r : Response} {aggregates : List Aggregate}
    (lists : r.Lists aggregates) : Json.IsShallow r.text := by
  rcases lists with ⟨t, body, isText, parsed, -⟩
  exact Json.isShallow_of_read isText parsed

namespace Aggregate

section

variable [Limits] {r : Response} (success : r.requireSuccess.result = .ok ())

include success

theorem returnsIff_ofResponse (shallow : Json.IsShallow r.text) :
    (ofResponse r).ReturnsIff (∃ aggregates, r.Lists aggregates) := by
  have gate : r.requireSuccess.ReturnsIff True := .of_ok success trivial
  have body := Run.returnsIff_converting r.isFormedText_text 
    (fun t isText => Json.returnsIff_parse (shallow t isText))
    (fun _ _ => Json.result_parse_eq_ok_iff)
    fun body _ => Run.returnsIff_ofExcept_mapError (ofBody body)
  refine (gate.bind fun _ _ => body).congr ?_
  constructor
  · rintro ⟨-, -, body, ⟨t, isText, parsed⟩, aggregates, listed⟩
    exact ⟨aggregates, t, body, isText, parsed, listed⟩
  · rintro ⟨aggregates, t, body, isText, parsed, listed⟩
    exact ⟨(), success, body, ⟨t, isText, parsed⟩, aggregates, listed⟩

theorem result_ofResponse_of_lists {aggregates : List Aggregate} (lists : r.Lists aggregates) :
    (ofResponse r).result = .ok aggregates := by
  have shallow := lists.isShallow
  rcases (returnsIff_ofResponse success shallow).returns.mpr ⟨aggregates, lists⟩ with ⟨others, found⟩
  rw [found, (lists_of_result_ofResponse found).eq lists]

end

/-! ## The number of an aggregate -/

theorem number_of_overflow_le {a : Aggregate} {i : Int} (isInt : a.value = .int i)
    (large : Binary64.overflow ≤ i.natAbs) : a.number = .error .integerTooLarge := by
  rw [number, isInt]
  simp only [floatOfInt, (Binary64.ofInt?_eq_none_iff i).mpr large]
  rfl

/-- An aggregate has a number, or lacks the form of one, or is too large an integer. -/
theorem number_cases (a : Aggregate) :
    (∃ x, a.number = .ok x) ∨ (∃ cause, a.number = .error (.format cause)) ∨
      ∃ i, a.value = .int i ∧ Binary64.overflow ≤ i.natAbs := by
  rcases a with ⟨name, value⟩
  cases value with
  | int i =>
      cases found : Binary64.ofInt? i with
      | none => exact Or.inr (Or.inr ⟨i, rfl, (Binary64.ofInt?_eq_none_iff i).mp found⟩)
      | some x =>
          refine Or.inl ⟨x, ?_⟩
          simp only [number, floatOfInt, found]
          rfl
  | float x => exact Or.inl ⟨x, rfl⟩
  | ownNan object => exact Or.inl ⟨.nan, rfl⟩
  | text t =>
      cases spelled : readNumber? t with
      | some x => exact Or.inl ⟨x, by simp only [number, spelled]⟩
      | none => exact Or.inr (Or.inl ⟨.notNumeric name (.text t), by simp only [number, spelled]⟩)
  | _ => exact Or.inr (Or.inl ⟨_, rfl⟩)

end Aggregate

namespace Response

/-- With the aggregates known, the number of a name is that of the first one with the name. -/
theorem result_aggregateNumber [Limits] {r : Response} {aggregates : List Aggregate}
    (found : (Aggregate.ofResponse r).result = .ok aggregates) (name : Text) :
    (r.aggregateNumber name).result =
      (aggregates.find? (·.isNamed name)).elim (.error (.noSuchAggregate name)) (·.number) := by
  rw [aggregateNumber, Run.result_timed, Run.result_bind, found]
  simp only [Except.bind]
  cases aggregates.find? (·.isNamed name) <;> rfl

end Response

/-! ## Responses in error -/

/-- A message that hides no items is told. -/
theorem ErrorEnvelope.exists_message_json {envelope : Record}
    (reading : Json.IsReading (.record envelope))
    (shows : ∀ v, envelope.get? "message" = some v → v.hidesItems = false) :
    ∃ message, (json envelope).message.result = .ok message := by
  cases has : envelope.get? "message" with
  | none => exact ⟨_, message_json_of_get?_eq_none has⟩
  | some v =>
      by_cases isText : ∃ message, v = .text message
      · rcases isText with ⟨message, rfl⟩
        exact ⟨message, message_json_of_text has⟩
      · have plain := (reading.of_get? has).plain
        rcases Json.exists_write_eq_ok plain (shows v has) .compactAscii with ⟨written, isWritten⟩
        refine ⟨written, ?_⟩
        rw [message_json_of_ne_text has (not_exists.mp isText), isWritten]
        rfl

theorem ErrorEnvelope.result_find_of_element [Limits] {r : Response} {t : Text} {root : Xml.Element}
    (isText : r.text = .ok t) (isXml : r.type = .xml) (isElement : Xml.read t = .ok root) :
    (find r).result = .ok (ofElement? root) := by
  rw [result_find, result_read_xml isText isXml, Xml.result_parse_eq_ok_iff.mpr isElement]
  rfl

/-- A body with the root `error-response` carries it as its envelope. -/
theorem ErrorEnvelope.result_find_xml [Limits] {r : Response} {t : Text} {root : Xml.Element}
    (isText : r.text = .ok t) (isXml : r.type = .xml) (isElement : Xml.read t = .ok root)
    (isError : root.localName = "error-response".toList) :
    (find r).result = .ok (some (.xml root)) :=
  (result_find_of_element isText isXml isElement).trans (congrArg Except.ok (if_pos isError))

namespace Response

section

variable [Limits]

/-- A response with an error as JSON whose message is no text and has a field `items` in it. -/
def HidesMessage (r : Response) : Prop :=
  r.type ≠ .xml ∧ ∃ (t : Text) (fields envelope : Record) (v : Value), r.text = .ok t ∧
    Json.read t = .ok (.record fields) ∧ fields.get? "errorResponse" = some (.record envelope) ∧
    envelope.get? "message" = some v ∧ v.hidesItems = true

/-- A response without error of which the first aggregate of a name is an integer beyond the finite
numbers. -/
def HasLargeInteger (r : Response) (name : Text) : Prop :=
  ¬ r.CarriesError ∧ ∃ (aggregates : List Aggregate) (a : Aggregate) (i : Int),
    r.Lists aggregates ∧ aggregates.find? (·.isNamed name) = some a ∧ a.value = .int i ∧
      Binary64.overflow ≤ i.natAbs

/-- A response in error stops with the message, or with what stops the message. -/
theorem result_requireSuccess_of_some {r : Response} {envelope : ErrorEnvelope}
    (isFound : (ErrorEnvelope.find r).result = .ok (some envelope)) :
    r.requireSuccess.result = envelope.message.result.bind fun message => .error (.inError message) := by
  rw [requireSuccess, Run.result_bind, result_isInError isFound]
  change Run.result (r.errorMessage >>= fun message => Run.fail (.inError message)) = _
  rw [Run.result_bind, result_errorMessage isFound]
  rfl

theorem result_requireSuccess_of_hidesMessage {r : Response} (hides : r.HidesMessage) :
    ∃ kind, r.requireSuccess.result = .error (.serialization (.hiddenItems kind)) := by
  rcases hides with ⟨notXml, t, fields, envelope, v, isText, isObject, under, has, hides⟩
  have reading := ((Json.isReading_read isObject).of_get? under).of_get? has
  have noText : ∀ message, v ≠ .text message := by
    rintro message rfl
    cases hides
  rcases Json.exists_write_eq_error reading.plain hides .compactAscii with ⟨kind, failed⟩
  refine ⟨kind, ?_⟩
  rw [result_requireSuccess_of_some (ErrorEnvelope.result_find_json isText notXml isObject under),
    ErrorEnvelope.message_json_of_ne_text has noText, failed]
  rfl

theorem HidesMessage.carriesError {r : Response} (hides : r.HidesMessage) : r.CarriesError := by
  rcases hides with ⟨notXml, t, fields, envelope, -, isText, isObject, under, -⟩
  exact ⟨t, isText, Or.inr ⟨notXml, fields, envelope, isObject, under⟩⟩

/-- A response in error is refused for its state unless it hides its message. -/
theorem result_requireSuccess_of_carriesError {r : Response} (carries : r.CarriesError)
    (shows : ¬ r.HidesMessage) : ∃ message, r.requireSuccess.result = .error (.inError message) := by
  -- It is enough that the message can be told.
  have told : ∀ {envelope : ErrorEnvelope}, (ErrorEnvelope.find r).result = .ok (some envelope) →
      (∃ message, envelope.message.result = .ok message) →
      ∃ message, r.requireSuccess.result = .error (.inError message) := by
    rintro envelope isFound ⟨message, isMessage⟩
    refine ⟨message, ?_⟩
    rw [result_requireSuccess_of_some isFound, isMessage]
    rfl
  rcases carries with ⟨t, isText, ⟨isXml, root, isElement, isError⟩ |
    ⟨notXml, fields, envelope, isObject, under⟩⟩
  · refine told (ErrorEnvelope.result_find_xml isText isXml isElement isError) ?_
    rw [ErrorEnvelope.message]
    split
    · exact ⟨_, rfl⟩
    · exact ⟨_, rfl⟩
  · refine told (ErrorEnvelope.result_find_json isText notXml isObject under) ?_
    refine ErrorEnvelope.exists_message_json ((Json.isReading_read isObject).of_get? under) ?_
    refine fun v has => Bool.eq_false_iff.mpr fun hides => shows ?_
    exact ⟨notXml, t, fields, envelope, v, isText, isObject, under, has, hides⟩

theorem result_requireSuccess_of_not_carriesError {r : Response} (scalar : r.body.IsScalar)
    (shallow : Json.IsShallow r.text) (success : ¬ r.CarriesError) :
    r.requireSuccess.result = .ok () := by
  rcases ErrorEnvelope.result_find_cases r scalar with ⟨found, isFound, carries⟩ | ⟨_, -, deep⟩
  · refine (result_requireSuccess isFound).1 ?_
    exact Option.not_isSome_iff_eq_none.mp fun isSome => success (carries.mp isSome)
  · exact absurd (fun _ => shallow) deep

/-- What stops a response stops the number of a name. -/
theorem result_aggregateNumber_of_requireSuccess {r : Response} {fault : Fault}
    (refused : r.requireSuccess.result = .error fault) (name : Text) :
    (r.aggregateNumber name).result = .error fault :=
  (failures_of_requireSuccess refused name []).2.1

/-! ## Faults -/

/-- The number of a name is there, or it is refused for the state of the response, for want of a form
or because no aggregate has the name. -/
def TellsNumber (r : Response) (name : Text) : Prop :=
  (∃ x, (r.aggregateNumber name).result = .ok x) ∨
    ∃ fault, (r.aggregateNumber name).result = .error fault ∧
      (fault.IsOfState ∨ (∃ cause, fault = .format cause) ∨ fault = .noSuchAggregate name)

/-- Without error, only an integer that is too large keeps a number from being told. -/
theorem tellsNumber_of_not_carriesError {r : Response} (scalar : r.body.IsScalar)
    (shallow : Json.IsShallow r.text) (success : ¬ r.CarriesError) {name : Text}
    (small : ¬ r.HasLargeInteger name) : r.TellsNumber name := by
  have passed := result_requireSuccess_of_not_carriesError scalar shallow success
  cases found : (Aggregate.ofResponse r).result with
  | error fault =>
      have failed : (r.aggregateNumber name).result = .error fault := by
        rw [aggregateNumber, Run.result_timed, Run.result_bind, found]
        rfl
      have isFormat := (Aggregate.returnsIff_ofResponse passed shallow).refuses fault found
      exact Or.inr ⟨fault, failed, Or.inr (Or.inl isFormat)⟩
  | ok aggregates =>
      rw [TellsNumber, result_aggregateNumber found]
      cases isFirst : aggregates.find? (·.isNamed name) with
      | none => exact Or.inr ⟨_, rfl, Or.inr (Or.inr rfl)⟩
      | some a =>
          rcases a.number_cases with isNumber | ⟨cause, malformed⟩ | ⟨i, isInt, large⟩
          · exact Or.inl isNumber
          · exact Or.inr ⟨_, malformed, Or.inr (Or.inl ⟨cause, rfl⟩)⟩
          · have lists := Aggregate.lists_of_result_ofResponse found
            exact absurd ⟨success, aggregates, a, i, lists, isFirst, isInt, large⟩ small

/-- Whether there is a number for a name is told with two exceptions, where the body is not nested too
deeply.  An integer beyond the finite numbers is too large, and an error whose message hides its items
is stopped by the message. -/
theorem aggregateNumber_faults {r : Response} (scalar : r.body.IsScalar) (name : Text) :
    (r.HasLargeInteger name → (r.aggregateNumber name).result = .error .integerTooLarge) ∧
    (r.HidesMessage →
      ∃ kind, (r.aggregateNumber name).result = .error (.serialization (.hiddenItems kind))) ∧
    (Json.IsShallow r.text → ¬ r.HasLargeInteger name → ¬ r.HidesMessage → r.TellsNumber name) := by
  refine ⟨?_, fun hides => ?_, fun shallow small shows => ?_⟩
  · rintro ⟨success, aggregates, a, i, lists, isFirst, isInt, large⟩
    have passed := result_requireSuccess_of_not_carriesError scalar lists.isShallow success
    rw [result_aggregateNumber (Aggregate.result_ofResponse_of_lists passed lists), isFirst]
    exact Aggregate.number_of_overflow_le isInt large
  · rcases result_requireSuccess_of_hidesMessage hides with ⟨kind, refused⟩
    exact ⟨kind, result_aggregateNumber_of_requireSuccess refused name⟩
  · by_cases carries : r.CarriesError
    · rcases result_requireSuccess_of_carriesError carries shows with ⟨message, refused⟩
      exact Or.inr ⟨_, result_aggregateNumber_of_requireSuccess refused name, Or.inl trivial⟩
    · exact tellsNumber_of_not_carriesError scalar shallow carries small

end

/-- A body with one aggregate, an integer that is spelled by digits. -/
def sumBody (digits : List Char) : Text :=
  Text.ofChars ("\x7b\"sum\": ".toList ++ digits ++ ['\x7d'])

/-- Whether a value is an object with one aggregate, and this is an integer. -/
def isSum (i : Int) : Value → Bool
  | .record [(.text name, .int own)] => name = Text.ofString "sum" && own = i
  | _ => false

theorem read_of_isSum [Limits] {t : Text} {i : Int} (h : (Json.read t).toOption.any (isSum i) = true) :
    Json.read t = .ok (.record [(.text "sum", .int i)]) := by
  cases found : Json.read t with
  | error fault =>
      rw [found] at h
      cases h
  | ok v =>
      rw [found] at h
      change isSum i v = true at h
      unfold isSum at h
      split at h
      · simp only [Bool.and_eq_true, decide_eq_true_eq] at h
        rw [h.1, h.2]
      · cases h

section

variable [Limits] {digits : List Char} {i : Int}
  (parsed : Json.read (sumBody digits) = .ok (.record [(.text "sum", .int i)]))

include parsed

theorem not_carriesError_of_read_sumBody : ¬ (ofJson (sumBody digits)).CarriesError := by
  rintro ⟨t, isText, ⟨isXml, -⟩ | ⟨-, fields, inner, isObject, under⟩⟩
  · cases isXml
  · cases isText
    cases isObject.symm.trans parsed
    cases under

theorem lists_of_read_sumBody :
    (ofJson (sumBody digits)).Lists [⟨.text "sum", .int i⟩] :=
  ⟨_, _, rfl, parsed, rfl⟩

theorem hasLargeInteger_of_read_sumBody :
    (ofJson (sumBody digits)).HasLargeInteger "sum" ↔ Binary64.overflow ≤ i.natAbs := by
  constructor
  · rintro ⟨-, aggregates, a, large, lists, isFirst, isInt, beyond⟩
    cases lists.eq (lists_of_read_sumBody parsed)
    cases isFirst
    cases isInt
    exact beyond
  · intro beyond
    exact ⟨not_carriesError_of_read_sumBody parsed, _, _, i, lists_of_read_sumBody parsed, rfl, rfl,
      beyond⟩

end

section

open scoped Limits

/-- An integer of three hundred and ten digits. -/
def largeSum : Response :=
  ofJson (sumBody ('1' :: List.replicate 309 '0'))

theorem read_largeSum : Json.read (sumBody ('1' :: List.replicate 309 '0')) =
    .ok (.record [(.text "sum", .int (10 ^ 309))]) :=
  read_of_isSum (by decide +kernel)

/-- The integer is too large, and a small one is not. -/
theorem aggregateNumber_faults_sum :
    (largeSum.body.IsScalar ∧ largeSum.HasLargeInteger "sum" ∧
      (largeSum.aggregateNumber "sum").result = .error .integerTooLarge) ∧
    (ofJson (sumBody ['1'])).body.IsScalar ∧ (ofJson (sumBody ['1'])).TellsNumber "sum" := by
  have large : largeSum.HasLargeInteger "sum" :=
    (hasLargeInteger_of_read_sumBody read_largeSum).mpr (by decide +kernel)
  have small : Json.read (sumBody ['1']) = .ok (.record [(.text "sum", .int 1)]) :=
    read_of_isSum (by decide +kernel)
  have scalarLarge : largeSum.body.IsScalar := ⟨_, rfl⟩
  have scalar : (ofJson (sumBody ['1'])).body.IsScalar := ⟨_, rfl⟩
  refine ⟨⟨scalarLarge, large, (aggregateNumber_faults scalarLarge "sum").1 large⟩, scalar, ?_⟩
  have shallow : Json.IsShallow (ofJson (sumBody ['1'])).text := Json.isShallow_of_read rfl small
  refine (aggregateNumber_faults scalar "sum").2.2 shallow (fun isLarge => ?_) fun hides => ?_
  · have beyond := (hasLargeInteger_of_read_sumBody small).mp isLarge
    revert beyond
    decide +kernel
  · exact not_carriesError_of_read_sumBody small hides.carriesError

/-- Not every number of a name is told. -/
theorem not_tellsNumber : ¬ ∀ (r : Response) (name : Text), r.body.IsScalar → r.TellsNumber name := by
  intro tells
  have isTooLarge : (match (largeSum.aggregateNumber "sum").result with
      | .error .integerTooLarge => true
      | _ => false) = true := by decide +kernel
  rcases tells largeSum "sum" ⟨_, rfl⟩ with ⟨x, returned⟩ | ⟨fault, failed, kind⟩
  · rw [returned] at isTooLarge
    cases isTooLarge
  · rw [failed] at isTooLarge
    obtain rfl : fault = .integerTooLarge := by
      cases fault <;> first | rfl | cases isTooLarge
    rcases kind with ofState | ⟨cause, same⟩ | same
    · exact ofState
    · cases same
    · cases same

end

end Response
end DocumentGateway
