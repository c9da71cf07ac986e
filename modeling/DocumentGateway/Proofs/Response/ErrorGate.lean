import DocumentGateway.Aggregate
import DocumentGateway.Proofs.Json.Acceptance
import DocumentGateway.Proofs.Peeling
import DocumentGateway.Proofs.Xml.ScalarText
import DocumentGateway.Suggestion

namespace DocumentGateway

/-!
# One test for errors

Whether a response carries an error is decided by its type and its body alone.  Everything that
depends on it agrees on the answer: what only makes sense for an error fails on a response without
one, what only makes sense otherwise fails on a response with one, and a response that is in the
right state is never refused for its state.

There is one thing that the test does not survive, a body that is read as JSON and nested too deeply:
reading it runs out of room, and so does everything that depends on the test.
-/

/-- A fault that says that a response is in the wrong state: in error, or not in error. -/
def Fault.IsOfState : Fault → Prop
  | notInError => True
  | inError _ => True
  | _ => False

/-- A run that is not refused for the state of a response. -/
def Run.IsAdmitted (run : Run α) : Prop :=
  ∀ fault, run.result = .error fault → ¬ fault.IsOfState

/-- A body without surrogates. -/
def Body.IsScalar : Body → Prop
  | .text t => ∃ chars, t = Text.ofChars chars
  | .octets _ => True

namespace Response

section

variable [Limits]

/-- There is room for looking for an error in a body: it is an XML body, or one that is not nested
too deeply. -/
def IsShallow (r : Response) : Prop :=
  r.type ≠ .xml → Json.IsShallow r.text

/-- A response carries an error when its body can be read and is an envelope: an element
`error-response` in a body of the type of XML, and in any other body an object that has another
object under `errorResponse`. -/
def CarriesError (r : Response) : Prop :=
  ∃ t, r.text = .ok t ∧
    ((r.type = .xml ∧ ∃ root, Xml.read t = .ok root ∧ root.localName = "error-response".toList) ∨
      (r.type ≠ .xml ∧ ∃ fields inner : Record, Json.read t = .ok (.record fields) ∧
        fields.get? "errorResponse" = some (.record inner)))

end

/-- The text of a body without surrogates has none. -/
theorem text_eq (r : Response) (scalar : r.body.IsScalar) :
    (∃ chars, r.text = .ok (Text.ofChars chars)) ∨ ∃ fault, r.text = .error (.format fault) := by
  unfold text
  split
  · next t isText =>
      rw [isText] at scalar
      rcases scalar with ⟨chars, same⟩
      exact Or.inl ⟨chars, by rw [same]⟩
  · split
    · next chars _ => exact Or.inl ⟨chars, rfl⟩
    · exact Or.inr ⟨_, rfl⟩

end Response

/-! ## Envelopes -/

namespace ErrorEnvelope

theorem isSome_ofElement? (root : Xml.Element) :
    (ofElement? root).isSome = true ↔ root.localName = "error-response".toList := by
  unfold ofElement?
  split
  · next same => exact ⟨fun _ => same, fun _ => rfl⟩
  · next other => exact ⟨fun carries => absurd carries (by simp), fun same => absurd same other⟩

/-- An object in an object is an envelope. -/
theorem ofValue?_of_get? {fields : Record} {v : Value}
    (under : fields.get? "errorResponse" = some v) :
    ofValue? (.record fields) = v.fields?.map json := by
  simp only [ofValue?, Value.fields?, Option.bind_eq_bind, Option.bind_some, under]
  cases v <;> rfl

theorem ofValue?_record {fields inner : Record}
    (under : fields.get? "errorResponse" = some (.record inner)) :
    ofValue? (.record fields) = some (.json inner) :=
  ofValue?_of_get? under

/-- Among values that are read, an envelope is an object in an object. -/
theorem isSome_ofValue? {v : Value} (reading : Json.IsReading v) :
    (ofValue? v).isSome = true ↔
      ∃ fields inner : Record, v = .record fields ∧ fields.get? "errorResponse" = some (.record inner) := by
  constructor
  · intro carries
    rcases Option.isSome_iff_exists.mp carries with ⟨envelope, found⟩
    rcases Option.bind_eq_some_iff.mp found with ⟨fields, has, found⟩
    rcases Option.bind_eq_some_iff.mp found with ⟨value, under, found⟩
    rcases Option.bind_eq_some_iff.mp found with ⟨inner, hasInner, -⟩
    obtain rfl : v = .record fields := (reading.eq_record has).1
    refine ⟨fields, inner, rfl, ?_⟩
    rw [under, ((reading.of_get? under).eq_record hasInner).1]
  · rintro ⟨fields, inner, rfl, under⟩
    rw [ofValue?_record under]
    rfl

section

variable [Limits]

theorem result_find (r : Response) :
    (find r).result =
      match (read r).result with
      | .ok found => .ok found
      | .error (.format _) => .ok none
      | .error fault => .error fault := by
  rw [find, Run.result_bind, Run.result_whenFormed]
  cases (read r).result with
  | ok found => cases found <;> rfl
  | error fault => cases fault <;> rfl

/-- A body of the type of XML is checked for an element. -/
theorem result_read_xml {r : Response} {t : Text} (isText : r.text = .ok t) (isXml : r.type = .xml) :
    (read r).result = (Xml.parse t).result.bind fun root => .ok (ofElement? root) := by
  rw [read, isText, Run.result_bind, Run.result_ofExcept]
  change Run.result (if r.type = .xml then _ else _) = _
  rw [if_pos isXml, Run.result_bind]
  rfl

/-- A body of any type but that of XML is tried as JSON. -/
theorem result_read_json {r : Response} {t : Text} (isText : r.text = .ok t) (notXml : r.type ≠ .xml) :
    (read r).result = (Json.parse t).result.bind fun v => .ok (ofValue? v) := by
  rw [read, isText, Run.result_bind, Run.result_ofExcept]
  change Run.result (if r.type = .xml then _ else _) = _
  rw [if_neg notXml, Run.result_bind]
  rfl

theorem exists_result_find_xml {r : Response} {chars : List Char}
    (isText : r.text = .ok (Text.ofChars chars)) (isXml : r.type = .xml) :
    ∃ found : Option ErrorEnvelope, (find r).result = .ok found ∧
      (found.isSome = true ↔ r.CarriesError) := by
  have carries : r.CarriesError ↔ ∃ root, Xml.read (Text.ofChars chars) = .ok root ∧
      root.localName = "error-response".toList := by
    simp [Response.CarriesError, isText, isXml]
  rw [result_find, result_read_xml isText isXml]
  rcases Xml.result_parse_ofChars chars with ⟨root, found, parsed⟩ | ⟨_, _, _, _, found, parsed⟩
  · refine ⟨ofElement? root, by rw [parsed]; rfl, ?_⟩
    rw [carries, found, isSome_ofElement?]
    simp
  · refine ⟨none, by rw [parsed]; rfl, ?_⟩
    rw [carries, found]
    simp

/-- A body of any other type either tells whether there is an error, or is nested too deeply. -/
theorem exists_result_find_json {r : Response} {t : Text} (isText : r.text = .ok t)
    (notXml : r.type ≠ .xml) :
    (∃ found : Option ErrorEnvelope, (find r).result = .ok found ∧
      (found.isSome = true ↔ r.CarriesError)) ∨
    ∃ container, (find r).result = .error (.tooDeep container) ∧ ¬ r.IsShallow := by
  have carries : r.CarriesError ↔ ∃ fields inner : Record, Json.read t = .ok (.record fields) ∧
      fields.get? "errorResponse" = some (.record inner) := by
    simp [Response.CarriesError, isText, notXml]
  rw [result_find, result_read_json isText notXml, Json.result_parse]
  cases found : Json.read t with
  | ok v =>
      refine Or.inl ⟨ofValue? v, rfl, ?_⟩
      rw [carries, found, isSome_ofValue? (Json.isReading_read found)]
      simp
  | error refusal =>
      cases refusal with
      | malformed fault =>
          refine Or.inl ⟨none, rfl, ?_⟩
          rw [carries, found]
          simp
      | tooDeep container =>
          refine Or.inr ⟨container, rfl, fun shallow => ?_⟩
          exact Nat.not_lt_of_le (shallow notXml t isText) (Json.lt_nesting_of_read found)

/-- Whether a response carries an error is found out, or else its body is nested too deeply. -/
theorem result_find_cases (r : Response) (scalar : r.body.IsScalar) :
    (∃ found : Option ErrorEnvelope, (find r).result = .ok found ∧
      (found.isSome = true ↔ r.CarriesError)) ∨
    ∃ container, (find r).result = .error (.tooDeep container) ∧ ¬ r.IsShallow := by
  rcases r.text_eq scalar with ⟨chars, isText⟩ | ⟨fault, noText⟩
  · by_cases isXml : r.type = .xml
    · exact Or.inl (exists_result_find_xml isText isXml)
    · exact exists_result_find_json isText isXml
  · have result : (read r).result = .error (.format fault) := by
      rw [read, noText]
      rfl
    refine Or.inl ⟨none, by rw [result_find, result], ?_⟩
    simp [Response.CarriesError, noText]

theorem result_require (r : Response) {found : Option ErrorEnvelope}
    (isFound : (find r).result = .ok found) :
    (require r).result = found.elim (.error .notInError) .ok := by
  rw [require, Run.result_bind, isFound]
  cases found <;> rfl

end

end ErrorEnvelope

/-! ## Admitted runs -/

namespace Run

theorem IsAdmitted.bind {run : Run α} {next : α → Run β} (h : run.IsAdmitted)
    (following : ∀ a, run.result = .ok a → (next a).IsAdmitted) : (run >>= next).IsAdmitted := by
  intro fault failed
  rw [result_bind] at failed
  cases found : run.result with
  | ok a =>
      rw [found] at failed
      exact following a found fault failed
  | error first =>
      rw [found] at failed
      exact Except.error.inj failed ▸ h first found

theorem isAdmitted_pure (a : α) : (pure a : Run α).IsAdmitted :=
  fun _ failed => absurd failed (by simp)

theorem isAdmitted_ofExcept_mapError {ε : Type} {result : Except ε α} {f : ε → Fault}
    (h : ∀ e, ¬ (f e).IsOfState) : (ofExcept (result.mapError f)).IsAdmitted := by
  intro fault failed
  cases result with
  | ok a => exact absurd failed (by simp [Except.mapError])
  | error e => exact Except.error.inj failed ▸ h e

end Run

theorem Xml.isAdmitted_parse (t : Text) : (Xml.parse t).IsAdmitted := by
  unfold Xml.parse
  intro fault failed
  split at failed <;> cases failed <;> exact id

theorem Json.isAdmitted_parse [Limits] (t : Text) : (Json.parse t).IsAdmitted := by
  intro fault failed
  rw [Json.result_parse] at failed
  cases found : Json.read t with
  | ok v =>
      rw [found] at failed
      cases failed
  | error refusal =>
      rw [found] at failed
      cases refusal <;> cases failed <;> exact id

theorem Response.isAdmitted_text (r : Response) : (Run.ofExcept r.text).IsAdmitted := by
  intro fault failed
  rw [Run.result_ofExcept, text] at failed
  split at failed
  · exact absurd failed (by simp)
  · split at failed <;> cases failed
    exact id

namespace ErrorEnvelope

theorem isAdmitted_message (envelope : ErrorEnvelope) : envelope.message.IsAdmitted := by
  unfold message
  split
  · split <;> exact Run.isAdmitted_pure _
  · split
    · exact Run.isAdmitted_pure _
    · exact Run.isAdmitted_pure _
    · exact Run.isAdmitted_ofExcept_mapError fun _ => id

theorem isAdmitted_detail (r : Response) (envelope : ErrorEnvelope) :
    (envelope.detail r).IsAdmitted := by
  cases envelope with
  | xml root => exact r.isAdmitted_text.bind fun _ _ => Run.isAdmitted_pure _
  | json fields => exact Run.isAdmitted_ofExcept_mapError fun _ => id

end ErrorEnvelope

theorem Suggestion.isAdmitted_ofBody [Limits] (r : Response) : (Suggestion.ofBody r).IsAdmitted := by
  apply r.isAdmitted_text.bind
  intro t _
  split
  · exact Run.isAdmitted_pure _
  · split
    · exact (Xml.isAdmitted_parse t).bind fun _ _ => Run.isAdmitted_pure _
    · exact (Json.isAdmitted_parse t).bind fun _ _ =>
        Run.isAdmitted_ofExcept_mapError fun _ => id

/-! ## The gate -/

namespace Response

section

variable [Limits] {r : Response} {found : Option ErrorEnvelope}
  (isFound : (ErrorEnvelope.find r).result = .ok found)

include isFound

theorem result_isInError : r.isInError.result = .ok found.isSome := by
  rw [isInError, Run.result_timed, Run.result_bind, isFound]
  rfl

theorem result_errorMessage :
    r.errorMessage.result = found.elim (.error .notInError) fun e => e.message.result := by
  rw [errorMessage, Run.result_timed, Run.result_bind, ErrorEnvelope.result_require r isFound]
  cases found <;> rfl

theorem result_errorDetail :
    r.errorDetail.result = found.elim (.error .notInError) fun e => (e.detail r).result := by
  rw [errorDetail, Run.result_timed, Run.result_bind, ErrorEnvelope.result_require r isFound]
  cases found <;> rfl

theorem result_outcome :
    r.outcome.result =
      .ok (if found.isSome then .applicationError
        else if r.status.isError then .transportError else .success) := by
  rw [outcome, Run.result_bind, result_isInError isFound]
  cases found with
  | some envelope => rfl
  | none => cases r.status.isError <;> rfl

/-- Going on needs that there is no error. -/
theorem result_requireSuccess :
    (found = none → r.requireSuccess.result = .ok ()) ∧
      (found.isSome = true → ∃ fault, r.requireSuccess.result = .error fault) := by
  rw [requireSuccess, Run.result_bind, result_isInError isFound]
  cases found with
  | none => exact ⟨fun _ => rfl, fun carries => absurd carries (by simp)⟩
  | some envelope =>
      refine ⟨fun none => absurd none (by simp), fun _ => ?_⟩
      change ∃ fault, Run.result (r.errorMessage >>= fun message => Run.fail (.inError message)) =
        .error fault
      rw [Run.result_bind]
      cases r.errorMessage.result with
      | ok message => exact ⟨.inError message, rfl⟩
      | error fault => exact ⟨fault, rfl⟩

theorem isAdmitted_requireSuccess (success : found = none) : r.requireSuccess.IsAdmitted := by
  intro fault failed
  rw [(result_requireSuccess isFound).1 success] at failed
  exact absurd failed (by simp)

end

/-! ## What a response without error admits -/

theorem isAdmitted_ofResponse [Limits] {r : Response} (success : r.requireSuccess.IsAdmitted) :
    (Aggregate.ofResponse r).IsAdmitted := by
  apply success.bind
  intro _ _
  apply r.isAdmitted_text.bind
  intro t _
  apply (Json.isAdmitted_parse t).bind
  intro body _
  exact Run.isAdmitted_ofExcept_mapError fun _ => id

theorem isAdmitted_floatOfInt (i : Int) : (Run.ofExcept (Aggregate.floatOfInt i)).IsAdmitted := by
  intro fault failed
  rw [Run.result_ofExcept, Aggregate.floatOfInt] at failed
  generalize Binary64.ofInt? i = found at failed
  cases found with
  | some x => exact absurd failed (by simp)
  | none => exact Except.error.inj failed ▸ id

theorem isAdmitted_number (a : Aggregate) : (Run.ofExcept a.number).IsAdmitted := by
  intro fault failed
  rcases a with ⟨name, value⟩
  rw [Run.result_ofExcept] at failed
  cases value with
  | int i => exact isAdmitted_floatOfInt i fault failed
  | float x => exact absurd failed (by simp [Aggregate.number])
  | ownNan _ => exact absurd failed (by simp [Aggregate.number])
  | text t =>
      rw [Aggregate.number] at failed
      cases found : readNumber? t with
      | some x => exact absurd failed (by simp [found])
      | none =>
          simp only [found, Except.error.injEq] at failed
          exact failed ▸ id
  | _ =>
      simp only [Aggregate.number, Except.error.injEq] at failed
      exact failed ▸ id

theorem isAdmitted_collected (v : Value) : (Run.ofExcept (Aggregate.collected v)).IsAdmitted := by
  intro fault failed
  rw [Run.result_ofExcept] at failed
  cases v with
  | int i =>
      cases found : Aggregate.floatOfInt i with
      | ok x =>
          rw [Aggregate.collected, found] at failed
          exact absurd failed (by simp [bind, Except.bind, pure, Except.pure])
      | error first =>
          rw [Aggregate.collected, found] at failed
          exact Except.error.inj failed ▸ isAdmitted_floatOfInt i first found
  | text t =>
      rw [Aggregate.collected] at failed
      generalize readNumber? t = found at failed
      cases found <;> exact absurd failed (by simp)
  | _ => exact absurd failed (by simp [Aggregate.collected])

theorem isAdmitted_numbers (aggregates : List Aggregate) :
    (Run.ofExcept (aggregates.mapM fun a => do return (a.name, ← a.number))).IsAdmitted := by
  induction aggregates with
  | nil => exact Run.isAdmitted_pure []
  | cons a rest ih =>
      intro fault failed
      rw [Run.result_ofExcept, List.mapM_cons] at failed
      cases found : a.number with
      | error first =>
          rw [found] at failed
          exact Except.error.inj failed ▸ isAdmitted_number a first found
      | ok x =>
          rw [found] at failed
          cases others : rest.mapM fun a => do return (a.name, ← a.number) with
          | error first =>
              rw [others] at failed
              exact Except.error.inj failed ▸ ih first others
          | ok numbers =>
              rw [others] at failed
              exact absurd failed (by simp [bind, Except.bind, pure, Except.pure])

/-! ## Filling stores -/

theorem isAdmitted_add (store : ValueStore) (name value : Value) :
    (Run.ofExcept (store.add name value)).IsAdmitted := by
  intro fault failed
  rw [Run.result_ofExcept, ValueStore.add, ValueStore.keyOf] at failed
  cases found : name.asKey with
  | ok key =>
      rw [found] at failed
      exact absurd failed (by simp [Except.mapError, bind, Except.bind, pure, Except.pure])
  | error kind =>
      rw [found] at failed
      exact Except.error.inj failed ▸ id

/-- Adding values is not refused for a state when none of the values is a fault of state. -/
theorem isAdmitted_addAll (store : ValueStore) (known : List (Value × Except Fault Value))
    (values : ∀ named ∈ known, (Run.ofExcept named.2).IsAdmitted) :
    (Run.ofExcept (Filling.addAll store known).result).IsAdmitted := by
  induction known generalizing store with
  | nil => exact Run.isAdmitted_pure ()
  | cons named rest ih =>
      rcases named with ⟨name, value⟩
      rw [Filling.addAll]
      cases added : value.bind (store.add name) with
      | ok more => exact ih more fun other member => values other (List.mem_cons_of_mem _ member)
      | error first =>
          intro fault failed
          have same : first = fault := Except.error.inj failed
          rw [← same]
          cases value with
          | error cause =>
              exact Except.error.inj added ▸ values (name, .error cause) List.mem_cons_self cause rfl
          | ok v => exact isAdmitted_add store name v first added

theorem isAdmitted_fill (store : ValueStore) (operation : Operation)
    {values : Run (List (Value × Except Fault Value))} (admitted : values.IsAdmitted)
    (each : ∀ known, values.result = .ok known → ∀ named ∈ known,
      (Run.ofExcept named.2).IsAdmitted) :
    (store.fill operation values).run.IsAdmitted := by
  intro fault failed
  unfold ValueStore.fill at failed
  split at failed
  · next first found =>
      have same : first = fault := Except.error.inj failed
      exact admitted fault (same ▸ found)
  · next known found => exact isAdmitted_addAll store known (each known found) fault failed

/-- When the values do not come to be known, nothing is added. -/
theorem fill_of_error (store : ValueStore) (operation : Operation)
    {values : Run (List (Value × Except Fault Value))} {fault : Fault}
    (failed : values.result = .error fault) :
    (store.fill operation values).store = store ∧
      (store.fill operation values).run.result = .error fault := by
  unfold ValueStore.fill
  split
  · next first found =>
      have same : first = fault := Except.error.inj (found.symm.trans failed)
      exact ⟨rfl, congrArg Except.error same⟩
  · next known found => exact absurd (found.symm.trans failed) (by simp)

theorem isAdmitted_contributions (a : Aggregate) :
    ∀ named ∈ a.contributions, (Run.ofExcept named.2).IsAdmitted := by
  intro named member
  unfold Aggregate.contributions at member
  split at member
  · rcases List.mem_map.mp member with ⟨item, -, same⟩
    exact same ▸ isAdmitted_collected item
  · exact List.mem_singleton.mp member ▸ isAdmitted_collected _

section

variable [Limits]

/-- What is not refused for being in error is not refused for its state by the other three either. -/
theorem isAdmitted_of_requireSuccess {r : Response} (success : r.requireSuccess.IsAdmitted)
    (name : Text) (store : ValueStore) :
    r.suggestions.IsAdmitted ∧ (r.aggregateNumber name).IsAdmitted ∧
      (store.addNumbers r).run.IsAdmitted ∧ (store.addContributions r).run.IsAdmitted := by
  have aggregates := isAdmitted_ofResponse success
  refine ⟨?_, ?_, ?_, ?_⟩
  · exact success.bind fun _ _ => Suggestion.isAdmitted_ofBody r
  · apply aggregates.bind
    intro all _
    split
    · exact isAdmitted_number _
    · exact fun fault failed => Except.error.inj failed ▸ id
  · refine isAdmitted_fill store _ ?_ ?_
    · refine Run.IsAdmitted.bind ?_ fun numbers _ => Run.isAdmitted_pure _
      exact aggregates.bind fun all _ => isAdmitted_numbers all
    · intro known found named member
      rw [Run.result_bind] at found
      rcases exists_of_bind_eq_ok found with ⟨numbers, -, same⟩
      cases same
      rcases List.mem_map.mp member with ⟨number, -, isNumber⟩
      exact isNumber ▸ Run.isAdmitted_pure _
  · apply isAdmitted_fill store _ (aggregates.bind fun all _ => Run.isAdmitted_pure _)
    intro known found named member
    rw [Run.result_bind] at found
    rcases exists_of_bind_eq_ok found with ⟨all, -, same⟩
    cases same
    rcases List.mem_flatMap.mp member with ⟨a, -, contributed⟩
    exact isAdmitted_contributions a named contributed

/-- Where going on is refused, all four fail, and stores stay as they are. -/
theorem failures_of_requireSuccess {r : Response} {fault : Fault}
    (refused : r.requireSuccess.result = .error fault) (name : Text) (store : ValueStore) :
    r.suggestions.result = .error fault ∧ (r.aggregateNumber name).result = .error fault ∧
      ((store.addNumbers r).store = store ∧ (store.addNumbers r).run.result = .error fault) ∧
      ((store.addContributions r).store = store ∧
        (store.addContributions r).run.result = .error fault) := by
  have aggregates : (Aggregate.ofResponse r).result = .error fault := by
    rw [Aggregate.ofResponse, Run.result_bind, refused]
    rfl
  refine ⟨?_, ?_, fill_of_error store _ ?_, fill_of_error store _ ?_⟩
  · rw [suggestions, Run.result_timed, Run.result_bind, refused]
    rfl
  · rw [aggregateNumber, Run.result_timed, Run.result_bind, aggregates]
    rfl
  · rw [Run.result_bind, aggregateNumbers, Run.result_bind, aggregates]
    rfl
  · rw [Run.result_bind, aggregates]
    rfl

/-- The error accessors and the success accessors of a response are gated by one test.  The test
answers, and tells whether the response carries an error; the outcome follows it.  Without an error the
error accessors are refused for the state and the others are not; with one, the error accessors are not
refused for the state, the others fail, and stores that were to be filled stay as they are. -/
def IsGated (r : Response) (name : Text) (store : ValueStore) : Prop :=
  ∃ inError : Bool, r.isInError.result = .ok inError ∧ (inError = true ↔ r.CarriesError) ∧
    r.outcome.result = .ok (if inError then .applicationError
      else if 400 ≤ r.status.value ∨ r.status.value = 0 then .transportError else .success) ∧
    (inError = false →
      r.errorMessage.result = .error .notInError ∧ r.errorDetail.result = .error .notInError ∧
      r.suggestions.IsAdmitted ∧ (r.aggregateNumber name).IsAdmitted ∧
      (store.addNumbers r).run.IsAdmitted ∧ (store.addContributions r).run.IsAdmitted) ∧
    (inError = true →
      r.errorMessage.IsAdmitted ∧ r.errorDetail.IsAdmitted ∧
      ∃ fault, r.suggestions.result = .error fault ∧
        (r.aggregateNumber name).result = .error fault ∧
        ((store.addNumbers r).store = store ∧ (store.addNumbers r).run.result = .error fault) ∧
        ((store.addContributions r).store = store ∧
          (store.addContributions r).run.result = .error fault))

/-- Everything that depends on the test for an error in a response fails with one fault. -/
structure AllFail (r : Response) (name : Text) (store : ValueStore) (fault : Fault) : Prop where
  isInError : r.isInError.result = .error fault
  outcome : r.outcome.result = .error fault
  errorMessage : r.errorMessage.result = .error fault
  errorDetail : r.errorDetail.result = .error fault
  suggestions : r.suggestions.result = .error fault
  aggregateNumber : (r.aggregateNumber name).result = .error fault
  addNumbers : (store.addNumbers r).store = store ∧ (store.addNumbers r).run.result = .error fault
  addContributions : (store.addContributions r).store = store ∧
    (store.addContributions r).run.result = .error fault

theorem isGated_of_result_find {r : Response} {found : Option ErrorEnvelope}
    (isFound : (ErrorEnvelope.find r).result = .ok found)
    (carries : found.isSome = true ↔ r.CarriesError) (name : Text) (store : ValueStore) :
    r.IsGated name store := by
  refine ⟨found.isSome, result_isInError isFound, carries, ?_, ?_, ?_⟩
  · rw [result_outcome isFound, StatusCode.isError]
    simp only [Bool.or_eq_true, decide_eq_true_eq, beq_iff_eq]
  · intro success
    have none : found = none := Option.isNone_iff_eq_none.mp (by rw [← Option.not_isSome, success]; rfl)
    refine ⟨?_, ?_, ?_⟩
    · rw [result_errorMessage isFound, none]
      rfl
    · rw [result_errorDetail isFound, none]
      rfl
    · exact isAdmitted_of_requireSuccess (isAdmitted_requireSuccess isFound none) name store
  · intro inError
    rcases Option.isSome_iff_exists.mp inError with ⟨envelope, some⟩
    refine ⟨?_, ?_, ?_⟩
    · intro fault failed
      rw [result_errorMessage isFound, some] at failed
      exact envelope.isAdmitted_message fault failed
    · intro fault failed
      rw [result_errorDetail isFound, some] at failed
      exact envelope.isAdmitted_detail r fault failed
    · rcases (result_requireSuccess isFound).2 inError with ⟨fault, refused⟩
      exact ⟨fault, failures_of_requireSuccess refused name store⟩

/-- Where the test itself fails, everything that depends on it does. -/
theorem allFail_of_result_find {r : Response} {fault : Fault}
    (failed : (ErrorEnvelope.find r).result = .error fault) (name : Text) (store : ValueStore) :
    r.AllFail name store fault := by
  have isInError : r.isInError.result = .error fault := by
    rw [Response.isInError, Run.result_timed, Run.result_bind, failed]
    rfl
  have required : (ErrorEnvelope.require r).result = .error fault := by
    rw [ErrorEnvelope.require, Run.result_bind, failed]
    rfl
  have refused : r.requireSuccess.result = .error fault := by
    rw [requireSuccess, Run.result_bind, isInError]
    rfl
  rcases failures_of_requireSuccess refused name store with
    ⟨suggestions, aggregateNumber, addNumbers, addContributions⟩
  exact {
    isInError := isInError
    outcome := by
      rw [Response.outcome, Run.result_bind, isInError]
      rfl
    errorMessage := by
      rw [Response.errorMessage, Run.result_timed, Run.result_bind, required]
      rfl
    errorDetail := by
      rw [Response.errorDetail, Run.result_timed, Run.result_bind, required]
      rfl
    suggestions := suggestions
    aggregateNumber := aggregateNumber
    addNumbers := addNumbers
    addContributions := addContributions }

/-- Reading a document of the grammar that is nested too deeply runs out of room. -/
theorem exists_allFail {r : Response} {t : Text} (notXml : r.type ≠ .xml) (isText : r.text = .ok t)
    {v : Value} (denotes : Json.DenotesDocument t v) (deep : Limits.values t < Json.nesting t)
    (name : Text) (store : ValueStore) : ∃ container, r.AllFail name store (.tooDeep container) := by
  rcases Json.exists_read_eq_tooDeep denotes deep with ⟨container, tired⟩
  refine ⟨container, allFail_of_result_find ?_ name store⟩
  rw [ErrorEnvelope.result_find, ErrorEnvelope.result_read_json isText notXml, Json.result_parse, tired]
  rfl

/-- A response whose body has no surrogates is gated by one test wherever there is room for looking for
an error in it.  Where there is none it is gated as well, or reading runs out of room and everything
that depends on the test fails with that; and it does so for each body that is read as JSON and is a
document of the grammar that is nested too deeply. -/
theorem isGated_or_allFail (r : Response) (scalar : r.body.IsScalar) (name : Text)
    (store : ValueStore) :
    (r.IsShallow → r.IsGated name store) ∧
    (r.IsGated name store ∨ ∃ container, r.AllFail name store (.tooDeep container)) ∧
    ∀ t, r.type ≠ .xml → r.text = .ok t → (∃ v, Json.DenotesDocument t v) →
      Limits.values t < Json.nesting t → ∃ container, r.AllFail name store (.tooDeep container) := by
  refine ⟨fun shallow => ?_, ?_, ?_⟩
  · rcases ErrorEnvelope.result_find_cases r scalar with ⟨found, isFound, carries⟩ | ⟨_, -, deep⟩
    · exact isGated_of_result_find isFound carries name store
    · exact absurd shallow deep
  · rcases ErrorEnvelope.result_find_cases r scalar with
      ⟨found, isFound, carries⟩ | ⟨container, failed, -⟩
    · exact Or.inl (isGated_of_result_find isFound carries name store)
    · exact Or.inr ⟨container, allFail_of_result_find failed name store⟩
  · rintro t notXml isText ⟨v, denotes⟩ deep
    exact exists_allFail notXml isText denotes deep name store

end

/-- A JSON object with an empty object under `errorResponse`. -/
def sampleBody : Text :=
  Text.ofChars ['\x7b', '"', 'e', 'r', 'r', 'o', 'r', 'R', 'e', 's', 'p', 'o', 'n', 's', 'e', '"', ':',
    '\x7b', '\x7d', '\x7d']

section

open scoped Limits

theorem outcome_sampleBody :
    (blank.setBody (.text sampleBody)).body.IsScalar ∧
      (blank.setBody (.text sampleBody)).IsShallow ∧
      (blank.setBody (.text sampleBody)).isInError.result = .ok true ∧
      (blank.setBody (.text sampleBody)).outcome.result = .ok .applicationError := by
  have scalar : (blank.setBody (.text sampleBody)).body.IsScalar := ⟨_, rfl⟩
  have shallow : (blank.setBody (.text sampleBody)).IsShallow := by
    rintro - t ⟨⟩
    decide
  rcases (isGated_or_allFail _ scalar "sum" []).1 shallow with ⟨inError, answer, carries, outcome, -⟩
  have isError : (blank.setBody (.text sampleBody)).CarriesError := by
    refine ⟨_, rfl, Or.inr ⟨by decide, [(.text "errorResponse", .record [])], [], ?_, ?_⟩⟩
    · have scanned : Json.scanValue (Limits.values sampleBody) 42 sampleBody =
          .ok (.record [(.text "errorResponse", .record [])], []) := rfl
      exact Json.read_of_scanValue rfl rfl (by decide) scanned
    · rw [OrderedPairs.get?_cons, Key.ofString, Key.text_beq_text, decide_eq_true rfl]
      rfl
  rw [carries.mpr isError] at answer outcome
  exact ⟨scalar, shallow, answer, outcome⟩

/-- A response with lists one in another as its body, which are nested too deeply. -/
def deepResponse : Response :=
  blank.setBody (.text (Json.listsInLists Limits.commonValues))

/-- The test for an error does not always answer. -/
theorem not_isGated_deepResponse :
    deepResponse.body.IsScalar ∧ ∀ name store, ¬ deepResponse.IsGated name store := by
  refine ⟨Json.exists_ofChars_listsInLists _, fun name store gated => ?_⟩
  rcases Json.exists_denotesDocument Limits.commonValues with ⟨items, denotes, isNesting⟩
  have deep : Limits.values (Json.listsInLists Limits.commonValues) <
      Json.nesting (Json.listsInLists Limits.commonValues) := by
    rw [isNesting]
    exact Nat.lt_succ_self _
  have notXml : deepResponse.type ≠ .xml := by decide
  rcases exists_allFail notXml rfl denotes deep name store with ⟨container, fails⟩
  rcases gated with ⟨inError, answer, -⟩
  rw [fails.isInError] at answer
  cases answer

end

end Response
end DocumentGateway
