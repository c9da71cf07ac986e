import DocumentGateway.Proofs.Json.GainedField
import DocumentGateway.Proofs.Response.Permissions
import DocumentGateway.Proofs.Response.JsonBody

namespace DocumentGateway

/-!
# Kept answers

Each answer is read from a few places of a body.  A field that an object gains at any other place,
whatever its name, changes nothing there: envelopes, suggestions and grants are found as before.
-/

/-- Where a field may stand: the path to an object, and the name of the field. -/
abbrev Place := List PathStep × Text

namespace Place

open PathStep

/-- The same places below a path. -/
def below (front : List PathStep) (places : List Place) : List Place :=
  places.map fun place => (front ++ place.1, place.2)

theorem mem_below {place : Place} {places : List Place} (front : List PathStep)
    (member : place ∈ places) : (front ++ place.1, place.2) ∈ below front places :=
  List.mem_map_of_mem member

/-- The field of a name in an object itself. -/
def own (name : Text) : List Place :=
  [([], name)]

/-- The place from which it is read whether a response is in error. -/
def ofError : List Place :=
  own "errorResponse"

/-- Before anything else is read from a body, it is read whether there is an error in it. -/
theorem not_mem_ofError {place : Place} {places : List Place} (away : place ∉ ofError ++ places) :
    place ∉ ofError :=
  fun member => away (List.mem_append_left places member)

/-- Those from which the message of an error is read. -/
def ofMessage : List Place :=
  ofError ++ below [field "errorResponse"] (own "message")

/-- Those from which suggestions are read. -/
def ofSuggestions : List Place :=
  ofError ++ own "suggestions"

/-- Those from which an entry of a values response is read. -/
def ofEntry : List Place :=
  own "name" ++ own "_value" ++ own "value"

/-- Those from which the entries are read.  A single entry need not stand in a list. -/
def ofListing : List Place :=
  ofEntry ++ below [member] ofEntry

/-- Those from which a values response is read. -/
def ofValuesResponse : List Place :=
  own "aggregate-result" ++ below [field "aggregate-result"] ofListing

/-- Those from which listed aggregates are read. -/
def ofAggregates : List Place :=
  ofError ++ (own "values-response" ++ below [field "values-response"] ofValuesResponse)

/-- Those from which an entry of metadata is read. -/
def ofGrant : List Place :=
  own "role-name" ++ own "capabilities"

/-- Those from which permissions are read. -/
def ofPermissions : List Place :=
  own "permissions" ++ (below [member] ofGrant ++ below [field "permissions", member] ofGrant)

end Place

/-- Two responses of the same type and status, the bodies of which are read as two values. -/
structure Response.HaveBodies [Limits] (r s : Response) (body more : Value) : Prop where
  type : r.type = s.type
  status : r.status = s.status
  first : Holds Json.read r.text body
  second : Holds Json.read s.text more
  readable : s.IsReadable

/-- What a run returns, another one returns too. -/
def Run.Keeps (run other : Run α) : Prop :=
  ∀ ⦃a⦄, run.result = .ok a → other.result = .ok a

/-- A store that is filled well is filled in the same way. -/
def FilledStore.Keeps (filled other : FilledStore) : Prop :=
  filled.run.result = .ok () → other.run.result = .ok () ∧ other.store = filled.store

/-- An object has a field of a name. -/
def Value.Has (v : Value) (name : Text) : Prop :=
  ∃ (fields : Record) (under : Value), v = .record fields ∧ fields.get? (.text name) = some under

/-- The message in the envelope of a body is a text, if there is one. -/
def Value.HasTextMessage (body : Value) : Prop :=
  ∀ fields inner : Record, body = .record fields →
    fields.get? "errorResponse" = some (.record inner) →
      ∀ v, inner.get? "message" = some v → ∃ t, v = .text t

variable {name : Text} {path : List PathStep} {body more : Value}

/-! ## Envelopes -/

namespace ErrorEnvelope

theorem ofValue?_congr {fields others : Record}
    (same : others.get? "errorResponse" = fields.get? "errorResponse") :
    ofValue? (.record others) = ofValue? (.record fields) := by
  simp only [ofValue?, Value.fields?, Option.bind_eq_bind, Option.bind_some, same]

/-- An envelope is kept, or the field is gained in it. -/
theorem ofValue?_of_gains (gains : Value.Gains name path body more)
    (away : (path, name) ∉ Place.ofError) :
    ofValue? more = ofValue? body ∨ ∃ (fields inner others : Record) (rest : List PathStep),
      path = .field "errorResponse" :: rest ∧ body = .record fields ∧
      fields.get? "errorResponse" = some (.record inner) ∧
      ofValue? body = some (json inner) ∧ ofValue? more = some (json others) ∧
      Value.Gains name rest (.record inner) (.record others) := by
  cases body with
  | record fields =>
      rcases gains.exists_fields with ⟨others, rfl, kept⟩
      rcases kept "errorResponse" (ne_of_mem_of_not_mem (by decide) away).symm with
        same | ⟨rest, old, new, rfl, was, is, inner⟩
      · exact Or.inl (ofValue?_congr same)
      · have body := ofValue?_of_get? was
        have more := ofValue?_of_get? is
        cases old with
        | record envelope =>
            rcases inner.exists_fields with ⟨wider, rfl, -⟩
            exact Or.inr ⟨fields, envelope, wider, rest, rfl, rfl, was, body, more, inner⟩
        | list items =>
            rcases inner.exists_items with ⟨-, wider, -, rfl, -⟩
            exact Or.inl (more.trans body.symm)
        | _ => exact inner.isCollection.1.elim
  | list items =>
      rcases gains.exists_items with ⟨rest, others, -, rfl, -⟩
      exact Or.inl rfl
  | _ => exact gains.isCollection.1.elim

theorem message_json_congr {envelope others : Record}
    (same : others.get? "message" = envelope.get? "message") :
    (json others).message.result = (json envelope).message.result := by
  rw [message, message, same]

end ErrorEnvelope

/-! ## Responses in error -/

namespace Response

variable [Limits] {r s : Response}

/-- When it is known what a response carries, its body can be read. -/
theorem isReadable_of_find {found : Option ErrorEnvelope}
    (isFound : (ErrorEnvelope.find r).result = .ok found) : r.IsReadable := by
  refine Classical.not_not.mp fun unreadable => ?_
  rcases ErrorEnvelope.exists_result_find_of_not_isReadable unreadable with ⟨fault, failed⟩
  cases isFound.symm.trans failed

theorem exists_find_of_isInError {answer : Bool} (h : r.isInError.result = .ok answer) :
    ∃ found, (ErrorEnvelope.find r).result = .ok found ∧ found.isSome = answer := by
  rw [isInError, Run.result_timed, Run.result_bind] at h
  rcases exists_of_bind_eq_ok h with ⟨found, isFound, isSome⟩
  exact ⟨found, isFound, Except.ok.inj isSome⟩

theorem exists_find_of_errorMessage {message : Text} (h : r.errorMessage.result = .ok message) :
    ∃ envelope, (ErrorEnvelope.find r).result = .ok (some envelope) ∧
      envelope.message.result = .ok message := by
  rw [errorMessage, Run.result_timed, Run.result_bind, ErrorEnvelope.require, Run.result_bind] at h
  rcases exists_of_bind_eq_ok h with ⟨envelope, required, isMessage⟩
  rcases exists_of_bind_eq_ok required with ⟨found, isFound, isEnvelope⟩
  cases found with
  | none => cases isEnvelope
  | some own =>
      cases isEnvelope
      exact ⟨envelope, isFound, isMessage⟩

theorem find_of_requireSuccess (h : r.requireSuccess.result = .ok ()) :
    (ErrorEnvelope.find r).result = .ok none := by
  rw [requireSuccess, Run.result_bind] at h
  rcases exists_of_bind_eq_ok h with ⟨answer, inError, passed⟩
  rcases exists_find_of_isInError inError with ⟨found, isFound, isSome⟩
  cases found with
  | none => exact isFound
  | some envelope =>
      obtain rfl : true = answer := isSome
      change Run.result (r.errorMessage >>= fun message => Run.fail (.inError message)) = _ at passed
      rw [Run.result_bind] at passed
      rcases exists_of_bind_eq_ok passed with ⟨message, -, failed⟩
      cases failed

/-- The outcome follows from the status and whether a response is in error. -/
theorem result_outcome_of_isInError {answer : Bool} (h : r.isInError.result = .ok answer) :
    r.outcome.result = .ok (if answer then .applicationError
      else if r.status.isError then .transportError else .success) := by
  rcases exists_find_of_isInError h with ⟨found, isFound, rfl⟩
  exact result_outcome isFound

section

variable (bodies : r.HaveBodies s body more) (gains : Value.Gains name path body more)

include bodies gains

/-- What a response carries, and what it carries with the field. -/
theorem HaveBodies.find (readable : r.IsReadable) :
    (ErrorEnvelope.find r).result =
        .ok (if r.type = .xml then none else ErrorEnvelope.ofValue? body) ∧
      (ErrorEnvelope.find s).result =
        .ok (if r.type = .xml then none else ErrorEnvelope.ofValue? more) := by
  rcases bodies.first with ⟨t, isText, parsed⟩
  rcases bodies.second with ⟨u, isTextToo, parsedToo⟩
  refine ⟨ErrorEnvelope.result_find_json_body isText parsed gains.isCollection.1 readable, ?_⟩
  rw [bodies.type]
  exact ErrorEnvelope.result_find_json_body isTextToo parsedToo gains.isCollection.2 bodies.readable

variable (away : (path, name) ∉ Place.ofError)

include away

theorem HaveBodies.isInError : r.isInError.Keeps s.isInError := by
  intro answer h
  rcases exists_find_of_isInError h with ⟨found, isFound, rfl⟩
  rcases bodies.find gains (isReadable_of_find isFound) with ⟨first, second⟩
  rw [result_isInError second, Except.ok.inj (isFound.symm.trans first)]
  by_cases isXml : r.type = .xml
  · rw [if_pos isXml, if_pos isXml]
  · rw [if_neg isXml, if_neg isXml]
    rcases ErrorEnvelope.ofValue?_of_gains gains away with
      same | ⟨_, _, _, _, -, -, -, before, after, -⟩
    · rw [same]
    · rw [before, after]
      rfl

theorem HaveBodies.outcome : r.outcome.Keeps s.outcome := by
  intro answer h
  have outcome := h
  rw [Response.outcome, Run.result_bind] at h
  rcases exists_of_bind_eq_ok h with ⟨inError, isInError, -⟩
  rw [result_outcome_of_isInError isInError] at outcome
  rw [result_outcome_of_isInError (bodies.isInError gains away isInError), ← bodies.status, outcome]

theorem HaveBodies.find_eq_none (isFound : (ErrorEnvelope.find r).result = .ok none) :
    (ErrorEnvelope.find s).result = .ok none := by
  have answer := bodies.isInError gains away (result_isInError isFound)
  rcases exists_find_of_isInError answer with ⟨found, isFoundToo, isSome⟩
  cases found with
  | none => exact isFoundToo
  | some envelope => cases isSome

theorem HaveBodies.requireSuccess : r.requireSuccess.Keeps s.requireSuccess := fun _ h =>
  (result_requireSuccess (bodies.find_eq_none gains away (find_of_requireSuccess h))).1 rfl

end

/-- A message that is a text or absent is kept. -/
theorem HaveBodies.errorMessage (bodies : r.HaveBodies s body more)
    (gains : Value.Gains name path body more) (away : (path, name) ∉ Place.ofMessage)
    (simple : body.HasTextMessage) : r.errorMessage.Keeps s.errorMessage := by
  intro message h
  rcases exists_find_of_errorMessage h with ⟨envelope, isFound, isMessage⟩
  rcases bodies.find gains (isReadable_of_find isFound) with ⟨first, second⟩
  by_cases isXml : r.type = .xml
  · rw [if_pos isXml] at first
    cases isFound.symm.trans first
  · rw [if_neg isXml] at first second
    have carried : ErrorEnvelope.ofValue? body = some envelope :=
      (Except.ok.inj (isFound.symm.trans first)).symm
    rcases ErrorEnvelope.ofValue?_of_gains gains (Place.not_mem_ofError away) with
      same | ⟨fields, inner, others, rest, rfl, rfl, under, before, after, inside⟩
    · rw [result_errorMessage second, same, carried]
      exact isMessage
    · obtain rfl : envelope = .json inner := Option.some.inj (carried.symm.trans before)
      have apart : (rest, name) ∉ Place.own "message" := fun member =>
        away (List.mem_append_right _ (Place.mem_below [.field "errorResponse"] member))
      rcases inside.exists_fields with ⟨_, ⟨⟩, kept⟩
      rw [result_errorMessage second, after]
      rcases kept "message" (ne_of_mem_of_not_mem (by decide) apart).symm with
        same | ⟨_, old, new, _, was, _, deeper⟩
      · exact (ErrorEnvelope.message_json_congr same).trans isMessage
      · rcases simple fields inner rfl under old was with ⟨t, rfl⟩
        exact deeper.isCollection.1.elim

end Response

/-! ## Suggestions -/

/-- Suggestions are kept when the field is gained elsewhere. -/
theorem Suggestion.ofValue_of_gains (gains : Value.Gains name path body more)
    (away : (path, name) ∉ Place.ofSuggestions) (outside : ¬ [.field "suggestions"] <+: path) :
    ofValue more = ofValue body := by
  cases body with
  | record fields =>
      rcases gains.exists_fields with ⟨others, rfl, kept⟩
      rcases kept "suggestions" (ne_of_mem_of_not_mem (by decide) away).symm with
        same | ⟨rest, old, new, rfl, -⟩
      · have under : OrderedPairs.get? others "suggestions" = OrderedPairs.get? fields "suggestions" :=
          same
        simp only [ofValue, Value.fields?, Option.bind_some, under]
      · exact absurd ⟨rest, rfl⟩ outside
  | list items =>
      rcases gains.exists_items with ⟨rest, others, -, rfl, -⟩
      rfl
  | _ => exact gains.isCollection.1.elim

theorem Response.HaveBodies.suggestions [Limits] {r s : Response}
    (bodies : r.HaveBodies s body more) (gains : Value.Gains name path body more)
    (away : (path, name) ∉ Place.ofSuggestions) (outside : ¬ [.field "suggestions"] <+: path) :
    r.suggestions.Keeps s.suggestions := by
  intro suggestions h
  have told := h
  rw [Response.suggestions, Run.result_timed, Run.result_bind] at h
  rcases exists_of_bind_eq_ok h with ⟨_, success, _⟩
  have isFound := find_of_requireSuccess success
  have isFoundToo := bodies.find_eq_none gains (Place.not_mem_ofError away) isFound
  rcases bodies.first with ⟨t, isText, parsed⟩
  rcases bodies.second with ⟨u, isTextToo, parsedToo⟩
  rw [result_suggestions isText isFound (Json.trim_ne_nil_of_read parsed gains.isCollection.1)] at told
  rw [result_suggestions isTextToo isFoundToo
    (Json.trim_ne_nil_of_read parsedToo gains.isCollection.2), ← bodies.type]
  by_cases isXml : r.type = .xml
  · rw [if_pos isXml] at told
    rcases exists_of_map_eq_ok told with ⟨root, isRoot, -⟩
    exact absurd (Xml.result_parse_eq_ok_iff.mp isRoot) (r.read_xml_ne_ok isText parsed
      gains.isCollection.1 (isReadable_of_find isFound isXml) root)
  · rw [if_neg isXml, Json.result_parse_eq_ok_iff.mpr parsed] at told
    rw [if_neg isXml, Json.result_parse_eq_ok_iff.mpr parsedToo]
    change (Suggestion.ofValue more).mapError _ = _
    rw [Suggestion.ofValue_of_gains gains away outside]
    exact told

/-! ## Permissions -/

/-- A grant is still said by an entry that gains a field. -/
theorem Grant.IsSaidBy.of_keeps {grant : Grant} {entry other : Value} (said : grant.IsSaidBy entry)
    (keeps : Value.Keeps name path entry other) (away : (path, name) ∉ Place.ofGrant) :
    grant.IsSaidBy other := by
  cases keeps with
  | same => exact said
  | gains inner =>
      rcases said with ⟨fields, rfl, role, capabilities⟩
      rcases inner.exists_fields with ⟨others, rfl, kept⟩
      refine ⟨others, rfl, ?_, ?_⟩
      · rcases kept "role-name" (ne_of_mem_of_not_mem (by decide) away).symm with
          same | ⟨_, old, new, _, was, _, deeper⟩
        · exact same.trans role
        · cases was.symm.trans role
          exact deeper.isCollection.1.elim
      · rcases kept "capabilities" (ne_of_mem_of_not_mem (by decide) away).symm with
          same | ⟨_, old, new, _, was, _, deeper⟩
        · exact same.trans capabilities
        · cases was.symm.trans capabilities
          rcases deeper.exists_mem_isCollection with ⟨item, member, isCollection⟩
          rcases List.mem_map.mp member with ⟨capability, -, rfl⟩
          exact isCollection.elim

theorem AreSaidBy.of_gains {grants : List Grant} (said : AreSaidBy grants body)
    (gains : Value.Gains name path body more) (away : (path, name) ∉ Place.ofPermissions) :
    AreSaidBy grants more := by
  rcases said with ⟨entries, has, each⟩
  cases has with
  | whole =>
      rcases gains.exists_items with ⟨rest, others, rfl, rfl, kept⟩
      refine ⟨others, .whole others, forall₂_trans (fun _ _ _ said keeps => ?_) each kept⟩
      refine said.of_keeps keeps fun member => away ?_
      exact List.mem_append_right _ (List.mem_append_left _ (Place.mem_below [.member] member))
  | @field fields _ under =>
      rcases gains.exists_fields with ⟨others, rfl, kept⟩
      rcases kept "permissions" (ne_of_mem_of_not_mem (by decide) away).symm with
        same | ⟨rest, old, new, rfl, was, is, inner⟩
      · exact ⟨entries, .field (same.trans under), each⟩
      · cases was.symm.trans under
        rcases inner.exists_items with ⟨deeper, wider, rfl, rfl, keptToo⟩
        refine ⟨wider, .field is, forall₂_trans (fun _ _ _ said keeps => ?_) each keptToo⟩
        refine said.of_keeps keeps fun member => away ?_
        exact List.mem_append_right _ (List.mem_append_right _
          (Place.mem_below [.field "permissions", .member] member))

theorem Response.HaveBodies.permissions [Limits] {r s : Response}
    (bodies : r.HaveBodies s body more) (gains : Value.Gains name path body more)
    (away : (path, name) ∉ Place.ofPermissions) :
    (Permission.ofResponse r).Keeps (Permission.ofResponse s) := by
  intro permissions h
  rcases Permission.result_ofResponse_eq_ok_iff.mp h with
    ⟨grants, ⟨isJson, metadata, holds, said⟩, rfl⟩
  obtain rfl : metadata = body := holds.eq bodies.first
  refine Permission.result_ofResponse_eq_ok_iff.mpr ⟨grants, ⟨?_, more, bodies.second, ?_⟩, rfl⟩
  · exact bodies.type.symm.trans isJson
  · exact said.of_gains gains away

end DocumentGateway
