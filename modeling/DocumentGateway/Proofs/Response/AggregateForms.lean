import DocumentGateway.Proofs.Response.JsonBody
import DocumentGateway.Proofs.Store.Contributions
import Mathlib.Data.List.Permutation

namespace DocumentGateway

/-!
# Two forms of aggregates

Aggregates are the fields of an object, or they are listed as the entries of a values response.  An
object and a list of entries for its fields have the same aggregates, so nothing that is done with
the aggregates of a response tells the two forms apart.
-/

/-! ## Entries for fields -/

namespace Aggregate

/-- An entry for a field of an object has the name of the field, and its value under one of the two
names for values. -/
def IsEntryFor (field : Key × Value) (entry : Value) : Prop :=
  ∃ (members : Record) (valueName : Text), entry = .record members ∧
    (valueName = "_value" ∨ valueName = "value") ∧
    members.Perm [(.text "name", field.1.toValue), (.text valueName, field.2)]

/-- A list of entries for the fields of an object, in their order.  An only entry may stand without
a list. -/
inductive IsListing (fields : Record) : Value → Prop where
  | list {entries : List Value} (each : List.Forall₂ IsEntryFor fields entries) :
      IsListing fields (.list entries)
  | alone {field : Key × Value} {entry : Value} (only : fields = [field])
      (isEntry : IsEntryFor field entry) : IsListing fields entry

/-- An object with a values response and nothing else. -/
def valuesResponse (listing : Value) : Value :=
  .record [(.text "values-response", .record [(.text "aggregate-result", listing)])]

/-- An entry with a name and a value. -/
def entry (name : Text) (value : Value) : Value :=
  .record [(.text "name", .text name), (.text "_value", value)]

theorem isEntryFor_entry (name : Text) (value : Value) :
    IsEntryFor (.text name, value) (entry name value) :=
  ⟨_, "_value", rfl, Or.inl rfl, .refl _⟩

theorem isReading_entry (name : Text) {value : Value} (reading : Json.IsReading value) :
    Json.IsReading (entry name value) := by
  refine .record ⟨["name", "_value"], rfl, by decide⟩ fun field member => ?_
  rcases List.mem_cons.mp member with rfl | member
  · exact ⟨trivial, rfl⟩
  · cases List.mem_singleton.mp member
    exact reading

theorem isReading_valuesResponse {listing : Value} (reading : Json.IsReading listing) :
    Json.IsReading (valuesResponse listing) := by
  refine .record ⟨["values-response"], rfl, List.nodup_singleton _⟩ fun field member => ?_
  cases List.mem_singleton.mp member
  refine .record ⟨["aggregate-result"], rfl, List.nodup_singleton _⟩ fun field member => ?_
  cases List.mem_singleton.mp member
  exact reading

/-- The aggregate that a field is. -/
def ofField (field : Key × Value) : Aggregate :=
  ⟨field.1.toValue, field.2⟩

theorem ofEntry_of_isEntryFor {field : Key × Value} {entry : Value} (h : IsEntryFor field entry) :
    ofEntry entry = .ok (ofField field) := by
  rcases h with ⟨members, valueName, rfl, rfl | rfl, perm⟩
  all_goals
    rcases List.perm_pair.mp perm with rfl | rfl <;> rfl

theorem ofBody_valuesResponse {fields : Record} {listing : Value} (h : IsListing fields listing) :
    ofBody (valuesResponse listing) = .ok (fields.map ofField) := by
  cases h with
  | @list entries each =>
      have all : entries.mapM ofEntry = .ok (fields.map ofField) := by
        refine mapM_eq_ok_iff.mpr (List.forall₂_map_right_iff.mpr ?_)
        exact each.flip.imp fun _ _ => ofEntry_of_isEntryFor
      exact all
  | alone only isEntry =>
      have one := ofEntry_of_isEntryFor isEntry
      rcases isEntry with ⟨members, valueName, rfl, -⟩
      rw [only]
      change [Value.record members].mapM ofEntry = _
      rw [List.mapM_cons, one]
      rfl

theorem ofBody_of_get?_eq_none {fields : Record} (flat : fields.get? "values-response" = none) :
    ofBody (.record fields) = .ok (fields.map ofField) := by
  simp only [ofBody, Value.fields?, flat]
  rfl

end Aggregate

/-! ## What depends on the aggregates only -/

/-- Filling depends on the result of what it is filled from. -/
theorem ValueStore.fill_congr (store : ValueStore) (operation : Operation)
    {values others : Run (List (Value × Except Fault Value))} (same : values.result = others.result) :
    (store.fill operation values).store = (store.fill operation others).store ∧
      (store.fill operation values).run.result = (store.fill operation others).run.result := by
  rw [fill, fill, same]
  cases others.result <;> exact ⟨rfl, rfl⟩

namespace Response

/-- Two responses give the same number for every name, and fill every store in the same way. -/
structure AgreesWith [Limits] (r s : Response) : Prop where
  number : ∀ name, (r.aggregateNumber name).result = (s.aggregateNumber name).result
  numbers : ∀ store : ValueStore, (store.addNumbers r).store = (store.addNumbers s).store ∧
    (store.addNumbers r).run.result = (store.addNumbers s).run.result
  contributions : ∀ store : ValueStore,
    (store.addContributions r).store = (store.addContributions s).store ∧
      (store.addContributions r).run.result = (store.addContributions s).run.result

/-- Whatever is asked about the aggregates of a response is refused for a surrogate in the body, and
stores stay as they are. -/
structure RefusesAggregates [Limits] (r : Response) (fault : EncodingFault) : Prop where
  number : ∀ name, (r.aggregateNumber name).result = .error (.unencodable fault)
  numbers : ∀ store : ValueStore, (store.addNumbers r).store = store ∧
    (store.addNumbers r).run.result = .error (.unencodable fault)
  contributions : ∀ store : ValueStore, (store.addContributions r).store = store ∧
    (store.addContributions r).run.result = .error (.unencodable fault)

theorem AgreesWith.of_result_ofResponse [Limits] {r s : Response}
    (same : (Aggregate.ofResponse r).result = (Aggregate.ofResponse s).result) : r.AgreesWith s where
  number name := by
    simp only [aggregateNumber, Run.result_timed, Run.result_bind, same]
  numbers store := by
    refine store.fill_congr .addNumbers ?_
    simp only [aggregateNumbers, Run.result_bind, same]
  contributions store := by
    refine store.fill_congr .addContributions ?_
    simp only [Run.result_bind, same]

theorem RefusesAggregates.of_result_ofResponse [Limits] {r : Response} {fault : EncodingFault}
    (failed : (Aggregate.ofResponse r).result = .error (.unencodable fault)) :
    r.RefusesAggregates fault where
  number name := by
    rw [aggregateNumber, Run.result_timed, Run.result_bind, failed]
    rfl
  numbers store := (store.fills_of_ofResponse_eq_error failed).1
  contributions store := (store.fills_of_ofResponse_eq_error failed).2

theorem exists_refusesAggregates [Limits] {r : Response} (unreadable : ¬ r.IsReadable) :
    ∃ fault, r.RefusesAggregates fault := by
  rcases ErrorEnvelope.exists_result_find_of_not_isReadable unreadable with ⟨fault, failed⟩
  refine ⟨fault, .of_result_ofResponse ?_⟩
  have gate : r.requireSuccess.result = .error (.unencodable fault) := by
    rw [requireSuccess, Run.result_bind, isInError, Run.result_timed, Run.result_bind, failed]
    rfl
  rw [Aggregate.ofResponse, Run.result_bind, gate]
  rfl

end Response

/-- A body that is an object without an envelope has the aggregates of the object. -/
theorem Aggregate.result_ofResponse_of_object [Limits] {r : Response} {t : Text} {fields : Record}
    (isText : r.text = .ok t) (isObject : Json.read t = .ok (.record fields))
    (noError : ∀ inner : Record, fields.get? "errorResponse" ≠ some (.record inner))
    (readable : r.IsReadable) {aggregates : List Aggregate}
    (listed : ofBody (.record fields) = .ok aggregates) :
    (ofResponse r).result = .ok aggregates := by
  have noEnvelope : ErrorEnvelope.ofValue? (.record fields) = none := by
    refine Option.not_isSome_iff_eq_none.mp fun isSome => ?_
    rcases (ErrorEnvelope.isSome_ofValue? (Json.isReading_read isObject)).mp isSome with
      ⟨others, inner, same, under⟩
    cases same
    exact noError inner under
  have isFound := ErrorEnvelope.result_find_json_body isText isObject trivial readable
  rw [noEnvelope, ite_self] at isFound
  exact result_ofResponse_of_lists ((Response.result_requireSuccess isFound).1 rfl)
    ⟨t, _, isText, isObject, listed⟩

namespace Response

/-- The fields of an object and a list of entries for them are the same aggregates, in whatever body
of either type they come, unless a body of the type of XML has a surrogate in it. -/
theorem agreesWith_of_isListing [Limits] (r s : Response) :
    (∀ (t u : Text) (fields : Record) (listing : Value),
      r.text = .ok t → Json.read t = .ok (.record fields) →
      s.text = .ok u → Json.read u = .ok (Aggregate.valuesResponse listing) →
      fields.get? "values-response" = none →
      (∀ inner : Record, fields.get? "errorResponse" ≠ some (.record inner)) →
      Aggregate.IsListing fields listing → r.IsReadable → s.IsReadable → r.AgreesWith s) ∧
    (¬ r.IsReadable → ∃ fault, r.RefusesAggregates fault) := by
  refine ⟨?_, exists_refusesAggregates⟩
  intro t u fields listing isText isObject isTextToo isListed flat noError isListing readable
    readableToo
  have ofFields := Aggregate.result_ofResponse_of_object isText isObject noError readable
    (Aggregate.ofBody_of_get?_eq_none flat)
  have ofListing := Aggregate.result_ofResponse_of_object isTextToo isListed (fun _ => nofun)
    readableToo (Aggregate.ofBody_valuesResponse isListing)
  exact .of_result_ofResponse (ofFields.trans ofListing.symm)

/-- A name that is a surrogate. -/
def surrogateName : Text :=
  [.surrogate ⟨0, by decide⟩]

/-- Two aggregates, the second under a surrogate. -/
def surrogateFields : Record :=
  [(.text "get", .int 1), (.text surrogateName, .text " 2")]

/-- Entries for them. -/
def surrogateEntries : Value :=
  .list [Aggregate.entry "get" (.int 1), Aggregate.entry surrogateName (.text " 2")]

theorem isListing_surrogateEntries : Aggregate.IsListing surrogateFields surrogateEntries :=
  .list (.cons (Aggregate.isEntryFor_entry _ _) (.cons (Aggregate.isEntryFor_entry _ _) .nil))

section

open scoped Limits

theorem read_surrogateFields :
    Json.read (Json.written .compact (.record surrogateFields)) = .ok (.record surrogateFields) := by
  refine Json.read_written_compact (.record ⟨["get", surrogateName], rfl, by decide⟩
    fun field member => ?_) (by decide) (by decide +kernel)
  rcases List.mem_cons.mp member with rfl | member
  · exact ⟨(by decide +kernel : digitCount 1 ≤ Json.digitLimit), rfl⟩
  · cases List.mem_singleton.mp member
    exact ⟨trivial, rfl⟩

/-- In ASCII the surrogate is spelled by its number. -/
theorem read_surrogateEntries :
    Json.read (Json.written .compactAscii (Aggregate.valuesResponse surrogateEntries)) =
      .ok (Aggregate.valuesResponse surrogateEntries) := by
  have joined : ∀ s ∈ (Aggregate.valuesResponse surrogateEntries).texts, s.IsChain fun p q =>
      ¬ ((0xD800 ≤ p.code ∧ p.code < 0xDC00) ∧ 0xDC00 ≤ q.code ∧ q.code < 0xE000) := by
    decide +kernel
  refine Json.read_written (Aggregate.isReading_valuesResponse (.list fun entry member => ?_))
    (by decide) (by decide +kernel) fun s member _ => joined s member
  rcases List.mem_cons.mp member with rfl | member
  · exact Aggregate.isReading_entry _ ⟨(by decide +kernel : digitCount 1 ≤ Json.digitLimit), rfl⟩
  · cases List.mem_singleton.mp member
    exact Aggregate.isReading_entry _ ⟨trivial, rfl⟩

/-- The same aggregates in two responses of the type of JSON, and a response of the type of XML with
a surrogate in it. -/
theorem agreesWith_of_isListing_surrogateEntries :
    (ofJson (Json.written .compact (.record surrogateFields))).AgreesWith
      (ofJson (Json.written .compactAscii (Aggregate.valuesResponse surrogateEntries))) ∧
    ∃ fault, (ofXml (Json.written .compact (.record surrogateFields))).RefusesAggregates fault := by
  constructor
  · exact (agreesWith_of_isListing _ _).1 _ _ _ _ rfl read_surrogateFields rfl
      read_surrogateEntries rfl (fun _ => nofun) isListing_surrogateEntries nofun nofun
  · refine (agreesWith_of_isListing _ blank).2 fun readable => ?_
    rw [isReadable_ofXml_iff] at readable
    exact absurd readable (by decide +kernel)

/-- In a body of the type of XML the two forms are not the same, where one of them has a surrogate
in it and the other spells the surrogate by its number. -/
theorem not_agreesWith_of_isListing :
    ¬ ∀ (r s : Response) (t u : Text) (fields : Record) (listing : Value), r.type = s.type →
      r.text = .ok t → Json.read t = .ok (.record fields) →
      s.text = .ok u → Json.read u = .ok (Aggregate.valuesResponse listing) →
      fields.get? "values-response" = none →
      (∀ inner : Record, fields.get? "errorResponse" ≠ some (.record inner)) →
      Aggregate.IsListing fields listing → r.AgreesWith s := by
  intro agree
  have same := (agree (ofXml (Json.written .compact (.record surrogateFields)))
    (ofXml (Json.written .compactAscii (Aggregate.valuesResponse surrogateEntries)))
    _ _ _ _ rfl rfl read_surrogateFields rfl read_surrogateEntries rfl (fun _ => nofun)
    isListing_surrogateEntries).number "get"
  have refused : ((ofXml (Json.written .compact (.record surrogateFields))).aggregateNumber
      "get").result.isOk = false := by decide +kernel
  have given : ((ofXml (Json.written .compactAscii
      (Aggregate.valuesResponse surrogateEntries))).aggregateNumber "get").result.isOk = true := by
    decide +kernel
  rw [same, given] at refused
  cases refused

end

end Response

end DocumentGateway
