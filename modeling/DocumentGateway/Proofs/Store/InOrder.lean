import DocumentGateway.Proofs.Response.AggregateForms

namespace DocumentGateway

/-!
# Contributions in order

Filling a store with contributions adds the parts of the aggregates one by one, each as it is
collected.  It goes on up to the first part that is refused, and keeps what it added until then.  A
part is refused as an integer that is too large, and else for a name that is no key.
-/

/-! ## The parts of aggregates -/

/-- As what a value is collected: a number, or a text that spells one, as a floating-point number,
and every other value as it is. -/
inductive Value.IsCollectedAs : Value → Value → Prop where
  | int {i : Int} {x : Binary64} (rounded : Binary64.ofInt? i = some x) :
      IsCollectedAs (.int i) (.float x)
  | float (x : Binary64) : IsCollectedAs (.float x) (.float x)
  | numeral {t : Text} {x : Binary64} (spelled : readNumber? t = some x) :
      IsCollectedAs (.text t) (.float x)
  | text {t : Text} (unspelled : readNumber? t = none) : IsCollectedAs (.text t) (.text t)
  | null : IsCollectedAs .null .null
  | bool (b : Bool) : IsCollectedAs (.bool b) (.bool b)
  | list (items : List Value) : IsCollectedAs (.list items) (.list items)
  | record (fields : Record) : IsCollectedAs (.record fields) (.record fields)

namespace Aggregate

/-- The named values in an aggregate: the members of a list, each under its name, and any other
value itself. -/
def parts (a : Aggregate) : List (Value × Value) :=
  match a.value with
  | .list items => items.map fun item => (a.name, item)
  | v => [(a.name, v)]

/-- A part as it is offered to a store. -/
def offered (part : Value × Value) : Value × Except Fault Value :=
  (part.1, collected part.2)

/-- Why a part is refused. -/
inductive IsRefusedFor : Value × Value → Fault → Prop where
  | tooLarge {name : Value} {i : Int} (large : Binary64.overflow ≤ i.natAbs) :
      IsRefusedFor (name, .int i) .integerTooLarge
  | noKey {name value : Value} {kind : String} (unhashable : name.asKey = .error kind)
      (fits : ∀ i, value = .int i → i.natAbs < Binary64.overflow) :
      IsRefusedFor (name, value) (.unhashable kind)

/-- A part is added under its name, which is a key, and as it is collected. -/
structure IsAddedFor (part named : Value × Value) : Prop where
  name : named.1 = part.1
  isKey : ∃ key, part.1.asKey = .ok key
  value : part.2.IsCollectedAs named.2

theorem contributions_eq (a : Aggregate) : a.contributions = a.parts.map offered := by
  rcases a with ⟨name, value⟩
  cases value with
  | list items =>
      rw [contributions, parts, List.map_map]
      rfl
  | _ => rfl

theorem flatMap_contributions (aggregates : List Aggregate) :
    aggregates.flatMap contributions = (aggregates.flatMap parts).map offered := by
  rw [List.map_flatMap]
  exact List.flatMap_congr fun a _ => a.contributions_eq

theorem isReading_of_mem_parts {a : Aggregate} (reading : Json.IsReading a.value)
    {part : Value × Value} (member : part ∈ a.parts) : Json.IsReading part.2 := by
  rcases a with ⟨name, value⟩
  cases value with
  | list items =>
      rcases List.mem_map.mp member with ⟨item, among, rfl⟩
      exact reading.of_mem item among
  | _ =>
      cases List.mem_singleton.mp member
      exact reading

theorem collected_eq_error {v : Value} {fault : Fault} (h : collected v = .error fault) :
    fault = .integerTooLarge ∧ ∃ i, v = .int i ∧ Binary64.overflow ≤ i.natAbs := by
  cases v with
  | int i =>
      rw [collected, floatOfInt] at h
      cases found : Binary64.ofInt? i with
      | none =>
          rw [found] at h
          cases h
          exact ⟨rfl, i, rfl, (Binary64.ofInt?_eq_none_iff i).mp found⟩
      | some x =>
          rw [found] at h
          cases h
  | text t =>
      simp only [collected] at h
      split at h <;> cases h
  | _ => cases h

theorem isCollectedAs_of_collected {v c : Value} (reading : Json.IsReading v)
    (h : collected v = .ok c) : v.IsCollectedAs c := by
  cases v with
  | int i =>
      rw [collected, floatOfInt] at h
      cases found : Binary64.ofInt? i with
      | none =>
          rw [found] at h
          cases h
      | some x =>
          rw [found] at h
          cases h
          exact .int found
  | text t =>
      simp only [collected] at h
      split at h
      · next x spelled =>
          cases h
          exact .numeral spelled
      · next unspelled =>
          cases h
          exact .text unspelled
  | float _ | null | bool _ | list _ | record _ =>
      cases h
      constructor
  | ownNan | tuple _ | mapping _ =>
      have same := reading.same
      rw [Value.readBack] at same
      cases same
  | bytes _ | buffer _ | cyclic _ | foreign _ => exact reading.plain.elim

/-- A number that is collected is not too large. -/
theorem natAbs_lt_of_isCollectedAs {v c : Value} (h : v.IsCollectedAs c) :
    ∀ i, v = .int i → i.natAbs < Binary64.overflow := by
  rintro i rfl
  cases h with
  | int rounded =>
      refine Nat.lt_of_not_le fun large => ?_
      rw [(Binary64.ofInt?_eq_none_iff i).mpr large] at rounded
      cases rounded

/-- What is added is not refused. -/
theorem IsAddedFor.not_isRefusedFor {part named : Value × Value} (added : IsAddedFor part named)
    (fault : Fault) : ¬ IsRefusedFor part fault := by
  rintro (large | ⟨unhashable, -⟩)
  · exact Nat.not_lt.mpr large (natAbs_lt_of_isCollectedAs added.value _ rfl)
  · rcases added.isKey with ⟨key, isKey⟩
    cases unhashable.symm.trans isKey

/-- One step: a part is added, or it is refused. -/
theorem bind_add_offered (store : ValueStore) {part : Value × Value}
    (reading : Json.IsReading part.2) :
    (∃ named more, IsAddedFor part named ∧ store.add named.1 named.2 = .ok more ∧
      (offered part).2.bind (store.add (offered part).1) = .ok more) ∨
    ∃ fault, IsRefusedFor part fault ∧
      (offered part).2.bind (store.add (offered part).1) = .error fault := by
  rcases part with ⟨name, value⟩
  change (∃ named more, _ ∧ _ ∧ (collected value).bind (store.add name) = .ok more) ∨
    ∃ fault, _ ∧ (collected value).bind (store.add name) = .error fault
  cases taken : collected value with
  | error fault =>
      rcases collected_eq_error taken with ⟨rfl, i, rfl, large⟩
      exact Or.inr ⟨_, .tooLarge large, rfl⟩
  | ok c =>
      have isCollected := isCollectedAs_of_collected reading taken
      cases hashed : name.asKey with
      | error kind =>
          refine Or.inr ⟨.unhashable kind, .noKey hashed (natAbs_lt_of_isCollectedAs isCollected), ?_⟩
          change store.add name c = _
          rw [ValueStore.add, ValueStore.keyOf, hashed]
          rfl
      | ok key =>
          have added : store.add name c =
              .ok (OrderedPairs.put store key ((store.get? key).getD [] ++ [c])) := by
            rw [ValueStore.add, ValueStore.keyOf, hashed]
            rfl
          exact Or.inl ⟨(name, c), _, ⟨rfl, ⟨key, hashed⟩, isCollected⟩, added, added⟩

end Aggregate

/-! ## Adding in order -/

namespace ValueStore

/-- Add named values one after the other. -/
def addInOrder (store : ValueStore) (added : List (Value × Value)) : Except Fault ValueStore :=
  added.foldlM (fun filled named => filled.add named.1 named.2) store

/-- How filling ends before parts that are left: well when there are none, and else with what the
first of them is refused for. -/
inductive StopsBefore : List (Value × Value) → Except Fault Unit → Prop where
  | nothing : StopsBefore [] (.ok ())
  | refused {part : Value × Value} {rest : List (Value × Value)} {fault : Fault}
      (isRefused : Aggregate.IsRefusedFor part fault) : StopsBefore (part :: rest) (.error fault)

/-- A store is filled with parts in order: some of them from the front on are added, and the others
are left because the first of them is refused. -/
def IsFilledInOrder (store : ValueStore) (parts : List (Value × Value)) (after : ValueStore)
    (result : Except Fault Unit) : Prop :=
  ∃ front back added, parts = front ++ back ∧ List.Forall₂ Aggregate.IsAddedFor front added ∧
    store.addInOrder added = .ok after ∧ StopsBefore back result

theorem isFilledInOrder_addAll (store : ValueStore) {parts : List (Value × Value)}
    (readings : ∀ part ∈ parts, Json.IsReading part.2) :
    store.IsFilledInOrder parts (Filling.addAll store (parts.map Aggregate.offered)).store
      (Filling.addAll store (parts.map Aggregate.offered)).result := by
  induction parts generalizing store with
  | nil => exact ⟨[], [], [], rfl, .nil, rfl, .nothing⟩
  | cons part rest ih =>
      rcases List.forall_mem_cons.mp readings with ⟨reading, others⟩
      rw [List.map_cons, Filling.addAll]
      rcases Aggregate.bind_add_offered store reading with
        ⟨named, more, isAdded, add, step⟩ | ⟨fault, isRefused, step⟩
      · simp only [step]
        rcases ih more others with ⟨front, back, added, rfl, are, filled, stops⟩
        refine ⟨part :: front, back, named :: added, rfl, .cons isAdded are, ?_, stops⟩
        rw [addInOrder, List.foldlM_cons, bind_of_eq_ok add]
        exact filled
      · simp only [step]
        exact ⟨[], part :: rest, [], rfl, .nil, rfl, .refused isRefused⟩

/-- Filling in order fails exactly when one of the parts is refused. -/
theorem IsFilledInOrder.exists_error_iff {store after : ValueStore} {parts : List (Value × Value)}
    {result : Except Fault Unit} (h : store.IsFilledInOrder parts after result) :
    (∃ fault, result = .error fault) ↔ ∃ part ∈ parts, ∃ fault, Aggregate.IsRefusedFor part fault := by
  rcases h with ⟨front, back, added, rfl, are, -, stops⟩
  cases stops with
  | @refused part rest fault isRefused =>
      exact iff_of_true ⟨fault, rfl⟩ ⟨part, by simp, fault, isRefused⟩
  | nothing =>
      refine iff_of_false (by simp) ?_
      rintro ⟨part, member, fault, isRefused⟩
      rw [List.append_nil] at member
      induction are with
      | nil => cases member
      | cons isAdded _ ih =>
          rcases List.mem_cons.mp member with rfl | member
          · exact isAdded.not_isRefusedFor fault isRefused
          · exact ih member

end ValueStore

/-- Adding goes on behind named values that were all added. -/
theorem Filling.addAll_append {store : ValueStore} {known : List (Value × Except Fault Value)}
    (more : List (Value × Except Fault Value)) (h : (addAll store known).result = .ok ()) :
    addAll store (known ++ more) = addAll (addAll store known).store more := by
  induction known generalizing store with
  | nil => rfl
  | cons named rest ih =>
      rw [List.cons_append, addAll, addAll]
      rw [addAll] at h
      cases step : named.2.bind (store.add named.1) with
      | error fault =>
          rw [step] at h
          cases h
      | ok more =>
          rw [step] at h
          exact ih h

/-! ## Lists of entries -/

/-- A response that is not in error and has entries listed in the values response of its body. -/
structure Response.ListsEntries [Limits] (r : Response) (entries : List Value) : Prop where
  success : r.isInError.result = .ok false
  body : ∃ t, ∃ fields response : Record, r.text = .ok t ∧ Json.read t = .ok (.record fields) ∧
    fields.get? "values-response" = some (.record response) ∧
    response.get? "aggregate-result" = some (.list entries)

namespace Response

variable [Limits] {r : Response} {entries : List Value}

theorem ListsEntries.result_requireSuccess (lists : r.ListsEntries entries) :
    r.requireSuccess.result = .ok () := by
  rw [requireSuccess, Run.result_bind, lists.success]
  rfl

theorem ListsEntries.lists_iff (lists : r.ListsEntries entries) {aggregates : List Aggregate} :
    r.Lists aggregates ↔ entries.mapM Aggregate.ofEntry = .ok aggregates := by
  rcases lists.body with ⟨t, fields, response, isText, parsed, under, listed⟩
  have same : Aggregate.ofBody (.record fields) = entries.mapM Aggregate.ofEntry := by
    simp only [Aggregate.ofBody, Value.fields?, under, Aggregate.ofValuesResponse, listed]
  rw [← same]
  refine ⟨fun h => ?_, fun h => ⟨t, _, isText, parsed, h⟩⟩
  rcases h with ⟨s, body, isTextToo, parsedToo, h⟩
  obtain rfl : t = s := Except.ok.inj (isText.symm.trans isTextToo)
  obtain rfl : Value.record fields = body := Except.ok.inj (parsed.symm.trans parsedToo)
  exact h

/-- A response with two lists of entries one behind the other has the aggregates of both. -/
theorem ListsEntries.result_ofResponse_append {first second both : Response}
    {front back : List Value} (listsFront : first.ListsEntries front)
    (listsBack : second.ListsEntries back) (listsBoth : both.ListsEntries (front ++ back))
    {aggregates others : List Aggregate}
    (found : (Aggregate.ofResponse first).result = .ok aggregates)
    (foundToo : (Aggregate.ofResponse second).result = .ok others) :
    (Aggregate.ofResponse both).result = .ok (aggregates ++ others) := by
  refine Aggregate.result_ofResponse_of_lists listsBoth.result_requireSuccess ?_
  rw [listsBoth.lists_iff, List.mapM_append,
    listsFront.lists_iff.mp (Aggregate.lists_of_result_ofResponse found),
    listsBack.lists_iff.mp (Aggregate.lists_of_result_ofResponse foundToo)]
  rfl

end Response

/-! ## Entries in a body -/

namespace Response

theorem listsEntries_ofValue [Limits] {entries : List Value}
    (readings : ∀ entry ∈ entries, Json.IsReading entry)
    (fits : (Aggregate.valuesResponse (.list entries)).depth ≤ Limits.commonValues)
    (shows : (Aggregate.valuesResponse (.list entries)).hidesItems = false) :
    (ofValue (Aggregate.valuesResponse (.list entries))).ListsEntries entries := by
  have reading := Aggregate.isReading_valuesResponse (.list readings)
  have parsed := Json.read_written_compact reading fits shows
  have isFound := ErrorEnvelope.result_find_of_read
    (r := ofValue (Aggregate.valuesResponse (.list entries))) rfl parsed (type_ofValue_ne_xml _)
  exact ⟨result_isInError isFound, _, _, _, rfl, parsed, rfl, rfl⟩

end Response

namespace ValueStore

theorem exists_result_ofResponse [Limits] {store : ValueStore} {r : Response}
    (h : (store.addContributions r).run.result = .ok ()) :
    ∃ aggregates, (Aggregate.ofResponse r).result = .ok aggregates := by
  cases found : (Aggregate.ofResponse r).result with
  | ok aggregates => exact ⟨aggregates, rfl⟩
  | error fault =>
      cases (store.fills_of_ofResponse_eq_error found).2.2.symm.trans h

/-- Filling with the entries of two responses one after the other is filling with all of them at
once. -/
theorem addContributions_append [Limits] (store : ValueStore) {first second both : Response}
    {front back : List Value} (listsFront : first.ListsEntries front)
    (listsBack : second.ListsEntries back) (listsBoth : both.ListsEntries (front ++ back))
    (filled : (store.addContributions first).run.result = .ok ())
    (filledToo : ((store.addContributions first).store.addContributions second).run.result = .ok ()) :
    (store.addContributions both).run.result = .ok () ∧
      (store.addContributions both).store =
        ((store.addContributions first).store.addContributions second).store := by
  rcases exists_result_ofResponse filled with ⟨aggregates, found⟩
  rcases exists_result_ofResponse filledToo with ⟨others, foundToo⟩
  have foundAll := listsFront.result_ofResponse_append listsBack listsBoth found foundToo
  rcases store.addContributions_of_ofResponse_eq_ok foundAll with ⟨storedAll, endedAll⟩
  rcases store.addContributions_of_ofResponse_eq_ok found with ⟨stored, ended⟩
  rcases (store.addContributions first).store.addContributions_of_ofResponse_eq_ok foundToo with
    ⟨storedToo, endedToo⟩
  rw [ended] at filled
  rw [List.flatMap_append, Filling.addAll_append _ filled, ← stored] at storedAll endedAll
  exact ⟨endedAll.trans (endedToo.symm.trans filledToo), storedAll.trans storedToo.symm⟩

/-- A store is filled with the parts of the aggregates in order.  Filling stops exactly at the first
part that is refused, with what came before it in the store, and it can be done at once or in two
turns. -/
theorem addContributions_inOrder [Limits] :
    (∀ (store : ValueStore) (r : Response) (aggregates : List Aggregate),
      (Aggregate.ofResponse r).result = .ok aggregates →
        store.IsFilledInOrder (aggregates.flatMap Aggregate.parts) (store.addContributions r).store
          (store.addContributions r).run.result ∧
        ((∃ fault, (store.addContributions r).run.result = .error fault) ↔
          ∃ part ∈ aggregates.flatMap Aggregate.parts, ∃ fault, Aggregate.IsRefusedFor part fault)) ∧
    ∀ (store : ValueStore) (first second both : Response) (front back : List Value),
      first.ListsEntries front → second.ListsEntries back → both.ListsEntries (front ++ back) →
      (store.addContributions first).run.result = .ok () →
      ((store.addContributions first).store.addContributions second).run.result = .ok () →
        (store.addContributions both).run.result = .ok () ∧
          (store.addContributions both).store =
            ((store.addContributions first).store.addContributions second).store := by
  constructor
  · intro store r aggregates found
    have readings := Aggregate.isReading_of_lists (Aggregate.lists_of_result_ofResponse found)
    rcases store.addContributions_of_ofResponse_eq_ok found with ⟨stored, ended⟩
    have inOrder : store.IsFilledInOrder (aggregates.flatMap Aggregate.parts)
        (store.addContributions r).store (store.addContributions r).run.result := by
      rw [stored, ended, Aggregate.flatMap_contributions]
      refine store.isFilledInOrder_addAll fun part member => ?_
      rcases List.mem_flatMap.mp member with ⟨a, among, member⟩
      exact Aggregate.isReading_of_mem_parts (readings a among).value member
    exact ⟨inOrder, inOrder.exists_error_iff⟩
  · intro store first second both front back listsFront listsBack listsBoth filled filledToo
    exact store.addContributions_append listsFront listsBack listsBoth filled filledToo

/-- A list of two values under a name. -/
def listEntries : List Value :=
  [Aggregate.entry "a" (.list [.text " 2", .null])]

/-- A text that is no number under the same name, and an empty list under another one. -/
def otherEntries : List Value :=
  [Aggregate.entry "a" (.text "x"), Aggregate.entry "b" (.list [])]

theorem isReading_of_mem_listEntries : ∀ entry ∈ listEntries, Json.IsReading entry := by
  intro entry member
  cases List.mem_singleton.mp member
  exact Aggregate.isReading_entry _ ⟨⟨trivial, trivial, trivial⟩, rfl⟩

theorem isReading_of_mem_otherEntries : ∀ entry ∈ otherEntries, Json.IsReading entry := by
  intro entry member
  rcases List.mem_cons.mp member with rfl | member
  · exact Aggregate.isReading_entry _ ⟨trivial, rfl⟩
  · cases List.mem_singleton.mp member
    exact Aggregate.isReading_entry _ ⟨trivial, rfl⟩

/-- A response with a list of entries. -/
def listingResponse (entries : List Value) : Response :=
  .ofValue (Aggregate.valuesResponse (.list entries))

open scoped Limits in
/-- A name that is no key stops the filling, and entries are added at once or in two turns. -/
theorem addContributions_inOrder_entries :
    (∃ aggregates, (Aggregate.ofResponse unnameableNumber).result = .ok aggregates ∧
      IsFilledInOrder [] (aggregates.flatMap Aggregate.parts)
        (addContributions [] unnameableNumber).store
        (addContributions [] unnameableNumber).run.result ∧
      ∃ part ∈ aggregates.flatMap Aggregate.parts, ∃ fault, Aggregate.IsRefusedFor part fault) ∧
    (addContributions [] (listingResponse (listEntries ++ otherEntries))).store =
      (addContributions (addContributions [] (listingResponse listEntries)).store
        (listingResponse otherEntries)).store := by
  constructor
  · have passes : (Aggregate.ofResponse unnameableNumber).result.isOk = true := by decide +kernel
    have refused : (addContributions [] unnameableNumber).run.result.isOk = false := by
      decide +kernel
    rcases exists_of_isOk passes with ⟨aggregates, found⟩
    rcases addContributions_inOrder.1 [] unnameableNumber aggregates found with ⟨inOrder, fails⟩
    exact ⟨aggregates, found, inOrder, fails.mp (exists_of_isOk_eq_false refused)⟩
  · have first : (listingResponse listEntries).ListsEntries listEntries :=
      Response.listsEntries_ofValue isReading_of_mem_listEntries (by decide)
        (by decide +kernel)
    have second : (listingResponse otherEntries).ListsEntries otherEntries :=
      Response.listsEntries_ofValue isReading_of_mem_otherEntries (by decide)
        (by decide +kernel)
    have both : (listingResponse (listEntries ++ otherEntries)).ListsEntries
        (listEntries ++ otherEntries) :=
      Response.listsEntries_ofValue
        (List.forall_mem_append.mpr ⟨isReading_of_mem_listEntries, isReading_of_mem_otherEntries⟩)
        (by decide) (by decide +kernel)
    have filled : (addContributions [] (listingResponse listEntries)).run.result = .ok () :=
      eq_ok_of_isOk (by decide +kernel)
    have filledToo : (addContributions (addContributions [] (listingResponse listEntries)).store
        (listingResponse otherEntries)).run.result = .ok () :=
      eq_ok_of_isOk (by decide +kernel)
    exact (addContributions_inOrder.2 [] _ _ _ _ _ first second both filled filledToo).2

end ValueStore

end DocumentGateway
