import DocumentGateway.Proofs.Response.AggregateForms
import DocumentGateway.Proofs.Response.KeptAnswers
import DocumentGateway.Proofs.Store.FirstNumber

namespace DocumentGateway

/-!
# Unknown keys

A field of an unknown name, wherever an object gains it, leaves every answer as it was, if there was
one.  The exceptions are objects that are given out themselves: suggestions as they are shown, and
the values of aggregates as they are collected.  An entry that gains a field has its aggregate, up to
what is in the name or the value, and this carries through lists and bodies to all that is asked of
the aggregates.
-/

variable {name : Text} {path : List PathStep} {body more : Value}

/-! ## Paths into values -/

/-- A path leads to the end of one of some paths, and perhaps further down. -/
def LeadsInto (fronts : List (List PathStep)) (path : List PathStep) : Prop :=
  ∃ front ∈ fronts, front <+: path

instance (fronts : List (List PathStep)) (path : List PathStep) : Decidable (LeadsInto fronts path) :=
  inferInstanceAs (Decidable (∃ front ∈ fronts, front <+: path))

theorem LeadsInto.below {fronts : List (List PathStep)} (h : LeadsInto fronts path)
    (above : List PathStep) : LeadsInto (fronts.map (above ++ ·)) (above ++ path) := by
  rcases h with ⟨front, member, isPrefix⟩
  exact ⟨above ++ front, List.mem_map_of_mem member, (List.prefix_append_right_inj above).mpr isPrefix⟩

theorem LeadsInto.append {fronts others : List (List PathStep)}
    (h : LeadsInto fronts path ∨ LeadsInto others path) : LeadsInto (fronts ++ others) path := by
  rcases h with ⟨front, member, isPrefix⟩ | ⟨front, member, isPrefix⟩
  · exact ⟨front, List.mem_append_left _ member, isPrefix⟩
  · exact ⟨front, List.mem_append_right _ member, isPrefix⟩

namespace Place

open PathStep

/-- Where the value of an entry stands. -/
def valueOfEntry : List (List PathStep) :=
  [[field "_value"], [field "value"]]

/-- Where the values of listed entries stand. -/
def valuesOfListing : List (List PathStep) :=
  valueOfEntry ++ valueOfEntry.map ([member] ++ ·)

/-- Where the values in a values response stand. -/
def valuesOfValuesResponse : List (List PathStep) :=
  valuesOfListing.map ([field "aggregate-result"] ++ ·)

/-- Where the values of listed aggregates stand. -/
def valuesOfAggregates : List (List PathStep) :=
  valuesOfValuesResponse.map ([field "values-response"] ++ ·)

end Place

/-! ## Aggregates -/

/-- A value is kept, or, where it may change, an object or a list takes the place of another. -/
def Value.IsKept (inside : Prop) (v w : Value) : Prop :=
  w = v ∨ inside ∧ v.IsCollection ∧ w.IsCollection

theorem Value.IsKept.mono {inside wider : Prop} {v w : Value} (kept : v.IsKept inside w)
    (h : inside → wider) : v.IsKept wider w :=
  kept.imp_right (And.imp_left h)

/-- What is no object and no list is kept. -/
theorem Value.IsKept.eq {inside : Prop} {v w : Value} (kept : v.IsKept inside w)
    (simple : ¬ v.IsCollection) : w = v :=
  kept.resolve_right fun changed => simple changed.2.1

namespace Aggregate

/-- An aggregate is kept, but for an object or a list as its name, and as its value where this may
change. -/
structure IsKept (inside : Prop) (a b : Aggregate) : Prop where
  name : a.name.IsKept True b.name
  value : a.value.IsKept inside b.value

theorem eq_of_name_of_value {a b : Aggregate} (name : b.name = a.name) (value : b.value = a.value) :
    b = a := by
  rcases a with ⟨_, _⟩
  rcases b with ⟨_, _⟩
  cases name
  cases value
  rfl

theorem isKept_refl (inside : Prop) (a : Aggregate) : a.IsKept inside a :=
  ⟨Or.inl rfl, Or.inl rfl⟩

theorem IsKept.mono {inside wider : Prop} {a b : Aggregate} (kept : a.IsKept inside b)
    (h : inside → wider) : a.IsKept wider b :=
  ⟨kept.name, kept.value.mono h⟩

/-- The value of an entry, under the first of the two names for values that it has. -/
def entryValue (fields : Record) : Value :=
  (fields.get? "_value" <|> fields.get? "value").getD .null

theorem entryValue_of_some {fields : Record} {v : Value} (under : fields.get? "_value" = some v) :
    entryValue fields = v := by
  rw [entryValue, under]
  rfl

theorem entryValue_of_none {fields : Record} {v : Value} (none : fields.get? "_value" = none)
    (under : fields.get? "value" = some v) : entryValue fields = v := by
  rw [entryValue, none, under]
  rfl

theorem entryValue_congr {fields others : Record}
    (first : others.get? "_value" = fields.get? "_value")
    (second : others.get? "value" = fields.get? "value") :
    entryValue others = entryValue fields := by
  rw [entryValue, entryValue, first, second]

theorem ofEntry_record_eq_ok_iff {fields : Record} {a : Aggregate} :
    ofEntry (.record fields) = .ok a ↔
      fields.get? "name" = some a.name ∧ a.value = entryValue fields := by
  rcases a with ⟨name, value⟩
  simp only [ofEntry, Value.fields?]
  cases fields.get? "name" with
  | none => simp
  | some own => simp [entryValue, eq_comm]

theorem isKept_entryValue {fields others : Record}
    (gains : Value.Gains name path (.record fields) (.record others))
    (away : (path, name) ∉ Place.ofEntry) :
    (entryValue fields).IsKept (LeadsInto Place.valueOfEntry path) (entryValue others) := by
  rcases gains.exists_fields with ⟨_, ⟨⟩, kept⟩
  rcases kept "_value" (ne_of_mem_of_not_mem (by decide) away).symm with
    first | ⟨rest, old, new, rfl, was, is, inner⟩
  · rcases kept "value" (ne_of_mem_of_not_mem (by decide) away).symm with
      second | ⟨rest, old, new, rfl, was, is, inner⟩
    · exact Or.inl (entryValue_congr first second)
    · cases under : OrderedPairs.get? fields "_value" with
      | some v =>
          refine Or.inl ?_
          rw [entryValue_of_some under, entryValue_of_some (first.trans under)]
      | none =>
          rw [entryValue_of_none under was, entryValue_of_none (first.trans under) is]
          exact Or.inr ⟨⟨[.field "value"], by decide, rest, rfl⟩, inner.isCollection⟩
  · rw [entryValue_of_some was, entryValue_of_some is]
    exact Or.inr ⟨⟨[.field "_value"], by decide, rest, rfl⟩, inner.isCollection⟩

/-- An entry that gains a field elsewhere has its aggregate. -/
theorem exists_isKept_of_keeps {entry other : Value} (keeps : Value.Keeps name path entry other)
    (away : (path, name) ∉ Place.ofEntry) {a : Aggregate} (h : ofEntry entry = .ok a) :
    ∃ b, ofEntry other = .ok b ∧ a.IsKept (LeadsInto Place.valueOfEntry path) b := by
  cases keeps with
  | same => exact ⟨a, h, isKept_refl _ a⟩
  | gains inner =>
      cases entry with
      | record fields =>
          rcases inner.exists_fields with ⟨others, rfl, kept⟩
          rcases ofEntry_record_eq_ok_iff.mp h with ⟨isName, isValue⟩
          have value := isKept_entryValue inner away
          rw [← isValue] at value
          rcases kept "name" (ne_of_mem_of_not_mem (by decide) away).symm with
            same | ⟨_, old, new, _, was, is, deeper⟩
          · exact ⟨⟨a.name, entryValue others⟩, ofEntry_record_eq_ok_iff.mpr ⟨same.trans isName, rfl⟩,
              Or.inl rfl, value⟩
          · cases was.symm.trans isName
            exact ⟨⟨new, entryValue others⟩, ofEntry_record_eq_ok_iff.mpr ⟨is, rfl⟩,
              Or.inr ⟨trivial, deeper.isCollection⟩, value⟩
      | list items => cases h
      | _ => exact inner.isCollection.1.elim

theorem exists_isKept_of_mapM {entries others : List Value}
    (kept : List.Forall₂ (Value.Keeps name path) entries others)
    (away : (path, name) ∉ Place.ofEntry) {aggregates : List Aggregate}
    (h : entries.mapM ofEntry = .ok aggregates) :
    ∃ more, others.mapM ofEntry = .ok more ∧
      List.Forall₂ (IsKept (LeadsInto Place.valueOfEntry path)) aggregates more := by
  have each := mapM_eq_ok_iff.mp h
  clear h
  induction kept generalizing aggregates with
  | nil =>
      cases each
      exact ⟨[], rfl, .nil⟩
  | cons keeps _ ih =>
      cases each with
      | cons first others =>
          rcases exists_isKept_of_keeps keeps away first with ⟨b, isEntry, isKept⟩
          rcases ih others with ⟨more, entries, areKept⟩
          refine ⟨b :: more, ?_, .cons isKept areKept⟩
          rw [List.mapM_cons, isEntry, entries]
          rfl

/-- What a values response lists. -/
def ofListing (listing : Value) : Except FormatFault (List Aggregate) :=
  match listing with
  | .list entries => entries.mapM ofEntry
  | v => if v.fields?.isSome then [v].mapM ofEntry else .error .valuesResponse

theorem ofBody_of_get? {fields : Record} {listed : Value}
    (under : fields.get? "values-response" = some listed) :
    ofBody (.record fields) = ofValuesResponse listed := by
  simp only [ofBody, Value.fields?, under]

theorem ofValuesResponse_of_get? {fields : Record} {listing : Value}
    (under : fields.get? "aggregate-result" = some listing) :
    ofValuesResponse (.record fields) = ofListing listing := by
  simp only [ofValuesResponse, Value.fields?, under]
  cases listing <;> rfl

theorem ofValuesResponse_congr {fields others : Record}
    (same : others.get? "aggregate-result" = fields.get? "aggregate-result") :
    ofValuesResponse (.record others) = ofValuesResponse (.record fields) := by
  simp only [ofValuesResponse, Value.fields?, same]

theorem forall₂_isKept_refl (inside : Prop) (aggregates : List Aggregate) :
    List.Forall₂ (IsKept inside) aggregates aggregates :=
  List.forall₂_same.mpr fun a _ => isKept_refl inside a

/-- A listing that gains a field elsewhere has its aggregates. -/
theorem exists_isKept_of_listing {listing other : Value}
    (gains : Value.Gains name path listing other) (away : (path, name) ∉ Place.ofListing)
    {aggregates : List Aggregate} (h : ofListing listing = .ok aggregates) :
    ∃ more, ofListing other = .ok more ∧
      List.Forall₂ (IsKept (LeadsInto Place.valuesOfListing path)) aggregates more := by
  cases listing with
  | list entries =>
      rcases gains.exists_items with ⟨rest, others, rfl, rfl, kept⟩
      have apart : (rest, name) ∉ Place.ofEntry := fun member =>
        away (List.mem_append_right _ (Place.mem_below [.member] member))
      rcases exists_isKept_of_mapM kept apart h with ⟨more, found, areKept⟩
      refine ⟨more, found, areKept.imp fun a b kept => kept.mono fun inside => ?_⟩
      exact .append (Or.inr (inside.below [.member]))
  | record fields =>
      have alone : List.Forall₂ (Value.Keeps name path) [.record fields] [other] :=
        .cons (.gains gains) .nil
      have apart : (path, name) ∉ Place.ofEntry := fun member =>
        away (List.mem_append_left _ member)
      rcases exists_isKept_of_mapM alone apart h with ⟨more, found, areKept⟩
      rcases gains.exists_fields with ⟨others, rfl, -⟩
      exact ⟨more, found, areKept.imp fun a b kept => kept.mono fun inside => .append (Or.inl inside)⟩
  | _ => exact gains.isCollection.1.elim

/-- A values response that gains a field elsewhere has its aggregates. -/
theorem exists_isKept_of_valuesResponse {response other : Value}
    (gains : Value.Gains name path response other) (away : (path, name) ∉ Place.ofValuesResponse)
    {aggregates : List Aggregate} (h : ofValuesResponse response = .ok aggregates) :
    ∃ more, ofValuesResponse other = .ok more ∧
      List.Forall₂ (IsKept (LeadsInto Place.valuesOfValuesResponse path)) aggregates more := by
  cases response with
  | record fields =>
      rcases gains.exists_fields with ⟨others, rfl, kept⟩
      rcases kept "aggregate-result" (ne_of_mem_of_not_mem (by decide) away).symm with
        same | ⟨rest, listing, wider, rfl, was, is, inner⟩
      · exact ⟨aggregates, (ofValuesResponse_congr same).trans h, forall₂_isKept_refl _ _⟩
      · rw [ofValuesResponse_of_get? was] at h
        rw [ofValuesResponse_of_get? is]
        have apart : (rest, name) ∉ Place.ofListing := fun member =>
          away (List.mem_append_right _ (Place.mem_below [.field "aggregate-result"] member))
        rcases exists_isKept_of_listing inner apart h with ⟨more, found, areKept⟩
        exact ⟨more, found, areKept.imp fun a b kept => kept.mono fun inside => inside.below _⟩
  | list items => cases h
  | _ => exact gains.isCollection.1.elim

/-- A body with a values response that gains a field elsewhere has its aggregates. -/
theorem exists_isKept_of_body {fields : Record} {listed : Value}
    (gains : Value.Gains name path (.record fields) more)
    (under : fields.get? "values-response" = some listed)
    (away : (path, name) ∉ Place.ofAggregates) {aggregates : List Aggregate}
    (h : ofBody (.record fields) = .ok aggregates) :
    ∃ others, ofBody more = .ok others ∧
      List.Forall₂ (IsKept (LeadsInto Place.valuesOfAggregates path)) aggregates others := by
  rcases gains.exists_fields with ⟨wider, rfl, kept⟩
  rcases kept "values-response" (ne_of_mem_of_not_mem (by decide) away).symm with
    same | ⟨rest, old, new, rfl, was, is, inner⟩
  · rw [ofBody_of_get? under] at h
    exact ⟨aggregates, (ofBody_of_get? (same.trans under)).trans h, forall₂_isKept_refl _ _⟩
  · rw [ofBody_of_get? was] at h
    rw [ofBody_of_get? is]
    have apart : (rest, name) ∉ Place.ofValuesResponse := fun member =>
      away (List.mem_append_right _ (List.mem_append_right _
        (Place.mem_below [.field "values-response"] member)))
    rcases exists_isKept_of_valuesResponse inner apart h with ⟨others, found, areKept⟩
    exact ⟨others, found, areKept.imp fun a b kept => kept.mono fun inside => inside.below _⟩

/-! ### What is told of aggregates that are kept -/

section

variable {inside : Prop} {a b : Aggregate}

theorem IsKept.isNamed (kept : a.IsKept inside b) (name : Text) : b.isNamed name = a.isNamed name := by
  rcases kept.name with same | ⟨-, first, second⟩
  · rw [Aggregate.isNamed, Aggregate.isNamed, same]
  · rw [Bool.eq_iff_iff, isNamed_iff, isNamed_iff]
    refine iff_of_false (fun isText => ?_) fun isText => ?_
    · rw [isText] at second
      exact second.elim
    · rw [isText] at first
      exact first.elim

/-- An object or a list is no number. -/
theorem not_isCollection_of_number {x : Binary64} (h : a.number = .ok x) : ¬ a.value.IsCollection := by
  rcases a with ⟨name, value⟩
  intro isCollection
  cases value with
  | list items => cases h
  | record fields => cases h
  | _ => exact isCollection

/-- The number of an aggregate is kept. -/
theorem IsKept.number (kept : a.IsKept inside b) {x : Binary64} (h : a.number = .ok x) :
    b.number = .ok x := by
  have same := kept.value.eq (not_isCollection_of_number h)
  rcases a with ⟨name, value⟩
  rcases b with ⟨_, _⟩
  cases same
  cases value with
  | text t =>
      cases spelled : readNumber? t with
      | some y =>
          simp only [Aggregate.number, spelled] at h ⊢
          exact h
      | none =>
          simp only [Aggregate.number, spelled] at h
          cases h
  | int _ | float _ | ownNan => exact h
  | _ => cases h

/-- An object or a list is no key. -/
theorem not_isCollection_of_asKey {v : Value} {key : Key} (h : v.asKey = .ok key) :
    ¬ v.IsCollection := by
  intro isCollection
  cases v with
  | list items => cases h
  | record fields => cases h
  | _ => exact isCollection

theorem fst_of_mem_contributions {named : Value × Except Fault Value}
    (member : named ∈ a.contributions) : named.1 = a.name := by
  rcases a with ⟨name, value⟩
  cases value with
  | list items =>
      rcases List.mem_map.mp member with ⟨item, -, rfl⟩
      rfl
  | _ =>
      cases List.mem_singleton.mp member
      rfl

/-- What an aggregate contributes is kept, if all of it can be added and its value is kept.  Without
a key as its name it contributes nothing. -/
theorem IsKept.contributions (kept : a.IsKept False b)
    (added : ∀ named ∈ a.contributions, ∃ entry, ValueStore.entryOf named = .ok entry) :
    b.contributions = a.contributions := by
  have value : b.value = a.value := kept.value.resolve_right fun changed => changed.1
  rcases kept.name with name | ⟨-, isCollection, -⟩
  · rw [eq_of_name_of_value name value]
  · have nothing : a.contributions = [] := by
      refine List.eq_nil_iff_forall_not_mem.mpr fun named member => ?_
      rcases added named member with ⟨entry, isEntry⟩
      rcases exists_of_bind_eq_ok isEntry with ⟨_, -, named⟩
      rcases exists_of_map_eq_ok named with ⟨key, isKey, -⟩
      rw [fst_of_mem_contributions member] at isKey
      exact not_isCollection_of_asKey (eq_ok_of_mapError_eq_ok isKey) isCollection
    rcases a with ⟨own, content⟩
    rcases b with ⟨other, _⟩
    cases value
    cases content with
    | list items =>
        obtain rfl : items = [] := List.map_eq_nil_iff.mp nothing
        rfl
    | _ => cases nothing

/-- An aggregate that is added as a number is kept. -/
theorem IsKept.eq_of_isAddedAs (kept : a.IsKept inside b) {entry : Key × Value}
    (added : a.IsAddedAs entry) : b = a := by
  rcases added with ⟨isKey, x, isNumber, -⟩
  apply eq_of_name_of_value
  · exact kept.name.eq (not_isCollection_of_asKey isKey)
  · exact kept.value.eq (not_isCollection_of_number isNumber)

end

end Aggregate

/-- Of two lists that agree member by member, the first members that are sought agree. -/
theorem exists_find?_of_forall₂ {R : α → β → Prop} {p : α → Bool} {q : β → Bool} {xs : List α}
    {ys : List β} (agree : ∀ x y, R x y → q y = p x) (each : List.Forall₂ R xs ys) {x : α}
    (found : xs.find? p = some x) : ∃ y, ys.find? q = some y ∧ R x y := by
  induction each with
  | nil => cases found
  | @cons first other xs ys both _ ih =>
      rw [List.find?_cons, agree first other both]
      rw [List.find?_cons] at found
      cases holds : p first with
      | true =>
          rw [holds] at found
          cases found
          exact ⟨other, rfl, both⟩
      | false =>
          rw [holds] at found
          exact ih found

/-! ## Answers from aggregates -/

theorem Run.Keeps.exists_ok {run other : Run α} (keeps : run.Keeps other)
    (isOk : run.result.isOk = true) : ∃ a, run.result = .ok a ∧ other.result = .ok a := by
  rcases exists_of_isOk isOk with ⟨a, found⟩
  exact ⟨a, found, keeps found⟩

namespace Response

theorem requireSuccess_of_ofResponse [Limits] {r : Response} {aggregates : List Aggregate}
    (found : (Aggregate.ofResponse r).result = .ok aggregates) :
    r.requireSuccess.result = .ok () := by
  rw [Aggregate.ofResponse, Run.result_bind] at found
  rcases exists_of_bind_eq_ok found with ⟨_, success, -⟩
  exact success

section

variable [Limits] {r s : Response} (bodies : r.HaveBodies s body more)
  (gains : Value.Gains name path body more) (away : (path, name) ∉ Place.ofAggregates)
  (listed : body.Has "values-response")

include bodies gains away listed

/-- The aggregates of a response, and those with the field. -/
theorem HaveBodies.exists_isKept {aggregates : List Aggregate}
    (found : (Aggregate.ofResponse r).result = .ok aggregates) :
    ∃ others, (Aggregate.ofResponse s).result = .ok others ∧
      List.Forall₂ (Aggregate.IsKept (LeadsInto Place.valuesOfAggregates path)) aggregates others := by
  rcases Aggregate.lists_of_result_ofResponse found with ⟨t, own, isText, parsed, ofBody⟩
  obtain rfl : own = body := Holds.eq ⟨t, isText, parsed⟩ bodies.first
  rcases listed with ⟨fields, response, rfl, under⟩
  rcases Aggregate.exists_isKept_of_body gains under away ofBody with ⟨others, ofMore, kept⟩
  rcases bodies.second with ⟨u, isTextToo, parsedToo⟩
  exact ⟨others, Aggregate.result_ofResponse_of_lists
    (bodies.requireSuccess gains (Place.not_mem_ofError away) (requireSuccess_of_ofResponse found))
    ⟨u, more, isTextToo, parsedToo, ofMore⟩, kept⟩

theorem HaveBodies.aggregateNumber (sought : Text) :
    (r.aggregateNumber sought).Keeps (s.aggregateNumber sought) := by
  intro x h
  cases found : (Aggregate.ofResponse r).result with
  | error fault =>
      rw [Response.aggregateNumber, Run.result_timed, Run.result_bind, found] at h
      cases h
  | ok aggregates =>
      rcases bodies.exists_isKept gains away listed found with ⟨others, foundToo, kept⟩
      rw [result_aggregateNumber found] at h
      rw [result_aggregateNumber foundToo]
      cases first : aggregates.find? (·.isNamed sought) with
      | none =>
          rw [first] at h
          cases h
      | some a =>
          rw [first] at h
          rcases exists_find?_of_forall₂ (fun a b kept => kept.isNamed sought) kept first with
            ⟨b, firstToo, isKept⟩
          rw [firstToo]
          exact isKept.number h

theorem HaveBodies.addNumbers (store : ValueStore) :
    (store.addNumbers r).Keeps (store.addNumbers s) := by
  intro filled
  rcases ValueStore.exists_isAddedAs_of_addNumbers filled with ⟨aggregates, entries, found, added, -⟩
  rcases bodies.exists_isKept gains away listed found with ⟨others, foundToo, kept⟩
  have are : ∀ a ∈ aggregates, ∃ entry, a.IsAddedAs entry :=
    ((List.forall₂_and_left _ _).mp (added.imp fun a entry isAdded => ⟨⟨entry, isAdded⟩, isAdded⟩)).1
  have same : aggregates = others := by
    rw [← List.forall₂_eq_eq_eq]
    refine ((List.forall₂_and_left _ _).mpr ⟨are, kept⟩).imp fun a b both => ?_
    rcases both with ⟨⟨entry, isAdded⟩, isKept⟩
    exact (isKept.eq_of_isAddedAs isAdded).symm
  rw [← same, ← found] at foundToo
  rcases (AgreesWith.of_result_ofResponse foundToo).numbers store with ⟨stored, ended⟩
  exact ⟨ended.trans filled, stored⟩

theorem HaveBodies.addContributions (outside : ¬ LeadsInto Place.valuesOfAggregates path)
    (store : ValueStore) : (store.addContributions r).Keeps (store.addContributions s) := by
  intro filled
  cases found : (Aggregate.ofResponse r).result with
  | error fault => cases (store.fills_of_ofResponse_eq_error found).2.2.symm.trans filled
  | ok aggregates =>
      rcases bodies.exists_isKept gains away listed found with ⟨others, foundToo, kept⟩
      rcases store.addContributions_of_ofResponse_eq_ok found with ⟨stored, ended⟩
      rcases store.addContributions_of_ofResponse_eq_ok foundToo with ⟨storedToo, endedToo⟩
      have added := Filling.exists_entryOf_of_result_addAll (ended.symm.trans filled)
      have same : aggregates.map Aggregate.contributions = others.map Aggregate.contributions := by
        rw [← List.forall₂_eq_eq_eq, List.forall₂_map_left_iff, List.forall₂_map_right_iff]
        refine ((List.forall₂_and_left _ _).mpr ⟨fun _ => id, kept⟩).imp fun a b both => ?_
        refine ((both.2.mono outside).contributions fun named member => ?_).symm
        exact added named (List.mem_flatMap.mpr ⟨a, both.1, member⟩)
      have contributed : others.flatMap Aggregate.contributions =
          aggregates.flatMap Aggregate.contributions := congrArg List.flatten same.symm
      rw [storedToo, stored, endedToo, contributed, ← ended]
      exact ⟨filled, rfl⟩

end

/-! ## All answers -/

theorem haveBodies_ofValue [Limits] {v w : Value} (reading : Json.IsReading v)
    (readingToo : Json.IsReading w) (fits : v.depth ≤ Limits.commonValues)
    (fitsToo : w.depth ≤ Limits.commonValues) (shows : v.hidesItems = false)
    (showsToo : w.hidesItems = false) :
    (ofValue v).HaveBodies (ofValue w) v w where
  type := rfl
  status := rfl
  first := ⟨_, rfl, Json.read_written_compact reading fits shows⟩
  second := ⟨_, rfl, Json.read_written_compact readingToo fitsToo showsToo⟩
  readable := nofun

/-- A body with suggestions, permissions and the entry of an aggregate. -/
def answeringBody (entry : Value) : Value :=
  .record [(.text "suggestions", .list [.text "a"]),
    (.text "permissions", .list [.record [(.text "role-name", .text "r"),
      (.text "capabilities", .list [.text "read"])]]),
    (.text "values-response", .record [(.text "aggregate-result", entry)])]

theorem isReading_answeringBody {entry : Value} (reading : Json.IsReading entry) :
    Json.IsReading (answeringBody entry) where
  plain := by
    refine ⟨⟨["suggestions", "permissions", "values-response"], rfl, by decide⟩, ⟨trivial, trivial⟩,
      ?_, ⟨⟨["aggregate-result"], rfl, by decide⟩, reading.plain, trivial⟩, trivial⟩
    exact ⟨⟨⟨["role-name", "capabilities"], rfl, by decide⟩, trivial, ⟨trivial, trivial⟩, trivial⟩,
      trivial⟩
  same := congrArg answeringBody reading.same

/-- An entry with one field more. -/
def widerEntry : Value :=
  .record [(.text "name", .text "b"), (.text "get", .null), (.text "_value", .text "3")]

theorem isReading_widerEntry : Json.IsReading widerEntry :=
  ⟨⟨⟨["name", "get", "_value"], rfl, by decide⟩, trivial, trivial, trivial, trivial⟩, rfl⟩

/-- A response that answers, and one with the field. -/
def answers : Response :=
  ofValue (answeringBody (Aggregate.entry "b" (.text "3")))

def widerAnswers : Response :=
  ofValue (answeringBody widerEntry)

theorem gains_answeringBody : Value.Gains "get"
    [.field "values-response", .field "aggregate-result"]
    (answeringBody (Aggregate.entry "b" (.text "3"))) (answeringBody widerEntry) :=
  @Value.Gains.field "get" _ "values-response" _ _ [_, _] []
    (@Value.Gains.field "get" _ "aggregate-result" _ _ [] []
      (@Value.Gains.here "get" [(.text "name", .text "b")] [(.text "_value", .text "3")] .null))

section

open scoped Limits

theorem haveBodies_answers : answers.HaveBodies widerAnswers
    (answeringBody (Aggregate.entry "b" (.text "3"))) (answeringBody widerEntry) :=
  haveBodies_ofValue (isReading_answeringBody (Aggregate.isReading_entry _ ⟨trivial, rfl⟩))
    (isReading_answeringBody isReading_widerEntry) (by decide) (by decide) (by decide +kernel)
    (by decide +kernel)

/-- An error with one field more in its envelope. -/
def errorBody (others : Record) : Value :=
  .record [(.text "errorResponse", .record ((.text "message", .text "c") :: others))]

theorem gains_errorBody :
    Value.Gains "get" [.field "errorResponse"] (errorBody []) (errorBody [(.text "get", .null)]) :=
  @Value.Gains.field "get" _ "errorResponse" _ _ [] []
    (@Value.Gains.here "get" [(.text "message", .text "c")] [] .null)

theorem haveBodies_errorBody : (ofValue (errorBody [])).HaveBodies
    (ofValue (errorBody [(.text "get", .null)])) (errorBody []) (errorBody [(.text "get", .null)]) := by
  refine haveBodies_ofValue ⟨?_, rfl⟩ ⟨?_, rfl⟩ (by decide) (by decide) (by decide +kernel)
    (by decide +kernel)
  · exact ⟨⟨["errorResponse"], rfl, by decide⟩,
      ⟨⟨["message"], rfl, by decide⟩, trivial, trivial⟩, trivial⟩
  · exact ⟨⟨["errorResponse"], rfl, by decide⟩,
      ⟨⟨["message", "get"], rfl, by decide⟩, trivial, trivial, trivial⟩, trivial⟩

/-- A body with one suggestion. -/
def suggestionBody (suggestion : Value) : Value :=
  .record [(.text "suggestions", .list [suggestion])]

theorem isReading_suggestionBody {suggestion : Value} (reading : Json.IsReading suggestion) :
    Json.IsReading (suggestionBody suggestion) where
  plain := ⟨⟨["suggestions"], rfl, by decide⟩, ⟨reading.plain, trivial⟩, trivial⟩
  same := congrArg suggestionBody reading.same

/-- A body with one aggregate. -/
def aggregateBody (value : Value) : Value :=
  Aggregate.valuesResponse (Aggregate.entry "b" value)

theorem isReading_aggregateBody {value : Value} (reading : Json.IsReading value) :
    Json.IsReading (aggregateBody value) :=
  Aggregate.isReading_valuesResponse (Aggregate.isReading_entry _ reading)

/-- An object with one field. -/
def oneField : Value :=
  .record [(.text "a", .int 1)]

theorem isReading_oneField : Json.IsReading oneField :=
  ⟨⟨⟨["a"], rfl, by decide⟩, (by decide +kernel : digitCount 1 ≤ Json.digitLimit), trivial⟩, rfl⟩

theorem isReading_noField : Json.IsReading (.record []) :=
  ⟨⟨.nil, trivial⟩, rfl⟩

theorem gains_oneField : Value.Gains "a" [] (.record []) oneField :=
  @Value.Gains.here "a" [] [] (.int 1)

/-- A suggestion is shown with all its fields. -/
theorem exists_not_keeps_suggestions : ∃ (r s : Response) (body more : Value) (path : List PathStep),
    r.HaveBodies s body more ∧ Value.Gains "a" path body more ∧
      (path, Text.ofString "a") ∉ Place.ofSuggestions ∧ ¬ r.suggestions.Keeps s.suggestions := by
  have gains : Value.Gains "a" [.field "suggestions", .member] (suggestionBody (.record []))
      (suggestionBody oneField) :=
    @Value.Gains.field "a" _ "suggestions" _ _ [] []
      (@Value.Gains.member "a" _ _ _ [] [] gains_oneField)
  refine ⟨ofValue (suggestionBody (.record [])), ofValue (suggestionBody oneField), _, _, _, ?_,
    gains, by decide, fun keeps => ?_⟩
  · exact haveBodies_ofValue (isReading_suggestionBody isReading_noField)
      (isReading_suggestionBody isReading_oneField) (by decide) (by decide) (by decide +kernel)
      (by decide +kernel)
  · have shown : (ofValue (suggestionBody (.record []))).suggestions.result.toOption =
        some [Text.ofString "\x7b\x7d"] := by decide +kernel
    have shownToo : (ofValue (suggestionBody oneField)).suggestions.result.toOption =
        some [Text.ofString "\x7b'a': 1\x7d"] := by decide +kernel
    rw [keeps (eq_ok_of_toOption_eq_some shown)] at shownToo
    revert shownToo
    decide +kernel

/-- The value of an aggregate is collected with all its fields. -/
theorem exists_not_keeps_contributions : ∃ (r s : Response) (body more : Value)
    (path : List PathStep), r.HaveBodies s body more ∧ Value.Gains "a" path body more ∧
      (path, Text.ofString "a") ∉ Place.ofAggregates ∧ body.Has "values-response" ∧
        ¬ (ValueStore.addContributions [] r).Keeps (ValueStore.addContributions [] s) := by
  have gains : Value.Gains "a"
      [.field "values-response", .field "aggregate-result", .field "_value"]
      (aggregateBody (.record [])) (aggregateBody oneField) :=
    @Value.Gains.field "a" _ "values-response" _ _ [] []
      (@Value.Gains.field "a" _ "aggregate-result" _ _ [] []
        (@Value.Gains.field "a" _ "_value" _ _ [_] [] gains_oneField))
  refine ⟨ofValue (aggregateBody (.record [])), ofValue (aggregateBody oneField), _, _, _, ?_,
    gains, by decide, ⟨_, _, rfl, rfl⟩, fun keeps => ?_⟩
  · exact haveBodies_ofValue (isReading_aggregateBody isReading_noField)
      (isReading_aggregateBody isReading_oneField) (by decide) (by decide) (by decide +kernel)
      (by decide +kernel)
  · rcases keeps (eq_ok_of_isOk (by decide +kernel)) with ⟨-, same⟩
    -- The object is filled in one of the stores only.
    have kept := congrArg (fun store : ValueStore =>
      (store.first (.text "b")).toOption.any Value.isFilled) same
    revert kept
    decide +kernel

end

end Response

end DocumentGateway
