import DocumentGateway.Proofs.Store.Filling

namespace DocumentGateway

/-!
# Numbers and other contributions

How far named values can be added to a store, and how adding them ends, does not depend on the
store.  A scalar aggregate contributes the number that it is, so that filling with contributions
and filling with numbers are one wherever all aggregates are scalar.  Where they are not, numbers
are refused before anything is added.
-/

/-! ## Adding as far as possible -/

namespace ValueStore

/-- Add an entry. -/
def addEntry (store : ValueStore) (entry : Key × Value) : ValueStore :=
  OrderedPairs.put store entry.1 ((store.get? entry.1).getD [] ++ [entry.2])

/-- The entries of named values, up to the first of them that cannot be added. -/
def leadingEntries : List (Value × Except Fault Value) → List (Key × Value)
  | [] => []
  | named :: rest =>
    match entryOf named with
    | .ok entry => entry :: leadingEntries rest
    | .error _ => []

end ValueStore

namespace Filling

/-- Adding named values adds the entries that can be added, one by one. -/
theorem store_addAll (store : ValueStore) (known : List (Value × Except Fault Value)) :
    (addAll store known).store = (ValueStore.leadingEntries known).foldl ValueStore.addEntry store := by
  induction known generalizing store with
  | nil => rfl
  | cons named rest ih =>
      have added := store.bind_add_of_entryOf named
      rw [addAll, ValueStore.leadingEntries]
      cases found : ValueStore.entryOf named with
      | error fault =>
          rw [found] at added
          simp only [added]
          rfl
      | ok entry =>
          rw [found] at added
          simp only [added]
          exact ih _

/-- Adding named values ends as the first of them that cannot be added, whatever is in the store. -/
theorem result_addAll (store : ValueStore) (known : List (Value × Except Fault Value)) :
    (addAll store known).result = (known.mapM ValueStore.entryOf).map fun _ => () := by
  induction known generalizing store with
  | nil => rfl
  | cons named rest ih =>
      have added := store.bind_add_of_entryOf named
      rw [addAll, List.mapM_cons]
      cases found : ValueStore.entryOf named with
      | error fault =>
          rw [found] at added
          simp only [added]
          rfl
      | ok entry =>
          rw [found] at added
          simp only [added]
          refine (ih _).trans ?_
          cases rest.mapM ValueStore.entryOf <;> rfl

/-- When all named values were added, each of them has an entry. -/
theorem exists_entryOf_of_result_addAll {store : ValueStore}
    {known : List (Value × Except Fault Value)} (h : (addAll store known).result = .ok ()) :
    ∀ named ∈ known, ∃ entry, ValueStore.entryOf named = .ok entry := by
  rw [result_addAll] at h
  rcases exists_of_map_eq_ok h with ⟨entries, found, -⟩
  exact exists_of_mem_of_mapM_eq_ok found

end Filling

/-! ## What aggregates contribute -/

namespace Aggregate

/-- An aggregate of which the name and the value are readings. -/
structure IsReading (a : Aggregate) : Prop where
  name : Json.IsReading a.name
  value : Json.IsReading a.value

theorem isReading_of_ofEntry {entry : Value} {a : Aggregate} (reading : Json.IsReading entry)
    (h : ofEntry entry = .ok a) : a.IsReading := by
  unfold ofEntry at h
  split at h
  · cases h
  · next fields has =>
      obtain rfl : entry = .record fields := (reading.eq_record has).1
      split at h
      · cases h
      · next name named =>
          cases h
          refine ⟨reading.of_get? named, ?_⟩
          dsimp only
          cases under : fields.get? "_value" with
          | some v => exact reading.of_get? under
          | none =>
              cases instead : fields.get? "value" with
              | some v => exact reading.of_get? instead
              | none => exact ⟨trivial, rfl⟩

theorem isReading_of_mapM_ofEntry {entries : List Value} {aggregates : List Aggregate}
    (readings : ∀ entry ∈ entries, Json.IsReading entry)
    (h : entries.mapM ofEntry = .ok aggregates) : ∀ a ∈ aggregates, a.IsReading := by
  have each := mapM_eq_ok_iff.mp h
  clear h
  induction each with
  | nil => exact fun a member => absurd member List.not_mem_nil
  | cons first _ ih =>
      rcases List.forall_mem_cons.mp readings with ⟨reading, others⟩
      exact List.forall_mem_cons.mpr ⟨isReading_of_ofEntry reading first, ih others⟩

/-- The names and the values of the aggregates in a body that was read are readings. -/
theorem isReading_of_ofBody {body : Value} {aggregates : List Aggregate}
    (reading : Json.IsReading body) (h : ofBody body = .ok aggregates) :
    ∀ a ∈ aggregates, a.IsReading := by
  unfold ofBody at h
  split at h
  · cases h
  · next fields has =>
      rcases reading.eq_record has with ⟨rfl, values⟩
      split at h
      · next response under =>
          have inner := reading.of_get? under
          unfold ofValuesResponse at h
          split at h
          · cases h
          · next results hasResults =>
              obtain rfl : response = .record results := (inner.eq_record hasResults).1
              split at h
              · cases h
                exact fun a member => absurd member List.not_mem_nil
              · next entries listed => exact isReading_of_mapM_ofEntry (inner.of_get? listed).of_mem h
              · next single _ listed =>
                  split at h
                  · refine isReading_of_mapM_ofEntry (fun entry member => ?_) h
                    exact List.mem_singleton.mp member ▸ inner.of_get? listed
                  · cases h
      · cases h
        intro a member
        rcases List.mem_map.mp member with ⟨field, among, rfl⟩
        rcases reading.plain.1 with ⟨names, same, -⟩
        rcases List.mem_map.mp (same ▸ List.mem_map_of_mem among) with ⟨name, -, isName⟩
        refine ⟨?_, values field among⟩
        rw [← isName]
        exact ⟨trivial, rfl⟩

theorem isReading_of_lists [Limits] {r : Response} {aggregates : List Aggregate}
    (lists : r.Lists aggregates) : ∀ a ∈ aggregates, a.IsReading := by
  rcases lists with ⟨t, body, -, parsed, listed⟩
  exact isReading_of_ofBody (Json.isReading_read parsed) listed

/-- A scalar aggregate contributes the number that it is, under its name. -/
theorem contributions_of_number {a : Aggregate} {x : Binary64} (reading : Json.IsReading a.value)
    (isNumber : a.number = .ok x) : a.contributions = [a.namedNumber] := by
  rcases a with ⟨name, value⟩
  rw [namedNumber, isNumber]
  cases value with
  | int i =>
      have large : floatOfInt i = .ok x := isNumber
      simp only [contributions, collected, large]
      rfl
  | float y =>
      cases isNumber
      rfl
  | ownNan _ =>
      have same := reading.same
      rw [Value.readBack] at same
      cases same
  | text t =>
      simp only [number] at isNumber
      split at isNumber
      · next y spelled =>
          cases isNumber
          simp only [contributions, collected, spelled]
          rfl
      · cases isNumber
  | _ => cases isNumber

end Aggregate

/-- A value that is no number: a list, an object, a truth value, null, or a text that spells no
number. -/
def Value.IsNoNumber : Value → Prop
  | .list _ => True
  | .record _ => True
  | .bool _ => True
  | .null => True
  | .text t => readNumber? t = none
  | _ => False

/-- The number of an aggregate is refused for the value, or it is too large an integer, which is
not contributed either. -/
theorem Aggregate.number_eq_error {a : Aggregate} {fault : Fault} (reading : Json.IsReading a.value)
    (failed : a.number = .error fault) :
    ((∃ cause, fault = .format cause) ∧ a.value.IsNoNumber) ∨
      ∃ named ∈ a.contributions, named.2 = .error fault := by
  rcases a with ⟨name, value⟩
  cases value with
  | int i =>
      have large : floatOfInt i = .error fault := failed
      refine Or.inr ⟨_, List.mem_singleton_self _, ?_⟩
      simp only [collected, large]
      rfl
  | float y => cases failed
  | ownNan _ => cases failed
  | text t =>
      simp only [number] at failed
      split at failed
      · cases failed
      · next unspelled =>
          cases failed
          exact Or.inl ⟨⟨_, rfl⟩, unspelled⟩
  | null | bool _ | list _ | record _ =>
      cases failed
      exact Or.inl ⟨⟨_, rfl⟩, trivial⟩
  | tuple _ | mapping _ =>
      have same := reading.same
      rw [Value.readBack] at same
      cases same
  | bytes _ | buffer _ | cyclic _ | foreign _ _ => exact reading.plain.elim

/-! ## Filling with either -/

namespace ValueStore

/-- When a response has no list of aggregates, neither way of filling adds anything. -/
theorem fills_of_ofResponse_eq_error [Limits] (store : ValueStore) {r : Response} {fault : Fault}
    (failed : (Aggregate.ofResponse r).result = .error fault) :
    ((store.addNumbers r).store = store ∧ (store.addNumbers r).run.result = .error fault) ∧
      (store.addContributions r).store = store ∧
        (store.addContributions r).run.result = .error fault := by
  constructor
  · refine Response.fill_of_error store .addNumbers ?_
    rw [Run.result_bind, Response.aggregateNumbers, Run.result_bind, failed]
    rfl
  · refine Response.fill_of_error store .addContributions ?_
    rw [Run.result_bind, failed]
    rfl

section

variable [Limits] (store : ValueStore) {r : Response} {aggregates : List Aggregate}
  (found : (Aggregate.ofResponse r).result = .ok aggregates)

include found

theorem addContributions_of_ofResponse_eq_ok :
    (store.addContributions r).store =
        (Filling.addAll store (aggregates.flatMap Aggregate.contributions)).store ∧
      (store.addContributions r).run.result =
        (Filling.addAll store (aggregates.flatMap Aggregate.contributions)).result := by
  refine store.fill_of_ok .addContributions ?_
  rw [Run.result_bind, found]
  rfl

/-- Numbers are refused when one of the aggregates is none, and then the store is as it was; else
they are what the aggregates contribute. -/
theorem addNumbers_cases_of_ofResponse_eq_ok :
    (∃ a ∈ aggregates, ∃ fault, a.number = .error fault ∧ (store.addNumbers r).store = store ∧
      (store.addNumbers r).run.result = .error fault) ∨
    ((store.addNumbers r).store = (store.addContributions r).store ∧
      (store.addNumbers r).run.result = (store.addContributions r).run.result) := by
  have readings := Aggregate.isReading_of_lists (Aggregate.lists_of_result_ofResponse found)
  have numbers : r.aggregateNumbers.result =
      aggregates.mapM fun a => do return (a.name, ← a.number) := by
    rw [Response.aggregateNumbers, Run.result_bind, found]
    rfl
  cases known : aggregates.mapM fun a => do return (a.name, ← a.number) with
  | error fault =>
      rcases exists_of_mapM_eq_error known with ⟨a, member, failed⟩
      have noNumber : a.number = .error fault := by
        cases isNumber : a.number with
        | ok x =>
            rw [isNumber] at failed
            cases failed
        | error first =>
            rw [isNumber] at failed
            cases failed
            rfl
      refine Or.inl ⟨a, member, fault, noNumber, Response.fill_of_error store .addNumbers ?_⟩
      rw [Run.result_bind, numbers, known]
      rfl
  | ok pairs =>
      rcases Aggregate.map_namedNumber_of_mapM known with ⟨areNumbers, same⟩
      have contributed : aggregates.flatMap Aggregate.contributions =
          pairs.map fun named => (named.1, .ok (.float named.2)) := by
        rw [← same, List.map_eq_flatMap]
        refine List.flatMap_congr fun a member => ?_
        rcases areNumbers a member with ⟨x, isNumber⟩
        exact Aggregate.contributions_of_number (readings a member).value isNumber
      rcases store.addContributions_of_ofResponse_eq_ok found with ⟨stored, ended⟩
      rw [stored, ended, contributed]
      refine Or.inr (store.fill_of_ok .addNumbers ?_)
      rw [Run.result_bind, numbers, known]
      rfl

end

/-- Where filling with numbers succeeds, filling with contributions succeeds and leaves the same
store.  Where only the latter succeeds, an aggregate that is no number is what the former was refused
for, before anything was added. -/
theorem addContributions_of_addNumbers [Limits] (store : ValueStore) (r : Response) :
    ((store.addNumbers r).run.result = .ok () →
      (store.addContributions r).run.result = .ok () ∧
        (store.addContributions r).store = (store.addNumbers r).store) ∧
    ∀ fault, (store.addContributions r).run.result = .ok () →
      (store.addNumbers r).run.result = .error fault →
        (∃ cause, fault = .format cause) ∧ (store.addNumbers r).store = store ∧
          ∃ aggregates, r.Lists aggregates ∧ ∃ a ∈ aggregates, a.value.IsNoNumber := by
  cases found : (Aggregate.ofResponse r).result with
  | error fault =>
      rcases store.fills_of_ofResponse_eq_error found with ⟨⟨-, numbers⟩, -, contributions⟩
      rw [numbers, contributions]
      exact ⟨fun done => (nomatch done), fun _ done => (nomatch done)⟩
  | ok aggregates =>
      have lists := Aggregate.lists_of_result_ofResponse found
      rcases store.addNumbers_cases_of_ofResponse_eq_ok found with
        ⟨a, member, fault, noNumber, unchanged, failed⟩ | ⟨stored, ended⟩
      · rw [failed]
        refine ⟨fun done => (nomatch done), fun other done same => ?_⟩
        cases same
        rw [(store.addContributions_of_ofResponse_eq_ok found).2] at done
        have reading := (Aggregate.isReading_of_lists lists a member).value
        rcases Aggregate.number_eq_error reading noNumber with
          ⟨isFormat, isNoNumber⟩ | ⟨named, contributed, isFault⟩
        · exact ⟨isFormat, unchanged, aggregates, lists, a, member, isNoNumber⟩
        · rcases Filling.exists_entryOf_of_result_addAll done named
            (List.mem_flatMap.mpr ⟨a, member, contributed⟩) with ⟨entry, isEntry⟩
          rw [entryOf, isFault] at isEntry
          cases isEntry
      · rw [ended, stored]
        refine ⟨fun done => ⟨done, rfl⟩, fun fault done failed => ?_⟩
        rw [done] at failed
        cases failed

/-- A response with a number and the text of one. -/
def scalarValues : Response :=
  Response.blank.setBody (.text (Text.ofString "\x7b\"a\": 1, \"b\": \" 2.5\"\x7d"))

/-- A response with a list behind a number. -/
def mixedValues : Response :=
  Response.blank.setBody (.text (Text.ofString "\x7b\"a\": 1, \"b\": [\"2\", null]\x7d"))

open scoped Limits in
theorem addContributions_mixedValues :
    (addNumbers [] scalarValues).run.result = .ok () ∧
      (addContributions [] scalarValues).store = (addNumbers [] scalarValues).store ∧
      (addContributions [] mixedValues).run.result = .ok () ∧
      ∃ fault, (addNumbers [] mixedValues).run.result = .error fault ∧
        (∃ cause, fault = .format cause) ∧ (addNumbers [] mixedValues).store = [] := by
  have scalar : (addNumbers [] scalarValues).run.result = .ok () := eq_ok_of_isOk (by decide +kernel)
  have mixed : (addContributions [] mixedValues).run.result = .ok () := eq_ok_of_isOk (by decide +kernel)
  refine ⟨scalar, ((addContributions_of_addNumbers [] scalarValues).1 scalar).2, mixed, ?_⟩
  have refused : (addNumbers [] mixedValues).run.result.isOk = false := by decide +kernel
  rcases exists_of_isOk_eq_false refused with ⟨fault, failed⟩
  rcases (addContributions_of_addNumbers [] mixedValues).2 fault mixed failed with
    ⟨isFormat, unchanged, -⟩
  exact ⟨fault, failed, isFormat, unchanged⟩

end ValueStore

end DocumentGateway
