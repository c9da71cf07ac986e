import DocumentGateway.Proofs.Response.NamedNumber
import DocumentGateway.Proofs.Store.Contributions
import DocumentGateway.Proofs.Store.History

namespace DocumentGateway

/-!
# One number and all of them

The number of a name is that of the first aggregate with the name, and later aggregates are not even
looked at.  Filling a store goes through all of them and collects their numbers under keys.  Where
filling an empty store succeeds, the two agree: a text is the key of no name but itself, so that under
it stand the numbers of exactly those aggregates that have it as their name, the first of them first.
-/

/-! ## Names as keys -/

/-- A text that is read is the key of no name that is read but itself. -/
theorem Value.asKey_beq_text_iff {v : Value} (plain : v.IsPlain) {key : Key} (isKey : v.asKey = .ok key)
    {t : Text} : (key == .text t) = true ↔ v = .text t := by
  rw [Key.beq_iff]
  cases v with
  | foreign _ _ => exact plain.elim
  | tuple items =>
      rw [asKey] at isKey
      rcases exists_of_bind_eq_ok isKey with ⟨keys, -, same⟩
      cases same
      simp [Key.marks]
  | float x =>
      cases isKey
      rw [Key.marks]
      split <;> simp [Key.marks]
  | null | bool _ | int _ | ownNan _ | text _ | bytes _ =>
      cases isKey
      simp [Key.marks]
  | _ => cases isKey

namespace Aggregate

theorem isNamed_iff {a : Aggregate} {name : Text} : a.isNamed name = true ↔ a.name = .text name := by
  unfold isNamed
  split
  · next t isText => rw [isText, decide_eq_true_iff, Value.text.injEq]
  · next noText => exact iff_of_false Bool.false_ne_true (noText name)

/-- An aggregate has a name exactly if its entry has it as the key. -/
theorem isNamed_of_isAddedAs {a : Aggregate} (reading : a.IsReading) {entry : Key × Value}
    (added : a.IsAddedAs entry) (name : Text) : a.isNamed name = (entry.1 == .text name) := by
  rw [Bool.eq_iff_iff, isNamed_iff, Value.asKey_beq_text_iff reading.name.plain added.1]

/-- The first aggregate with a name has the first of the values under the name. -/
theorem valuesUnder_of_forall₂ {aggregates : List Aggregate} {entries : List (Key × Value)}
    (readings : ∀ a ∈ aggregates, a.IsReading)
    (added : List.Forall₂ IsAddedAs aggregates entries) (name : Text) :
    (aggregates.find? (·.isNamed name) = none ∧
      ValueStore.valuesUnder (.text name) entries = []) ∨
    ∃ a x others, aggregates.find? (·.isNamed name) = some a ∧ a.number = .ok x ∧
      ValueStore.valuesUnder (.text name) entries = .float x :: others := by
  -- The search stops at the first match, and the entries are followed only that far.
  induction added with
  | nil => exact Or.inl ⟨rfl, rfl⟩
  | @cons a entry _ rest first _ ih =>
      rcases List.forall_mem_cons.mp readings with ⟨reading, others⟩
      have same := isNamed_of_isAddedAs reading first name
      rw [List.find?_cons, ValueStore.valuesUnder, List.filter_cons, ← same]
      cases a.isNamed name with
      | true =>
          rcases first with ⟨-, x, isNumber, isFloat⟩
          refine Or.inr ⟨a, x, ValueStore.valuesUnder (.text name) rest, rfl, isNumber, ?_⟩
          rw [if_pos rfl, List.map_cons, isFloat]
          rfl
      | false => exact ih others

/-- Of the keys that aggregates are added under, a text is equal to none but itself. -/
theorem eq_text_of_beq {aggregates : List Aggregate} {entries : List (Key × Value)}
    (readings : ∀ a ∈ aggregates, a.IsReading)
    (added : List.Forall₂ IsAddedAs aggregates entries) {name : Text} :
    ∀ entry ∈ entries, (entry.1 == .text name) = true → entry.1 = .text name := by
  induction added with
  | nil => exact fun entry member => absurd member List.not_mem_nil
  | cons first _ ih =>
      rcases List.forall_mem_cons.mp readings with ⟨reading, others⟩
      refine List.forall_mem_cons.mpr ⟨fun same => ?_, ih others⟩
      have isName := (Value.asKey_beq_text_iff reading.name.plain first.1).mp same
      exact (Except.ok.inj ((congrArg Value.asKey isName).symm.trans first.1)).symm

end Aggregate

namespace ValueStore

/-! ## Filling an empty store -/

theorem mem_of_mem_newKeys {present keys : List Key} {key : Key}
    (member : key ∈ newKeys present keys) : key ∈ keys := by
  induction keys generalizing present with
  | nil => exact member
  | cons first rest ih =>
      rw [newKeys] at member
      split at member
      · exact List.mem_cons_of_mem first (ih member)
      · rcases List.mem_cons.mp member with rfl | among
        · exact List.mem_cons_self
        · exact List.mem_cons_of_mem first (ih among)

section

variable {entries : List (Key × Value)} {store : ValueStore} (appended : Appended [] entries store)
  (name : Text)

include appended

/-- A name that equals a text is that text, where the keys of the entries that equal it are. -/
theorem text_mem_names (own : ∀ entry ∈ entries, (entry.1 == .text name) = true → entry.1 = .text name)
    (alike : store.names.any (· == .text name) = true) : Key.text name ∈ store.names := by
  rcases List.any_eq_true.mp alike with ⟨key, member, same⟩
  have among := member
  rw [names, appended.keys] at among
  rcases List.mem_map.mp (mem_of_mem_newKeys among) with ⟨entry, isEntry, rfl⟩
  rwa [own entry isEntry same] at member

/-- A text is a name in a store when an entry has it as the key. -/
theorem text_mem_names_iff
    (own : ∀ entry ∈ entries, (entry.1 == .text name) = true → entry.1 = .text name) :
    Key.text name ∈ store.names ↔ valuesUnder (.text name) entries ≠ [] := by
  constructor
  · intro member none
    rw [names, appended.keys] at member
    rcases List.mem_map.mp (mem_of_mem_newKeys member) with ⟨entry, among, isKey⟩
    have left : entry ∈ entries.filter fun entry => entry.1 == Key.text name :=
      List.mem_filter.mpr ⟨among, isKey ▸ BEq.rfl⟩
    rw [List.map_eq_nil_iff.mp none] at left
    cases left
  · intro some
    have under := appended.values (.text name)
    have held : store.holds (.text name) = true := by
      rw [OrderedPairs.holds_eq_isSome_get?]
      cases found : store.get? (.text name) with
      | none =>
          rw [found] at under
          exact absurd under.symm some
      | some values => rfl
    rw [← OrderedPairs.any_keys] at held
    exact text_mem_names appended name own held

/-- What entries have first under a text is the first value under it in a store. -/
theorem first_text_of_valuesUnder {value : Value} {others : List Value}
    (under : valuesUnder (.text name) entries = value :: others) :
    store.first (.text name) = .ok value := by
  have values := appended.values (.text name)
  rw [under] at values
  refine first_eq_ok_iff.mpr ⟨.text name, others, rfl, ?_⟩
  cases found : store.get? (.text name) with
  | none =>
      rw [found] at values
      cases values
  | some own =>
      rw [found] at values
      exact congrArg some values

end

/-- When all numbers of a response were added to a store, the aggregates are known, and each of them
was added. -/
theorem exists_isAddedAs_of_addNumbers [Limits] {store : ValueStore} {r : Response}
    (filled : (store.addNumbers r).run.result = .ok ()) :
    ∃ aggregates entries, (Aggregate.ofResponse r).result = .ok aggregates ∧
      List.Forall₂ Aggregate.IsAddedAs aggregates entries ∧
      store.Appended entries (store.addNumbers r).store := by
  rcases store.addNumbers_cases r with ⟨⟨fault, failed⟩, -⟩ | ⟨aggregates, lists, -, stored, ended⟩
  · rw [filled] at failed
    cases failed
  · have found : (Aggregate.ofResponse r).result = .ok aggregates := by
      cases found : (Aggregate.ofResponse r).result with
      | error fault =>
          rw [(store.fills_of_ofResponse_eq_error found).1.2] at filled
          cases filled
      | ok others => rw [(Aggregate.lists_of_result_ofResponse found).eq lists]
    rcases Filling.exists_appended_addAll store (aggregates.map Aggregate.namedNumber) with
      ⟨front, back, entries, same, are, appended, ends⟩
    rw [← ended, filled] at ends
    cases ends
    rw [List.append_nil] at same
    rw [← same, List.forall₂_map_left_iff] at are
    refine ⟨aggregates, entries, found, are.imp fun _ _ => Aggregate.isAddedAs_of_entryOf, ?_⟩
    rwa [stored]

/-- Reading one number agrees with filling an empty store with all of them, if this succeeds.  The
number of a name in the store is the first value under it, and a text that is no name in the store is
the name of no aggregate. -/
theorem first_addNumbers [Limits] {r : Response} (filled : (addNumbers [] r).run.result = .ok ())
    (name : Text) :
    (Key.text name ∈ (addNumbers [] r).store.names →
      ∃ x, (r.aggregateNumber name).result = .ok x ∧
        (addNumbers [] r).store.first (.text name) = .ok (.float x)) ∧
    (Key.text name ∉ (addNumbers [] r).store.names →
      (r.aggregateNumber name).result = .error (.noSuchAggregate name)) := by
  rcases exists_isAddedAs_of_addNumbers filled with ⟨aggregates, entries, found, added, appended⟩
  have readings := Aggregate.isReading_of_lists (Aggregate.lists_of_result_ofResponse found)
  rw [text_mem_names_iff appended name (Aggregate.eq_text_of_beq readings added),
    Response.result_aggregateNumber found]
  rcases Aggregate.valuesUnder_of_forall₂ readings added name with
    ⟨isNone, under⟩ | ⟨a, x, others, isFirst, isNumber, under⟩
  · rw [under, isNone]
    exact ⟨fun some => absurd rfl some, fun _ => rfl⟩
  · rw [under, isFirst]
    refine ⟨fun _ => ⟨x, isNumber, ?_⟩, fun none => absurd (List.cons_ne_nil _ _) none⟩
    exact first_text_of_valuesUnder appended name under

/-- A response that lists a number under an integer, and two numbers under one name. -/
def repeatedName : Response :=
  Response.ofJson (Text.ofString
    ("\x7b\"values-response\": \x7b\"aggregate-result\": [\x7b\"name\": 1, \"_value\": 5\x7d, " ++
      "\x7b\"name\": \"a\", \"_value\": 1\x7d, \x7b\"name\": \"a\", \"_value\": \"2\"\x7d]\x7d\x7d"))

open scoped Limits in
theorem first_addNumbers_repeatedName :
    (addNumbers [] repeatedName).run.result = .ok () ∧
      (∃ x, (repeatedName.aggregateNumber "a").result = .ok x ∧
        (addNumbers [] repeatedName).store.first (.text "a") = .ok (.float x)) ∧
      (repeatedName.aggregateNumber "1").result = .error (.noSuchAggregate "1") := by
  have filled : (addNumbers [] repeatedName).run.result = .ok () :=
    eq_ok_of_toOption_eq_some (by decide +kernel)
  have named : (addNumbers [] repeatedName).store.names.any (· == .text "a") = true := by
    decide +kernel
  have unnamed : (addNumbers [] repeatedName).store.names.any (· == .text "1") = false := by
    decide +kernel
  rcases exists_isAddedAs_of_addNumbers filled with ⟨aggregates, entries, found, added, appended⟩
  have readings := Aggregate.isReading_of_lists (Aggregate.lists_of_result_ofResponse found)
  refine ⟨filled, (first_addNumbers filled "a").1 ?_, (first_addNumbers filled "1").2 ?_⟩
  · exact text_mem_names appended "a" (Aggregate.eq_text_of_beq readings added) named
  · exact fun member => List.any_eq_false.mp unnamed _ member BEq.rfl

end ValueStore

end DocumentGateway
