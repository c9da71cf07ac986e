import DocumentGateway.Proofs.Response.ErrorGate
import Mathlib.Data.List.Forall2

namespace DocumentGateway

/-!
# Filling stores

Values are added to a store behind those that are there.  Adding entries one by one comes down to
adding all of them at once: under every key stand the old values followed by the added ones, old
names keep their places, and new ones follow in the order in which they came.  Numbers are added
only when all of them are known, so that nothing but a name can stop them on the way.
-/

/-! ## Writing in place -/

namespace OrderedPairs

/-- Equal keys have one value. -/
theorem get?_congr [BEq κ] [PartialEquivBEq κ] (pairs : OrderedPairs κ ν) {key sought : κ}
    (same : (key == sought) = true) : pairs.get? key = pairs.get? sought := by
  have alike : (fun pair : κ × ν => pair.1 == key) = fun pair => pair.1 == sought :=
    funext fun _ => BEq.congr_right same
  rw [get?, get?, alike]

/-- What is under another key stays where it stands. -/
theorem getElem?_put [BEq κ] {pairs : OrderedPairs κ ν} {pair : κ × ν} {i : Nat}
    (stands : pairs[i]? = some pair) {key : κ} (other : (pair.1 == key) = false) (value : ν) :
    (pairs.put key value)[i]? = some pair := by
  induction pairs generalizing i with
  | nil => cases stands
  | cons first rest ih =>
      rw [put]
      split
      · next here =>
          cases i with
          | zero =>
              rw [List.getElem?_cons_zero] at stands
              rw [Option.some.inj stands, other] at here
              cases here
          | succ i => exact stands
      · cases i with
        | zero => exact stands
        | succ i => exact ih stands

end OrderedPairs

namespace ValueStore

/-! ## Added entries -/

/-- The values that entries have under a key. -/
def valuesUnder (key : Key) (entries : List (Key × Value)) : List Value :=
  (entries.filter fun entry => entry.1 == key).map (·.2)

/-- Those of some keys that are not among the present ones, each where it first comes. -/
def newKeys (present : List Key) : List Key → List Key
  | [] => []
  | key :: rest =>
    if present.any (· == key) then newKeys present rest else key :: newKeys (present ++ [key]) rest

theorem newKeys_append (present keys more : List Key) :
    newKeys present (keys ++ more) =
      newKeys present keys ++ newKeys (present ++ newKeys present keys) more := by
  induction keys generalizing present with
  | nil => simp [newKeys]
  | cons key rest ih =>
      rw [List.cons_append, newKeys, newKeys]
      split
      · exact ih present
      · rw [ih, List.append_assoc, List.cons_append]
        rfl

/-- A store after entries were added to another one. -/
structure Appended (before : ValueStore) (entries : List (Key × Value)) (after : ValueStore) :
    Prop where
  values : ∀ key, (after.get? key).getD [] = (before.get? key).getD [] ++ valuesUnder key entries
  keys : after.keys = before.keys ++ newKeys before.keys (entries.map (·.1))
  others : ∀ (i : Nat) pair, before[i]? = some pair →
    (∀ entry ∈ entries, (pair.1 == entry.1) = false) → after[i]? = some pair

namespace Appended

theorem refl (store : ValueStore) : Appended store [] store where
  values _ := (List.append_nil _).symm
  keys := (List.append_nil _).symm
  others _ _ stands _ := stands

theorem trans {before between after : ValueStore} {entries more : List (Key × Value)}
    (first : Appended before entries between) (second : Appended between more after) :
    Appended before (entries ++ more) after where
  values key := by
    rw [second.values, first.values, List.append_assoc]
    simp only [valuesUnder, List.filter_append, List.map_append]
  keys := by
    rw [second.keys, first.keys, List.map_append, newKeys_append, List.append_assoc]
  others i pair stands apart := by
    refine second.others i pair (first.others i pair stands fun entry member => ?_)
      fun entry member => ?_
    · exact apart entry (List.mem_append_left _ member)
    · exact apart entry (List.mem_append_right _ member)

/-- Adding one entry. -/
theorem put (store : ValueStore) (key : Key) (value : Value) :
    Appended store [(key, value)]
      (OrderedPairs.put store key ((store.get? key).getD [] ++ [value])) where
  values sought := by
    rw [OrderedPairs.get?_put]
    cases same : key == sought with
    | true => simp [valuesUnder, same, OrderedPairs.get?_congr store same]
    | false => simp [valuesUnder, same]
  keys := by
    rw [OrderedPairs.keys_put, List.map_singleton, newKeys, OrderedPairs.any_keys]
    cases store.holds key with
    | true => exact (List.append_nil _).symm
    | false => rfl
  others i pair stands apart :=
    OrderedPairs.getElem?_put stands (apart _ List.mem_cons_self) _

end Appended

/-- The entry that a named value is added as.  A value that is a fault is met before its name. -/
def entryOf (named : Value × Except Fault Value) : Except Fault (Key × Value) :=
  named.2.bind fun value => (keyOf named.1).map fun key => (key, value)

theorem bind_add_of_entryOf (store : ValueStore) (named : Value × Except Fault Value) :
    named.2.bind (store.add named.1) = (entryOf named).map fun entry =>
      OrderedPairs.put store entry.1 ((store.get? entry.1).getD [] ++ [entry.2]) := by
  rcases named with ⟨name, value⟩
  cases value with
  | error fault => rfl
  | ok value =>
      rw [entryOf]
      change store.add name value = ((keyOf name).map fun key => (key, value)).map _
      rw [add]
      cases keyOf name <;> rfl

end ValueStore

/-! ## Adding one by one -/

namespace Filling

/-- How adding ends before named values that are left: well when there are none, and else with the
fault of the first of them. -/
inductive Ends : List (Value × Except Fault Value) → Except Fault Unit → Prop where
  | all : Ends [] (.ok ())
  | stuck {named : Value × Except Fault Value} {rest : List (Value × Except Fault Value)}
      {fault : Fault} (fails : ValueStore.entryOf named = .error fault) :
      Ends (named :: rest) (.error fault)

/-- Adding goes on up to the first named value that cannot be added, and keeps what was added until
then. -/
theorem exists_appended_addAll (store : ValueStore) (known : List (Value × Except Fault Value)) :
    ∃ front back entries, known = front ++ back ∧
      List.Forall₂ (fun named entry => ValueStore.entryOf named = .ok entry) front entries ∧
      store.Appended entries (addAll store known).store ∧ Ends back (addAll store known).result := by
  induction known generalizing store with
  | nil => exact ⟨[], [], [], rfl, .nil, .refl store, .all⟩
  | cons named rest ih =>
      have added := store.bind_add_of_entryOf named
      rw [addAll]
      cases found : ValueStore.entryOf named with
      | error fault =>
          rw [found] at added
          simp only [added]
          exact ⟨[], named :: rest, [], rfl, .nil, .refl store, .stuck found⟩
      | ok entry =>
          rw [found] at added
          simp only [added]
          rcases ih (OrderedPairs.put store entry.1 ((store.get? entry.1).getD [] ++ [entry.2]))
            with ⟨front, back, entries, same, are, appended, ends⟩
          exact ⟨named :: front, back, entry :: entries, by rw [same]; rfl, .cons found are,
            (ValueStore.Appended.put store entry.1 entry.2).trans appended, ends⟩

end Filling

/-- Once the values are known, they are added. -/
theorem ValueStore.fill_of_ok (store : ValueStore) (operation : Operation)
    {values : Run (List (Value × Except Fault Value))} {known : List (Value × Except Fault Value)}
    (found : values.result = .ok known) :
    (store.fill operation values).store = (Filling.addAll store known).store ∧
      (store.fill operation values).run.result = (Filling.addAll store known).result := by
  unfold fill
  split
  · next fault failed => exact absurd (failed.symm.trans found) (by simp)
  · next others foundToo =>
      have same : others = known := Except.ok.inj (foundToo.symm.trans found)
      rw [same]
      exact ⟨rfl, rfl⟩

/-! ## Adding the numbers of a response -/

/-- The aggregates that the body of a response lists. -/
def Response.Lists [Limits] (r : Response) (aggregates : List Aggregate) : Prop :=
  ∃ t body, r.text = .ok t ∧ Json.read t = .ok body ∧ Aggregate.ofBody body = .ok aggregates

namespace Aggregate

theorem lists_of_result_ofResponse [Limits] {r : Response} {aggregates : List Aggregate}
    (h : (ofResponse r).result = .ok aggregates) : r.Lists aggregates := by
  rw [ofResponse] at h
  simp only [Run.result_bind, Run.result_ofExcept] at h
  rcases exists_of_bind_eq_ok h with ⟨-, -, h⟩
  rcases exists_of_bind_eq_ok h with ⟨t, isText, h⟩
  rcases exists_of_bind_eq_ok h with ⟨body, parsed, h⟩
  exact ⟨t, body, isText, Json.result_parse_eq_ok_iff.mp parsed, eq_ok_of_mapError_eq_ok h⟩

/-- The named value as which a scalar aggregate is added. -/
def namedNumber (a : Aggregate) : Value × Except Fault Value :=
  (a.name, a.number.map .float)

/-- An entry is that of a scalar aggregate when it has its name as the key and its number as the
value. -/
def IsAddedAs (a : Aggregate) (entry : Key × Value) : Prop :=
  a.name.asKey = .ok entry.1 ∧ ∃ x, a.number = .ok x ∧ entry.2 = .float x

theorem isAddedAs_of_entryOf {a : Aggregate} {entry : Key × Value}
    (h : ValueStore.entryOf a.namedNumber = .ok entry) : a.IsAddedAs entry := by
  rcases exists_of_bind_eq_ok h with ⟨value, isValue, h⟩
  rcases exists_of_map_eq_ok isValue with ⟨x, isNumber, rfl⟩
  rcases exists_of_map_eq_ok h with ⟨key, isKey, rfl⟩
  exact ⟨eq_ok_of_mapError_eq_ok isKey, x, isNumber, rfl⟩

/-- Of a scalar aggregate nothing but the name can be refused. -/
theorem exists_of_entryOf_eq_error {a : Aggregate} {x : Binary64} {fault : Fault}
    (isNumber : a.number = .ok x) (h : ValueStore.entryOf a.namedNumber = .error fault) :
    ∃ kind, a.name.asKey = .error kind ∧ fault = .unhashable kind := by
  rw [ValueStore.entryOf, namedNumber, isNumber, ValueStore.keyOf] at h
  cases found : a.name.asKey with
  | ok key =>
      rw [found] at h
      cases h
  | error kind =>
      rw [found] at h
      exact ⟨kind, rfl, (Except.error.inj h).symm⟩

/-- When all numbers are known, every aggregate is one. -/
theorem map_namedNumber_of_mapM {aggregates : List Aggregate} {numbers : List (Value × Binary64)}
    (h : (aggregates.mapM fun a => do return (a.name, ← a.number)) = .ok numbers) :
    (∀ a ∈ aggregates, ∃ x, a.number = .ok x) ∧
      aggregates.map namedNumber = numbers.map fun named => (named.1, .ok (.float named.2)) := by
  have each := mapM_eq_ok_iff.mp h
  clear h
  induction each with
  | nil => exact ⟨fun _ member => absurd member List.not_mem_nil, rfl⟩
  | @cons a named _ _ isNamed _ ih =>
      rcases exists_of_bind_eq_ok isNamed with ⟨x, isNumber, isNamed⟩
      cases Except.ok.inj isNamed
      refine ⟨List.forall_mem_cons.mpr ⟨⟨x, isNumber⟩, ih.1⟩, ?_⟩
      rw [List.map_cons, List.map_cons, ih.2, namedNumber, isNumber]
      rfl

/-- When the numbers of a response are known, they are those of the aggregates that it lists. -/
theorem exists_of_aggregateNumbers [Limits] {r : Response} {numbers : List (Value × Binary64)}
    (h : r.aggregateNumbers.result = .ok numbers) :
    ∃ aggregates, r.Lists aggregates ∧ (∀ a ∈ aggregates, ∃ x, a.number = .ok x) ∧
      aggregates.map namedNumber = numbers.map fun named => (named.1, .ok (.float named.2)) := by
  rw [Response.aggregateNumbers] at h
  simp only [Run.result_bind, Run.result_ofExcept] at h
  rcases exists_of_bind_eq_ok h with ⟨aggregates, found, h⟩
  exact ⟨aggregates, lists_of_result_ofResponse found, map_namedNumber_of_mapM h⟩

end Aggregate

namespace ValueStore

/-- Filling a store with the numbers of a response comes down to adding them one by one, once all of
them are known. -/
theorem addNumbers_cases [Limits] (store : ValueStore) (r : Response) :
    ((∃ fault, (store.addNumbers r).run.result = .error fault) ∧
      (store.addNumbers r).store = store) ∨
    ∃ aggregates, r.Lists aggregates ∧ (∀ a ∈ aggregates, ∃ x, a.number = .ok x) ∧
      (store.addNumbers r).store =
        (Filling.addAll store (aggregates.map Aggregate.namedNumber)).store ∧
      (store.addNumbers r).run.result =
        (Filling.addAll store (aggregates.map Aggregate.namedNumber)).result := by
  rw [addNumbers]
  cases found : r.aggregateNumbers.result with
  | error fault =>
      refine Or.inl ((Response.fill_of_error store .addNumbers ?_).symm.imp (⟨fault, ·⟩) id)
      rw [Run.result_bind, found]
      rfl
  | ok numbers =>
      rcases Aggregate.exists_of_aggregateNumbers found with ⟨aggregates, lists, areNumbers, same⟩
      refine Or.inr ⟨aggregates, lists, areNumbers, store.fill_of_ok .addNumbers ?_⟩
      rw [Run.result_bind, found, same]
      rfl

/-- Filling a store with the numbers of a response adds all of them or, whatever stops it, nothing;
but for a name that is no key, which stops it behind the numbers that come before. -/
theorem appended_addNumbers [Limits] (store : ValueStore) (r : Response) :
    ((store.addNumbers r).run.result = .ok () ∧ ∃ aggregates entries, r.Lists aggregates ∧
      List.Forall₂ Aggregate.IsAddedAs aggregates entries ∧
      store.Appended entries (store.addNumbers r).store) ∨
    ((∃ fault, (store.addNumbers r).run.result = .error fault) ∧
      (store.addNumbers r).store = store) ∨
    ∃ front a back entries kind, r.Lists (front ++ a :: back) ∧
      (∀ b ∈ front ++ a :: back, ∃ x, b.number = .ok x) ∧
      List.Forall₂ Aggregate.IsAddedAs front entries ∧ a.name.asKey = .error kind ∧
      (store.addNumbers r).run.result = .error (.unhashable kind) ∧
      store.Appended entries (store.addNumbers r).store := by
  rcases store.addNumbers_cases r with failed | ⟨aggregates, lists, areNumbers, filled, ended⟩
  · exact Or.inr (Or.inl failed)
  · rw [filled, ended]
    rcases Filling.exists_appended_addAll store (aggregates.map Aggregate.namedNumber)
      with ⟨front, back, entries, same, are, appended, ends⟩
    rcases List.map_eq_append_iff.mp same with ⟨before, behind, rfl, rfl, rfl⟩
    have added : List.Forall₂ Aggregate.IsAddedAs before entries :=
      (List.forall₂_map_left_iff.mp are).imp fun _ _ => Aggregate.isAddedAs_of_entryOf
    generalize (Filling.addAll store _).result = result at ends ⊢
    cases behind with
    | nil =>
        cases ends
        exact Or.inl ⟨rfl, _, entries, by simpa using lists, added, appended⟩
    | cons a rest =>
        cases ends with
        | stuck fails =>
            rcases areNumbers a (by simp) with ⟨x, isNumber⟩
            rcases Aggregate.exists_of_entryOf_eq_error isNumber fails with ⟨kind, noKey, rfl⟩
            exact Or.inr (Or.inr ⟨before, a, rest, entries, kind, lists, areNumbers, added, noKey,
              rfl, appended⟩)

/-- A response that lists two numbers, the second under a list as its name. -/
def unnameableNumber : Response :=
  (Response.blank.withHeaders [("Content-Type", MediaType.json)]).setBody (.text (Text.ofString
    ("\x7b\"values-response\": \x7b\"aggregate-result\": [\x7b\"name\": \"a\", \"_value\": 1\x7d, " ++
      "\x7b\"name\": [], \"_value\": 2\x7d]\x7d\x7d")))

open scoped Limits in
/-- A name that is no key leaves the numbers before it in the store. -/
theorem addNumbers_unnameableNumber :
    (addNumbers [] unnameableNumber).run.result.isOk = false ∧
      (addNumbers [] unnameableNumber).store ≠ [] := by
  have added : (addNumbers [] unnameableNumber).store.length = 1 := by decide +kernel
  refine ⟨by decide +kernel, fun unchanged => ?_⟩
  rw [unchanged] at added
  cases added

end ValueStore

end DocumentGateway
