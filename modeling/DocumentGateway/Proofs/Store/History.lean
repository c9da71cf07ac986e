import DocumentGateway.Proofs.Store.Contributions
import Mathlib.Data.List.Induction

namespace DocumentGateway

/-!
# Stores over whole runs

What is done to a store one step after the other is a history of names that are written and deleted.
The names in the store follow from the history: each stands where it was first written since it was
last deleted, spelled as it was then.  But for a deletion, no step moves a name or takes a value away
from it, so that the first value under a name stays what it is until the name is deleted.
-/

namespace ValueStore

/-! ## Steps -/

/-- What can be done to a store. -/
inductive Step where
  | add (name value : Value)
  | assign (name : Value) (values : List Value)
  | delete (name : Value)
  | first (name : Value)
  | names
  | addNumbers (r : Response)
  | addContributions (r : Response)

/-- What a step gives back. -/
inductive Answer where
  | done
  | value (v : Value)
  | names (keys : List Key)

/-- Go on with a changed store, or with the old one when there is none. -/
def settle (store : ValueStore) : Except Fault ValueStore → Except Fault Answer × ValueStore
  | .ok changed => (.ok .done, changed)
  | .error fault => (.error fault, store)

/-- Take a step. -/
def take [Limits] (store : ValueStore) : Step → Except Fault Answer × ValueStore
  | .add name value => store.settle (store.add name value)
  | .assign name values => store.settle (store.assign name values)
  | .delete name => store.settle (store.delete name)
  | .first name => ((store.first name).map .value, store)
  | .names => (.ok (.names store.names), store)
  | .addNumbers r =>
    ((store.addNumbers r).run.result.map fun _ => .done, (store.addNumbers r).store)
  | .addContributions r =>
    ((store.addContributions r).run.result.map fun _ => .done, (store.addContributions r).store)

/-- Take steps one after the other. -/
def takeAll [Limits] (store : ValueStore) (steps : List Step) : ValueStore :=
  steps.foldl (fun store step => (store.take step).2) store

/-- Whether a step is one that a store is filled by. -/
def Step.isFilling : Step → Bool
  | addNumbers _ => true
  | addContributions _ => true
  | _ => false

def Step.isDeletion : Step → Bool
  | delete _ => true
  | _ => false

/-- A step that deletes a name, however it spells the name. -/
def Step.Deletes (name : Value) : Step → Prop
  | delete other => ∃ key gone, name.asKey = .ok key ∧ other.asKey = .ok gone ∧ (gone == key) = true
  | _ => False

/-! ## Histories -/

/-- The writing or deleting of a name. -/
inductive Mention where
  | written (key : Key)
  | deleted (key : Key)

/-- The entries that named values are added as, once they are known. -/
def entriesOf (values : Run (List (Value × Except Fault Value))) : List (Key × Value) :=
  match values.result with
  | .ok known => leadingEntries known
  | .error _ => []

/-- The numbers of a response, as they are added. -/
def numbersOf [Limits] (r : Response) : Run (List (Value × Except Fault Value)) := do
  let numbers ← r.aggregateNumbers
  return numbers.map fun named => (named.1, .ok (.float named.2))

/-- The contributions of a response, as they are added. -/
def contributionsOf [Limits] (r : Response) : Run (List (Value × Except Fault Value)) := do
  let aggregates ← Aggregate.ofResponse r
  return aggregates.flatMap Aggregate.contributions

/-- The names that a step writes and deletes.  To delete an absent name, or to assign to one that is
present, comes to nothing, and it does not change either where names were first written. -/
def Step.mentions [Limits] : Step → List Mention
  | add name _ => name.asKey.toOption.toList.map .written
  | assign name _ => name.asKey.toOption.toList.map .written
  | delete name => name.asKey.toOption.toList.map .deleted
  | first _ => []
  | names => []
  | addNumbers r => (entriesOf (numbersOf r)).map fun entry => .written entry.1
  | addContributions r => (entriesOf (contributionsOf r)).map fun entry => .written entry.1

/-- Whether a name is deleted in a history. -/
def deletedIn (key : Key) (history : List Mention) : Bool :=
  history.any fun
    | .written _ => false
    | .deleted gone => key == gone

/-- The names that are written in a history and not deleted later on. -/
def standing : List Mention → List Key
  | [] => []
  | .written key :: later =>
    if deletedIn key later then standing later else key :: standing later
  | .deleted _ :: later => standing later

/-- The names that stand after a history, each where it was first written since it was last
deleted. -/
def listed (history : List Mention) : List Key :=
  newKeys [] (standing history)

/-! ## The order of names -/

theorem deletedIn_append (key : Key) (history more : List Mention) :
    deletedIn key (history ++ more) = (deletedIn key history || deletedIn key more) :=
  List.any_append

theorem standing_append_written (history : List Mention) (key : Key) :
    standing (history ++ [.written key]) = standing history ++ [key] := by
  induction history with
  | nil => rfl
  | cons mention later ih =>
      cases mention with
      | deleted gone => exact ih
      | written other =>
          have same : deletedIn other (later ++ [.written key]) = deletedIn other later := by
            rw [deletedIn_append]
            exact Bool.or_false _
          rw [List.cons_append, standing, standing, same, ih]
          split <;> rfl

theorem standing_append_deleted (history : List Mention) (gone : Key) :
    standing (history ++ [.deleted gone]) = (standing history).filter fun key => !(key == gone) := by
  induction history with
  | nil => rfl
  | cons mention later ih =>
      cases mention with
      | deleted other => exact ih
      | written key =>
          have either : deletedIn key (later ++ [.deleted gone]) =
              (deletedIn key later || key == gone) := by
            rw [deletedIn_append]
            exact congrArg (deletedIn key later || ·) (Bool.or_false _)
          rw [List.cons_append, standing, standing, either, ih]
          cases deletedIn key later with
          | true => rfl
          | false =>
              rw [Bool.false_or, if_neg Bool.false_ne_true, List.filter_cons]
              cases key == gone <;> rfl

/-- Names that are taken out before or after repeated ones are merged leave the same names. -/
theorem newKeys_filter {p : Key → Bool} (respects : ∀ key other, (key == other) = true → p key = p other)
    (present keys : List Key) :
    newKeys (present.filter p) (keys.filter p) = (newKeys present keys).filter p := by
  induction keys generalizing present with
  | nil => rfl
  | cons key rest ih =>
      have step := ih (present ++ [key])
      rw [newKeys]
      cases kept : p key with
      | false =>
          rw [List.filter_append, List.filter_cons_of_neg (by simp [kept]), List.filter_nil,
            List.append_nil] at step
          rw [List.filter_cons_of_neg (by simp [kept])]
          split
          · exact ih present
          · rw [step, List.filter_cons_of_neg (by simp [kept])]
      | true =>
          have same : (present.filter p).any (· == key) = present.any (· == key) := by
            rw [List.any_filter]
            congr 1
            funext other
            cases hit : other == key with
            | true => rw [respects other key hit, kept]; rfl
            | false => rw [Bool.and_false]
          rw [List.filter_append, List.filter_cons_of_pos kept, List.filter_nil] at step
          rw [List.filter_cons_of_pos kept, newKeys, same]
          split
          · exact ih present
          · rw [step, List.filter_cons_of_pos kept]

/-- Merged names differ from each other and from those that were present. -/
theorem pairwise_newKeys (present keys : List Key) :
    (newKeys present keys).Pairwise (fun key other => (key == other) = false) ∧
      ∀ key ∈ newKeys present keys, present.any (· == key) = false := by
  induction keys generalizing present with
  | nil => exact ⟨.nil, fun _ member => absurd member List.not_mem_nil⟩
  | cons key rest ih =>
      rw [newKeys]
      split
      · exact ih present
      · next absent =>
          rcases ih (present ++ [key]) with ⟨apart, fresh⟩
          have split : ∀ other ∈ newKeys (present ++ [key]) rest,
              present.any (· == other) = false ∧ (key == other) = false := by
            intro other member
            have neither := fresh other member
            rw [List.any_append, Bool.or_eq_false_iff] at neither
            exact ⟨neither.1, (Bool.or_false _).symm.trans neither.2⟩
          refine ⟨.cons (fun other member => (split other member).2) apart, ?_⟩
          exact List.forall_mem_cons.mpr
            ⟨Bool.eq_false_iff.mpr absent, fun other member => (split other member).1⟩

/-- The names after one more mention. -/
def mention (keys : List Key) : Mention → List Key
  | .written key => if keys.any (· == key) then keys else keys ++ [key]
  | .deleted gone => keys.filter fun key => !(key == gone)

/-- Mentions one after the other leave the names that are listed. -/
theorem foldl_mention (history : List Mention) : history.foldl mention [] = listed history := by
  induction history using List.reverseRecOn with
  | nil => rfl
  | append_singleton history last ih =>
      rw [List.foldl_append, ih]
      change mention (listed history) last = newKeys [] (standing (history ++ [last]))
      cases last with
      | written key =>
          rw [standing_append_written, newKeys_append, List.nil_append, mention, newKeys]
          change (if (newKeys [] (standing history)).any (· == key) then _ else _) = _
          split
          · exact (List.append_nil _).symm
          · rfl
      | deleted gone =>
          rw [standing_append_deleted]
          refine (newKeys_filter (fun key other same => ?_) [] (standing history)).symm
          rw [BEq.congr_left same]

/-! ## What one step does -/

theorem keys_addEntry (store : ValueStore) (entry : Key × Value) :
    (store.addEntry entry).keys = mention store.keys (.written entry.1) := by
  rw [addEntry, OrderedPairs.keys_put, mention, OrderedPairs.any_keys]

theorem keys_foldl_addEntry (store : ValueStore) (entries : List (Key × Value)) :
    (entries.foldl addEntry store).keys =
      (entries.map fun entry => Mention.written entry.1).foldl mention store.keys := by
  induction entries generalizing store with
  | nil => rfl
  | cons entry rest ih => rw [List.foldl_cons, ih, keys_addEntry, List.map_cons, List.foldl_cons]

/-- Filling adds the entries that can be added. -/
theorem store_fill (store : ValueStore) (operation : Operation)
    (values : Run (List (Value × Except Fault Value))) :
    (store.fill operation values).store = (entriesOf values).foldl addEntry store := by
  rw [entriesOf]
  cases found : values.result with
  | error fault => exact (Response.fill_of_error store operation found).1
  | ok known => exact (store.fill_of_ok operation found).1.trans (Filling.store_addAll store known)

/-- A step adds entries, puts values under a name that is absent, takes a name out, or, when it is
refused, leaves the store. -/
theorem take_cases [Limits] (store : ValueStore) (step : Step) :
    (∃ entries : List (Key × Value), step.mentions = entries.map (fun entry => .written entry.1) ∧
      (store.take step).2 = entries.foldl addEntry store) ∨
    (∃ key values, step.mentions = [.written key] ∧
      (store.holds key = true ∧ (store.take step).2 = store ∨
        store.holds key = false ∧ (store.take step).2 = OrderedPairs.put store key values)) ∨
    ∃ name gone, step = .delete name ∧ name.asKey = .ok gone ∧ step.mentions = [.deleted gone] ∧
      (store.take step).2 = OrderedPairs.erase store gone := by
  cases step with
  | first _ => exact Or.inl ⟨[], rfl, rfl⟩
  | names => exact Or.inl ⟨[], rfl, rfl⟩
  | addNumbers r => exact Or.inl ⟨_, rfl, store.store_fill .addNumbers (numbersOf r)⟩
  | addContributions r => exact Or.inl ⟨_, rfl, store.store_fill .addContributions (contributionsOf r)⟩
  | add name value =>
      rw [take, add, Step.mentions, keyOf]
      cases name.asKey with
      | error kind => exact Or.inl ⟨[], rfl, rfl⟩
      | ok key => exact Or.inl ⟨[(key, value)], rfl, rfl⟩
  | assign name values =>
      rw [take, assign, Step.mentions, keyOf]
      cases name.asKey with
      | error kind => exact Or.inl ⟨[], rfl, rfl⟩
      | ok key =>
          refine Or.inr (Or.inl ⟨key, values, rfl, ?_⟩)
          change store.holds key = true ∧ (store.settle (if store.holds key then _ else _)).2 = store ∨
            store.holds key = false ∧ (store.settle (if store.holds key then _ else _)).2 = _
          cases store.holds key with
          | true => exact Or.inl ⟨rfl, rfl⟩
          | false => exact Or.inr ⟨rfl, rfl⟩
  | delete name =>
      rw [take, delete, Step.mentions, keyOf]
      cases isKey : name.asKey with
      | error kind => exact Or.inl ⟨[], rfl, rfl⟩
      | ok gone =>
          refine Or.inr (Or.inr ⟨name, gone, rfl, isKey, rfl, ?_⟩)
          change (store.settle (if store.holds gone then _ else _)).2 = _
          cases present : store.holds gone with
          | true => rfl
          | false =>
              -- To take out a name that is absent changes nothing.
              refine (List.filter_eq_self.mpr fun pair member => ?_).symm
              rw [Bool.not_eq_true', ← Bool.not_eq_true]
              exact List.any_eq_false.mp present pair member

theorem keys_take [Limits] (store : ValueStore) (step : Step) :
    (store.take step).2.keys = step.mentions.foldl mention store.keys := by
  rcases store.take_cases step with ⟨entries, same, taken⟩ |
    ⟨key, values, same, ⟨present, taken⟩ | ⟨absent, taken⟩⟩ | ⟨_, gone, -, -, same, taken⟩
  · rw [same, taken, keys_foldl_addEntry]
  · rw [same, taken, List.foldl_cons, List.foldl_nil, mention, OrderedPairs.any_keys, present, if_pos rfl]
  · rw [same, taken, OrderedPairs.keys_put, List.foldl_cons, List.foldl_nil, mention,
      OrderedPairs.any_keys]
  · rw [same, taken, OrderedPairs.keys_erase, List.foldl_cons, List.foldl_nil, mention]

/-! ## Growing -/

/-- A store grows into another one when each name keeps its place, and its values stay at the front
of those under it. -/
def GrowsInto (before after : ValueStore) : Prop :=
  ∀ (i : Nat) key values, before[i]? = some (key, values) →
    ∃ more, after[i]? = some (key, values ++ more)

namespace GrowsInto

theorem refl (store : ValueStore) : GrowsInto store store :=
  fun _ _ _ stands => ⟨[], by rw [List.append_nil, stands]⟩

theorem trans {before between after : ValueStore} (first : GrowsInto before between)
    (second : GrowsInto between after) : GrowsInto before after := by
  intro i key values stands
  rcases first i key values stands with ⟨more, stands⟩
  rcases second i key (values ++ more) stands with ⟨others, stands⟩
  exact ⟨more ++ others, by rw [stands, List.append_assoc]⟩

theorem of_cons {key : Key} {values : List Value} {rest after : ValueStore}
    (grows : GrowsInto ((key, values) :: rest) after) :
    ∃ more behind, after = (key, values ++ more) :: behind ∧ GrowsInto rest behind := by
  rcases grows 0 key values rfl with ⟨more, stands⟩
  cases after with
  | nil => cases stands
  | cons pair behind =>
      cases Option.some.inj stands
      exact ⟨more, behind, rfl, fun i => grows (i + 1)⟩

/-- The values under a name stay at the front of those under it. -/
theorem exists_get? {before after : ValueStore} (grows : GrowsInto before after) {key : Key}
    {values : List Value} (under : before.get? key = some values) :
    ∃ more, after.get? key = some (values ++ more) := by
  induction before generalizing after with
  | nil => cases under
  | cons pair rest ih =>
      rcases pair with ⟨other, found⟩
      rcases grows.of_cons with ⟨more, behind, rfl, following⟩
      rw [OrderedPairs.get?_cons] at under ⊢
      by_cases here : (other == key) = true
      · rw [if_pos here] at under ⊢
        cases under
        exact ⟨more, rfl⟩
      · rw [if_neg here] at under ⊢
        exact ih following under

theorem addEntry (store : ValueStore) (entry : Key × Value) :
    GrowsInto store (store.addEntry entry) := by
  intro i key values stands
  rw [ValueStore.addEntry]
  induction store generalizing i with
  | nil => cases stands
  | cons pair rest ih =>
      rcases pair with ⟨other, found⟩
      rw [OrderedPairs.put, OrderedPairs.get?_cons]
      by_cases here : (other == entry.1) = true
      · rw [if_pos here, if_pos here]
        cases i with
        | zero =>
            cases stands
            exact ⟨[entry.2], rfl⟩
        | succ i => exact ⟨[], by rw [List.append_nil]; exact stands⟩
      · rw [if_neg here, if_neg here]
        cases i with
        | zero => exact ⟨[], by rw [List.append_nil]; exact stands⟩
        | succ i => exact ih i stands

theorem foldl_addEntry (store : ValueStore) (entries : List (Key × Value)) :
    GrowsInto store (entries.foldl ValueStore.addEntry store) := by
  induction entries generalizing store with
  | nil => exact refl store
  | cons entry rest ih => exact (addEntry store entry).trans (ih _)

/-- A store grows with a step, unless the step takes a name out. -/
theorem take_or_erase [Limits] (store : ValueStore) (step : Step) :
    GrowsInto store (store.take step).2 ∨
      ∃ name gone, step = .delete name ∧ name.asKey = .ok gone ∧
        (store.take step).2 = OrderedPairs.erase store gone := by
  rcases store.take_cases step with ⟨entries, -, taken⟩ |
    ⟨key, values, -, ⟨-, taken⟩ | ⟨absent, taken⟩⟩ | ⟨name, gone, isDeletion, isGone, -, taken⟩
  · exact Or.inl (taken ▸ foldl_addEntry store entries)
  · refine Or.inl ?_
    rw [taken]
    exact refl store
  · refine Or.inl fun i other found stands => ⟨[], ?_⟩
    rw [taken, List.append_nil]
    refine OrderedPairs.getElem?_put stands ?_ values
    exact Bool.eq_false_iff.mpr (List.any_eq_false.mp absent _ (List.mem_of_getElem? stands))
  · exact Or.inr ⟨name, gone, isDeletion, isGone, taken⟩

end GrowsInto

/-! ## First values -/

theorem first_eq_ok_iff {store : ValueStore} {name value : Value} :
    store.first name = .ok value ↔
      ∃ key rest, name.asKey = .ok key ∧ store.get? key = some (value :: rest) := by
  unfold first
  constructor
  · intro found
    rcases exists_of_bind_eq_ok found with ⟨key, isKey, found⟩
    split at found
    · cases found
    · cases found
    · next other rest under =>
        cases found
        exact ⟨key, rest, eq_ok_of_mapError_eq_ok isKey, under⟩
  · rintro ⟨key, rest, isKey, under⟩
    have isKeyOf : keyOf name = .ok key := by
      rw [keyOf, isKey]
      rfl
    rw [bind_of_eq_ok isKeyOf]
    simp only [under]
    rfl

/-- The first value under a name stays, unless a step deletes the name. -/
theorem first_take [Limits] {store : ValueStore} {name value : Value}
    (found : store.first name = .ok value) {step : Step} (keeps : ¬ step.Deletes name) :
    (store.take step).2.first name = .ok value := by
  rcases first_eq_ok_iff.mp found with ⟨key, rest, isKey, under⟩
  rcases GrowsInto.take_or_erase store step with grows | ⟨other, gone, rfl, isGone, taken⟩
  · rcases grows.exists_get? under with ⟨more, under⟩
    exact first_eq_ok_iff.mpr ⟨key, rest ++ more, isKey, under⟩
  · have differs : (gone == key) = false :=
      Bool.eq_false_iff.mpr fun same => keeps ⟨key, gone, isKey, isGone, same⟩
    refine first_eq_ok_iff.mpr ⟨key, rest, isKey, ?_⟩
    rw [taken, OrderedPairs.get?_erase, differs, if_neg Bool.false_ne_true, under]

theorem first_takeAll [Limits] {store : ValueStore} {name value : Value}
    (found : store.first name = .ok value) {steps : List Step}
    (keep : ∀ step ∈ steps, ¬ step.Deletes name) :
    (store.takeAll steps).first name = .ok value := by
  induction steps generalizing store with
  | nil => exact found
  | cons step rest ih =>
      rcases List.forall_mem_cons.mp keep with ⟨keeps, others⟩
      exact ih (first_take found keeps) others

/-! ## Whole runs -/

/-- A step that is no filling and is refused leaves the store. -/
theorem store_take_of_error [Limits] {store : ValueStore} {step : Step} {fault : Fault}
    (single : step.isFilling = false) (refused : (store.take step).1 = .error fault) :
    (store.take step).2 = store := by
  have settled : ∀ changed : Except Fault ValueStore, (store.settle changed).1 = .error fault →
      (store.settle changed).2 = store := by
    intro changed refused
    cases changed with
    | ok changed => cases refused
    | error fault => rfl
  cases step with
  | add name value => exact settled _ refused
  | assign name values => exact settled _ refused
  | delete name => exact settled _ refused
  | first _ => rfl
  | names => rfl
  | addNumbers _ => cases single
  | addContributions _ => cases single

theorem keys_takeAll [Limits] (store : ValueStore) (steps : List Step) :
    (store.takeAll steps).keys = (steps.flatMap Step.mentions).foldl mention store.keys := by
  induction steps generalizing store with
  | nil => rfl
  | cons step rest ih =>
      rw [List.flatMap_cons, List.foldl_append, ← keys_take]
      exact ih _

/-- What holds of a store after a history, and of what can be done to it from then on. -/
structure KeepsHistory [Limits] (history : List Mention) (store : ValueStore) : Prop where
  distinct : store.names.Pairwise fun name other => (name == other) = false
  ordered : store.names = listed history
  grows : ∀ step : Step, step.isDeletion = false → GrowsInto store (store.take step).2
  stays : ∀ name value, store.first name = .ok value →
    ∀ later : List Step, (∀ step ∈ later, ¬ step.Deletes name) →
      (store.takeAll later).first name = .ok value
  unchanged : ∀ (step : Step) fault, step.isFilling = false →
    (store.take step).1 = .error fault → (store.take step).2 = store

/-- A store that was empty keeps its history through every run: its names differ from each other and
stand in the order in which they were first written since they were last deleted; only deletions
move names or take values away, and the first value under a name stays until the name is deleted;
and a step that is refused, if it does not add many values, changes nothing. -/
theorem keepsHistory_takeAll [Limits] (steps : List Step) :
    KeepsHistory (steps.flatMap Step.mentions) (takeAll [] steps) := by
  have ordered : (takeAll [] steps).names = listed (steps.flatMap Step.mentions) :=
    (keys_takeAll [] steps).trans (foldl_mention _)
  exact {
    distinct := ordered ▸ (pairwise_newKeys [] _).1
    ordered := ordered
    grows := by
      intro step keeps
      rcases GrowsInto.take_or_erase (takeAll [] steps) step with grows | ⟨name, _, isDeletion, -⟩
      · exact grows
      · rw [isDeletion] at keeps
        cases keeps
    stays := fun name value found later keep => first_takeAll found keep
    unchanged := fun step fault single refused => store_take_of_error single refused }

section

open scoped Limits

example :
    takeAll [] [.add (.bool true) .null, .add (.text "a") .null, .add (.int 1) (.text "b"),
      .delete (.text "a"), .assign (.text "a") []] =
      [(.bool true, [.null, .text "b"]), (.text "a", [])] := rfl

/-- A NaN is a name of its own at every use, and an object that equals a number is the name that the
number is. -/
example :
    takeAll [] [.add (.ownNan 0) .null, .add (.ownNan 1) .null, .add (.ownNan 0) (.int 1),
      .add (.int 2) .null, .add (.foreign "Decimal" (some (.alike (.int 2)))) (.int 3)] =
      [(.ownNan 0, [.null, .int 1]), (.ownNan 1, [.null]), (.int 2, [.null, .int 3])] := rfl

end

end ValueStore

end DocumentGateway
