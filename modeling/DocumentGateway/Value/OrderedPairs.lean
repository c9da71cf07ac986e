namespace DocumentGateway

/-!
# Ordered pairs

A map kept as a list of key-value pairs in the order in which its keys were first written.  A
later write to a key replaces the value and leaves the key where it stands, spelled as it was
first written.  Records, headers and aggregate stores are maps of this kind.
-/

abbrev OrderedPairs (κ ν : Type) := List (κ × ν)

namespace OrderedPairs

variable {κ ν : Type} [BEq κ]

/-- The value under a key. -/
def get? (pairs : OrderedPairs κ ν) (key : κ) : Option ν :=
  (pairs.find? fun pair => pair.1 == key).map (·.2)

/-- Whether a key is present. -/
def holds (pairs : OrderedPairs κ ν) (key : κ) : Bool :=
  pairs.any fun pair => pair.1 == key

/-- Write a value under a key: in place when the key is present, else at the end. -/
def put : OrderedPairs κ ν → κ → ν → OrderedPairs κ ν
  | [], key, value => [(key, value)]
  | (k, v) :: rest, key, value =>
    if k == key then (k, value) :: rest else (k, v) :: put rest key value

/-- Remove a key. -/
def erase (pairs : OrderedPairs κ ν) (key : κ) : OrderedPairs κ ν :=
  pairs.filter fun pair => !(pair.1 == key)

/-- Write pairs one after the other. -/
def putAll (pairs : OrderedPairs κ ν) (more : List (κ × ν)) : OrderedPairs κ ν :=
  more.foldl (fun written pair => put written pair.1 pair.2) pairs

/-- The map that results from writing pairs one after the other, starting from nothing. -/
def ofPairs (written : List (κ × ν)) : OrderedPairs κ ν :=
  putAll [] written

/-- The keys in order. -/
def keys (pairs : OrderedPairs κ ν) : List κ :=
  pairs.map (·.1)

theorem holds_eq_isSome_get? (pairs : OrderedPairs κ ν) (key : κ) :
    pairs.holds key = (pairs.get? key).isSome := by
  rw [holds, get?, Option.isSome_map, List.isSome_find?]

theorem any_keys (pairs : OrderedPairs κ ν) (key : κ) :
    pairs.keys.any (· == key) = pairs.holds key :=
  List.any_map

/-! ## What the operations do to keys and values -/

theorem get?_cons (k : κ) (v : ν) (rest : OrderedPairs κ ν) (key : κ) :
    get? ((k, v) :: rest) key = if k == key then some v else get? rest key := by
  cases found : k == key <;> simp [get?, found]

@[simp]
theorem holds_cons (k : κ) (v : ν) (rest : OrderedPairs κ ν) (key : κ) :
    holds ((k, v) :: rest) key = (k == key || holds rest key) := rfl

/-- A value is found under the key it was written under, and under no other key is anything
changed. -/
theorem get?_put [PartialEquivBEq κ] (pairs : OrderedPairs κ ν) (key sought : κ) (value : ν) :
    (pairs.put key value).get? sought = if key == sought then some value else pairs.get? sought := by
  induction pairs with
  | nil => exact get?_cons key value [] sought
  | cons pair rest ih =>
      obtain ⟨k, v⟩ := pair
      rw [put]
      by_cases present : k == key
      · have alike : (k == sought) = (key == sought) := BEq.congr_left present
        rw [if_pos present, get?_cons, get?_cons, alike]
        split <;> rfl
      · rw [if_neg present, get?_cons, get?_cons, ih]
        by_cases here : k == sought
        · have differs : ¬ (key == sought) := fun same =>
            present (BEq.trans here (BEq.symm same))
          rw [if_pos here, if_neg differs, if_pos here]
        · rw [if_neg here, if_neg here]

/-- A key that is written again keeps its place and its spelling; a new one goes to the end. -/
theorem keys_put (pairs : OrderedPairs κ ν) (key : κ) (value : ν) :
    (pairs.put key value).keys = if pairs.holds key then pairs.keys else pairs.keys ++ [key] := by
  induction pairs with
  | nil => rfl
  | cons pair rest ih =>
      obtain ⟨k, v⟩ := pair
      rw [put, holds_cons]
      by_cases present : k == key
      · rw [if_pos present, present]
        rfl
      · have absent : (k == key) = false := Bool.eq_false_iff.mpr present
        rw [if_neg present, absent, Bool.false_or]
        simp only [keys, List.map_cons] at ih ⊢
        rw [ih]
        split <;> rfl

/-- A new key goes to the end. -/
theorem put_of_absent (pairs : OrderedPairs κ ν) (key : κ) (value : ν)
    (absent : ∀ pair ∈ pairs, (pair.1 == key) = false) :
    pairs.put key value = pairs ++ [(key, value)] := by
  induction pairs with
  | nil => rfl
  | cons pair rest ih =>
      obtain ⟨k, v⟩ := pair
      have other : (k == key) = false := absent (k, v) List.mem_cons_self
      have tail := ih fun pair member => absent pair (List.mem_cons_of_mem _ member)
      rw [put, other, if_neg Bool.false_ne_true, tail, List.cons_append]

/-- Pairs with different keys are kept as they are written. -/
theorem putAll_of_pairwise (pairs more : OrderedPairs κ ν)
    (distinct : ((pairs ++ more).map (·.1)).Pairwise fun key other => (key == other) = false) :
    putAll pairs more = pairs ++ more := by
  induction more generalizing pairs with
  | nil => exact (List.append_nil pairs).symm
  | cons pair rest ih =>
      obtain ⟨key, value⟩ := pair
      have absent : ∀ other ∈ pairs, (other.1 == key) = false := by
        intro other member
        rw [List.map_append, List.pairwise_append] at distinct
        exact distinct.2.2 other.1 (List.mem_map_of_mem member) key List.mem_cons_self
      have step : putAll pairs ((key, value) :: rest) = putAll (pairs ++ [(key, value)]) rest := by
        rw [← put_of_absent pairs key value absent]
        rfl
      have regrouped : pairs ++ [(key, value)] ++ rest = pairs ++ (key, value) :: rest := by
        rw [List.append_assoc, List.singleton_append]
      rw [step, ih, regrouped]
      rw [regrouped]
      exact distinct

theorem ofPairs_of_pairwise (pairs : OrderedPairs κ ν)
    (distinct : pairs.keys.Pairwise fun key other => (key == other) = false) :
    ofPairs pairs = pairs :=
  putAll_of_pairwise [] pairs distinct

/-- Of a removed key nothing is found, and everything else stays. -/
theorem get?_erase [PartialEquivBEq κ] (pairs : OrderedPairs κ ν) (key sought : κ) :
    (pairs.erase key).get? sought = if key == sought then none else pairs.get? sought := by
  induction pairs with
  | nil => exact (ite_self _).symm
  | cons pair rest ih =>
      obtain ⟨k, v⟩ := pair
      by_cases removed : k == key
      · have alike : (k == sought) = (key == sought) := BEq.congr_left removed
        have dropped : erase ((k, v) :: rest) key = erase rest key := by
          simp [erase, removed]
        rw [dropped, ih, get?_cons, alike]
        split <;> rfl
      · have kept : erase ((k, v) :: rest) key = (k, v) :: erase rest key := by
          simp [erase, removed]
        rw [kept, get?_cons, get?_cons, ih]
        by_cases here : k == sought
        · have differs : ¬ (key == sought) := fun same =>
            removed (BEq.trans here (BEq.symm same))
          rw [if_pos here, if_neg differs, if_pos here]
        · rw [if_neg here, if_neg here]

/-- The keys that are left when one is removed. -/
theorem keys_erase (pairs : OrderedPairs κ ν) (key : κ) :
    (pairs.erase key).keys = pairs.keys.filter fun k => !(k == key) := by
  rw [erase, keys, keys, List.filter_map]
  rfl

end OrderedPairs

end DocumentGateway
