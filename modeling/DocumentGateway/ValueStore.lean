import DocumentGateway.Fault

namespace DocumentGateway

/-!
# Stores of aggregate values

A store collects the values of aggregates under their names.  A name that is in the store keeps
its place and its values, and more values are added behind them.  Names come from bodies and need
not be texts; those that are no keys are refused.

The values under a name are a list of their own.  That a caller can put one and the same list under
two names, or go on changing a list that it has put there, is left out.
-/

abbrev ValueStore := OrderedPairs Key (List Value)

namespace ValueStore

/-- The key that a name is. -/
def keyOf (name : Value) : Except Fault Key :=
  name.asKey.mapError .unhashable

/-- Add a value under a name. -/
def add (store : ValueStore) (name value : Value) : Except Fault ValueStore := do
  let key ← keyOf name
  return store.put key ((store.get? key).getD [] ++ [value])

/-- Put a list of values under a new name. -/
def assign (store : ValueStore) (name : Value) (values : List Value) :
    Except Fault ValueStore := do
  let key ← keyOf name
  if store.holds key then .error (.populatedName name) else return store.put key values

/-- The first value under a name. -/
def first (store : ValueStore) (name : Value) : Except Fault Value := do
  match store.get? (← keyOf name) with
  | none => .error (.missingKey name)
  | some [] => .error .noValues
  | some (value :: _) => return value

def delete (store : ValueStore) (name : Value) : Except Fault ValueStore := do
  let key ← keyOf name
  if store.holds key then return store.erase key else .error (.missingKey name)

def names (store : ValueStore) : List Key :=
  store.keys

end ValueStore

/-- A store after values were added to it one by one, and whether all of them were. -/
structure Filling where
  store : ValueStore
  result : Except Fault Unit

namespace Filling

/-- Add named values until one cannot be added.  A value may itself be a fault, which is met when
its turn comes. -/
def addAll (store : ValueStore) : List (Value × Except Fault Value) → Filling
  | [] => ⟨store, .ok ()⟩
  | (name, value) :: rest =>
    match value.bind (store.add name) with
    | .ok more => addAll more rest
    | .error fault => ⟨store, .error fault⟩

end Filling

end DocumentGateway
