import DocumentGateway.ErrorEnvelope
import DocumentGateway.Number.Numeral
import DocumentGateway.ValueStore

namespace DocumentGateway

/-!
# Aggregates

A body holds named values of aggregates: each field of an object is one, unless the object has a
field `values-response`, which then lists the aggregates one by one.  A scalar aggregate is a
number or the text of one.  Other aggregates are kept as they are, and of a list each member is a
value of its own.
-/

/-- An aggregate: its name and its value. -/
structure Aggregate where
  name : Value
  value : Value

variable [Limits]

namespace Aggregate

/-- The aggregate that an entry of a list names. -/
def ofEntry (entry : Value) : Except FormatFault Aggregate :=
  match entry.fields? with
  | none => .error (.aggregateEntry entry)
  | some fields =>
    match fields.get? "name" with
    | none => .error (.aggregateEntry entry)
    | some name =>
      let value := fields.get? "_value" <|> fields.get? "value"
      .ok ⟨name, value.getD .null⟩

/-- The aggregates that a values response lists.  A single one need not stand in a list, and
there may be none. -/
def ofValuesResponse (response : Value) : Except FormatFault (List Aggregate) :=
  match response.fields? with
  | none => .error .valuesResponse
  | some fields =>
    match fields.get? "aggregate-result" with
    | none => .ok []
    | some (.list entries) => entries.mapM ofEntry
    | some v => if v.fields?.isSome then [v].mapM ofEntry else .error .valuesResponse

/-- The aggregates in a body. -/
def ofBody (body : Value) : Except FormatFault (List Aggregate) :=
  match body.fields? with
  | none => .error .aggregatesNotObject
  | some fields =>
    match fields.get? "values-response" with
    | some response => ofValuesResponse response
    | none => .ok (fields.map fun field => ⟨field.1.toValue, field.2⟩)

/-- The aggregates in a response. -/
def ofResponse (r : Response) : Run (List Aggregate) := do
  r.requireSuccess
  let body ← Json.parse (← Run.ofExcept r.text)
  Run.ofExcept ((ofBody body).mapError .format)

/-- An integer as a floating-point number. -/
def floatOfInt (i : Int) : Except Fault Binary64 :=
  (Binary64.ofInt? i).elim (.error .integerTooLarge) .ok

/-- The number that a scalar aggregate is. -/
def number (a : Aggregate) : Except Fault Binary64 :=
  match a.value with
  | .int i => floatOfInt i
  | .float x => .ok x
  | .ownNan _ => .ok .nan
  | .text t =>
    match readNumber? t with
    | some x => .ok x
    | none => .error (.format (.notNumeric a.name a.value))
  | _ => .error (.format (.notScalar a.name a.value))

/-- A value as it is collected: a number or the text of one as a floating-point number, any other
value as it is. -/
def collected : Value → Except Fault Value
  | .int i => return .float (← floatOfInt i)
  | .text t =>
    match readNumber? t with
    | some x => .ok (.float x)
    | none => .ok (.text t)
  | .mapping entries => .ok (.record entries)
  | v => .ok v

/-- The values that an aggregate contributes under its name. -/
def contributions (a : Aggregate) : List (Value × Except Fault Value) :=
  match a.value with
  | .list items => items.map fun item => (a.name, collected item)
  | v => [(a.name, collected v)]

/-- Whether an aggregate has a name. -/
def isNamed (a : Aggregate) (name : Text) : Bool :=
  match a.name with
  | .text t => t = name
  | _ => false

end Aggregate

namespace Response

/-- The number that the first aggregate of a name is. -/
def aggregateNumber (r : Response) (name : Text) : Run Binary64 :=
  Run.timed .aggregateNumber do
    match (← Aggregate.ofResponse r).find? (·.isNamed name) with
    | some a => Run.ofExcept a.number
    | none => Run.fail (.noSuchAggregate name)

/-- The named numbers that the aggregates of a response are, if all of them are scalar. -/
def aggregateNumbers (r : Response) : Run (List (Value × Binary64)) := do
  let aggregates ← Aggregate.ofResponse r
  Run.ofExcept (aggregates.mapM fun a => return (a.name, ← a.number))

end Response

/-! ## Filling stores -/

/-- A store after it was filled from a response, with how that ended and what it reported. -/
structure FilledStore where
  store : ValueStore
  run : Run Unit

namespace ValueStore

/-- Add named values to a store, once they are known. -/
def fill (store : ValueStore) (operation : Operation)
    (values : Run (List (Value × Except Fault Value))) : FilledStore :=
  match values.result with
  | .error fault => ⟨store, Run.timed operation ⟨.error fault, values.events⟩⟩
  | .ok known =>
    let filling := Filling.addAll store known
    ⟨filling.store, Run.timed operation ⟨filling.result, values.events⟩⟩

/-- Add the number that each aggregate of a response is.  Nothing is added when one of them is no
number. -/
def addNumbers (store : ValueStore) (r : Response) : FilledStore :=
  store.fill .addNumbers do
    let numbers ← r.aggregateNumbers
    return numbers.map fun named => (named.1, .ok (.float named.2))

/-- Add everything that the aggregates of a response contribute. -/
def addContributions (store : ValueStore) (r : Response) : FilledStore :=
  store.fill .addContributions do
    let aggregates ← Aggregate.ofResponse r
    return aggregates.flatMap Aggregate.contributions

end ValueStore

end DocumentGateway
