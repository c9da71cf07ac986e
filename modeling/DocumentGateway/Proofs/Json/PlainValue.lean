import DocumentGateway.Json.Printer
import Mathlib.Data.List.Nodup

namespace DocumentGateway

/-!
# Values that JSON can say

A plain value is made of null, truth values, integers within the limit of digits, floats, texts,
lists, tuples, mappings and records, where mappings and records have texts as names and no name
twice.  Writing a plain value fails for one reason only: a record somewhere in it has a field
`items`.
-/

/-- Keys that are different texts. -/
def AreNames (keys : List Key) : Prop :=
  ∃ names : List Text, keys = names.map Key.text ∧ names.Nodup

namespace Value

/-- Whether a value is an object or a list. -/
def IsCollection : Value → Prop
  | record _ => True
  | list _ => True
  | _ => False

mutual

/-- Whether a value is made of what JSON can say. -/
def IsPlain : Value → Prop
  | null => True
  | bool _ => True
  | int i => digitCount i.natAbs ≤ Json.digitLimit
  | float _ => True
  | ownNan _ => True
  | text _ => True
  | list items => ArePlain items
  | tuple items => ArePlain items
  | record fields => AreNames (fields.map (·.1)) ∧ HavePlainValues fields
  | mapping entries => AreNames (entries.map (·.1)) ∧ HavePlainValues entries
  | _ => False

def ArePlain : List Value → Prop
  | [] => True
  | item :: rest => item.IsPlain ∧ ArePlain rest

def HavePlainValues : List (Key × Value) → Prop
  | [] => True
  | (_, value) :: rest => value.IsPlain ∧ HavePlainValues rest

end

mutual

/-- Whether a record in a value has a field `items`. -/
def hidesItems : Value → Bool
  | list items => anyHidesItems items
  | tuple items => anyHidesItems items
  | record fields => (Json.itemsField? fields).isSome || anyValueHidesItems fields
  | mapping entries => anyValueHidesItems entries
  | _ => false

def anyHidesItems : List Value → Bool
  | [] => false
  | item :: rest => item.hidesItems || anyHidesItems rest

def anyValueHidesItems : List (Key × Value) → Bool
  | [] => false
  | (_, value) :: rest => value.hidesItems || anyValueHidesItems rest

end

mutual

/-- What is read of a plain value that was written: tuples as lists, mappings as records, and every
NaN as the one that JSON spells. -/
def readBack : Value → Value
  | ownNan _ => float .nan
  | list items => list (readBackAll items)
  | tuple items => list (readBackAll items)
  | record fields => record (readBackFields fields)
  | mapping entries => record (readBackFields entries)
  | v => v

def readBackAll : List Value → List Value
  | [] => []
  | item :: rest => item.readBack :: readBackAll rest

def readBackFields : List (Key × Value) → List (Key × Value)
  | [] => []
  | (key, value) :: rest => (key, value.readBack) :: readBackFields rest

end

mutual

/-- The texts in a value, names of members among them. -/
def texts : Value → List Text
  | text t => [t]
  | list items => textsOfAll items
  | tuple items => textsOfAll items
  | record fields => textsOfFields fields
  | mapping entries => textsOfFields entries
  | _ => []

def textsOfAll : List Value → List Text
  | [] => []
  | item :: rest => item.texts ++ textsOfAll rest

def textsOfFields : List (Key × Value) → List Text
  | [] => []
  | (key, value) :: rest =>
    (match key with
    | .text name => [name]
    | _ => []) ++ value.texts ++ textsOfFields rest

end

mutual

/-- How many lists and objects stand one in another at the deepest place of a value. -/
def depth : Value → Nat
  | list items => depthOfAll items + 1
  | tuple items => depthOfAll items + 1
  | record fields => depthOfFields fields + 1
  | mapping entries => depthOfFields entries + 1
  | _ => 0

def depthOfAll : List Value → Nat
  | [] => 0
  | item :: rest => max item.depth (depthOfAll rest)

def depthOfFields : List (Key × Value) → Nat
  | [] => 0
  | (_, value) :: rest => max value.depth (depthOfFields rest)

end

theorem arePlain_iff (items : List Value) : ArePlain items ↔ ∀ item ∈ items, item.IsPlain := by
  induction items with
  | nil => simp [ArePlain]
  | cons item rest ih => simp [ArePlain, ih]

theorem havePlainValues_iff (fields : List (Key × Value)) :
    HavePlainValues fields ↔ ∀ field ∈ fields, field.2.IsPlain := by
  induction fields with
  | nil => simp [HavePlainValues]
  | cons field rest ih => simp [HavePlainValues, ih]

theorem depthOfAll_le_iff {items : List Value} {n : Nat} :
    depthOfAll items ≤ n ↔ ∀ item ∈ items, item.depth ≤ n := by
  induction items with
  | nil => simp [depthOfAll]
  | cons item rest ih => rw [depthOfAll, Nat.max_le, ih, List.forall_mem_cons]

theorem readBackAll_eq_map (items : List Value) : readBackAll items = items.map readBack := by
  induction items with
  | nil => rfl
  | cons item rest ih => rw [readBackAll, ih, List.map_cons]

theorem readBackFields_eq_map (fields : List (Key × Value)) :
    readBackFields fields = fields.map fun field => (field.1, field.2.readBack) := by
  induction fields with
  | nil => rfl
  | cons field rest ih => rw [readBackFields, ih, List.map_cons]

end Value

/-! ## Names -/

namespace AreNames

theorem nil : AreNames [] :=
  ⟨[], rfl, List.nodup_nil⟩

theorem of_cons {key : Key} {rest : List Key} (h : AreNames (key :: rest)) :
    ∃ name, key = .text name ∧ AreNames rest ∧ Key.text name ∉ rest := by
  rcases h with ⟨names, keys, distinct⟩
  match names, keys with
  | name :: more, keys =>
      rcases List.cons.inj keys with ⟨same, others⟩
      rcases List.nodup_cons.mp distinct with ⟨fresh, distinct⟩
      refine ⟨name, same, ⟨more, others, distinct⟩, ?_⟩
      rw [others, List.mem_map]
      rintro ⟨other, member, equal⟩
      exact fresh (Key.text.inj equal ▸ member)

/-- One more name that is not among the others. -/
theorem append {keys : List Key} (h : AreNames keys) {name : Text} (fresh : Key.text name ∉ keys) :
    AreNames (keys ++ [.text name]) := by
  rcases h with ⟨names, rfl, distinct⟩
  refine ⟨names ++ [name], by rw [List.map_append, List.map_singleton], ?_⟩
  refine List.nodup_append.mpr ⟨distinct, List.nodup_singleton name, ?_⟩
  intro one member other single equal
  rw [List.mem_singleton] at single
  subst single equal
  exact fresh (List.mem_map_of_mem member)

/-- A name differs from every name before it. -/
theorem beq_eq_false {front rest : List Key} {key other : Key}
    (h : AreNames (front ++ key :: rest)) (member : other ∈ front) : (other == key) = false := by
  rcases h with ⟨names, keys, distinct⟩
  rcases List.map_eq_append_iff.mp keys.symm with ⟨before, _, split, isFront, isRest⟩
  rcases List.map_eq_cons_iff.mp isRest with ⟨name, after, cons, isKey, -⟩
  subst isFront isKey split cons
  rcases List.mem_map.mp member with ⟨earlier, among, same⟩
  have differs : earlier ≠ name :=
    (List.nodup_append.mp distinct).2.2 earlier among name List.mem_cons_self
  rw [← same, Key.text_beq_text]
  exact decide_eq_false differs

end AreNames

/-! ## Writing -/

namespace Json

theorem writeItems_cons (l : Layout) (depth : Nat) (item : Value) (rest : List Value) :
    writeItems l depth (item :: rest) =
      (writeAt l (depth + 1) item).bind fun written =>
        (writeItems l depth rest).map (written :: ·) := by
  rw [writeItems]
  cases writeAt l (depth + 1) item with
  | error fault => rfl
  | ok written => cases writeItems l depth rest <;> rfl

theorem writeFields_cons (l : Layout) (depth : Nat) (name : Text) (value : Value)
    (rest : List (Key × Value)) :
    writeFields l depth ((.text name, value) :: rest) =
      (writeAt l (depth + 1) value).bind fun written =>
        (writeFields l depth rest).map
          ((writeText l.ascii name ++ .scalar ':' :: .scalar ' ' :: written) :: ·) := by
  rw [writeFields]
  cases writeAt l (depth + 1) value with
  | error fault => rfl
  | ok written => cases writeFields l depth rest <;> rfl

theorem writeAt_list (l : Layout) (depth : Nat) (items : List Value) :
    writeAt l depth (.list items) = (writeItems l depth items).map (bracketed l depth '[' ']') := by
  rw [writeAt]
  cases writeItems l depth items <;> rfl

theorem writeAt_tuple (l : Layout) (depth : Nat) (items : List Value) :
    writeAt l depth (.tuple items) = writeAt l depth (.list items) := by
  rw [writeAt, writeAt]

theorem writeAt_mapping (l : Layout) (depth : Nat) (entries : List (Key × Value)) :
    writeAt l depth (.mapping entries) =
      (writeFields l depth entries).map (bracketed l depth '\x7b' '\x7d') := by
  rw [writeAt]
  cases writeFields l depth entries <;> rfl

/-- A record without a field `items` is written as a mapping. -/
theorem writeAt_record (l : Layout) (depth : Nat) (fields : List (Key × Value)) :
    writeAt l depth (.record fields) =
      match itemsField? fields with
      | some value => .error (.hiddenItems value.kindName)
      | none => writeAt l depth (.mapping fields) := by
  rw [writeAt, writeAt_mapping]
  cases itemsField? fields with
  | some value => rfl
  | none => cases writeFields l depth fields <;> rfl

/-- Writing fails because of a field `items` when there is one, and succeeds otherwise. -/
def FailsByItems (hidden : Bool) (written : Except WriteFault α) : Prop :=
  if hidden then ∃ kind, written = .error (.hiddenItems kind) else ∃ t, written = .ok t

theorem FailsByItems.map {hidden : Bool} {written : Except WriteFault α} (f : α → β)
    (h : FailsByItems hidden written) : FailsByItems hidden (written.map f) := by
  cases hidden with
  | true =>
      rcases h with ⟨kind, failed⟩
      exact ⟨kind, by rw [failed]; rfl⟩
  | false =>
      rcases h with ⟨t, done⟩
      exact ⟨f t, by rw [done]; rfl⟩

/-- The first failure counts, and there is a failure when one of two writings fails. -/
theorem FailsByItems.bind {first second : Bool} {written : Except WriteFault α}
    {next : α → Except WriteFault β} (h : FailsByItems first written)
    (following : ∀ t, FailsByItems second (next t)) :
    FailsByItems (first || second) (written.bind next) := by
  cases first with
  | true =>
      rcases h with ⟨kind, failed⟩
      exact ⟨kind, by rw [failed]; rfl⟩
  | false =>
      rcases h with ⟨t, done⟩
      rw [done]
      exact following t

mutual

/-- Writing a plain value fails exactly when a record in it has a field `items`. -/
theorem writeAt_failsByItems (l : Layout) (depth : Nat) :
    (v : Value) → v.IsPlain → FailsByItems v.hidesItems (writeAt l depth v)
  | .null, _ | .bool _, _ | .float _, _ | .ownNan _, _ | .text _, _ => ⟨_, by rw [writeAt]⟩
  | .int i, h => by
    have short : ¬ digitLimit < digitCount i.natAbs := Nat.not_lt_of_le h
    exact ⟨Text.ofChars (integerDigits i), by rw [writeAt, writeInt, if_neg short]⟩
  | .list items, h => by
    rw [writeAt_list]
    exact (writeItems_failsByItems l depth items h).map _
  | .tuple items, h => by
    rw [writeAt_tuple, writeAt_list]
    exact (writeItems_failsByItems l depth items h).map _
  | .mapping entries, h => by
    rw [writeAt_mapping]
    exact (writeFields_failsByItems l depth entries h.1 h.2).map _
  | .record fields, h => by
    rw [writeAt_record, Value.hidesItems]
    cases itemsField? fields with
    | some value => exact ⟨value.kindName, rfl⟩
    | none =>
        simp only [writeAt_mapping]
        exact (writeFields_failsByItems l depth fields h.1 h.2).map _

theorem writeItems_failsByItems (l : Layout) (depth : Nat) :
    (items : List Value) → Value.ArePlain items →
      FailsByItems (Value.anyHidesItems items) (writeItems l depth items)
  | [], _ => ⟨[], by rw [writeItems]⟩
  | item :: rest, h => by
    rw [writeItems_cons]
    exact (writeAt_failsByItems l (depth + 1) item h.1).bind fun written =>
      (writeItems_failsByItems l depth rest h.2).map _

theorem writeFields_failsByItems (l : Layout) (depth : Nat) :
    (fields : List (Key × Value)) → AreNames (fields.map (·.1)) → Value.HavePlainValues fields →
      FailsByItems (Value.anyValueHidesItems fields) (writeFields l depth fields)
  | [], _, _ => ⟨[], by rw [writeFields]⟩
  | (key, value) :: rest, names, h => by
    rcases names.of_cons with ⟨name, isName, others, -⟩
    rw [show key = .text name from isName, writeFields_cons]
    exact (writeAt_failsByItems l (depth + 1) value h.1).bind fun written =>
      (writeFields_failsByItems l depth rest others h.2).map _

end

theorem exists_write_eq_error {v : Value} (plain : v.IsPlain) (hides : v.hidesItems = true)
    (l : Layout) : ∃ kind, write l v = .error (.hiddenItems kind) := by
  have fails := writeAt_failsByItems l 0 v plain
  rw [hides] at fails
  exact fails

theorem exists_write_eq_ok {v : Value} (plain : v.IsPlain) (shows : v.hidesItems = false)
    (l : Layout) : ∃ t, write l v = .ok t := by
  have succeeds := writeAt_failsByItems l 0 v plain
  rw [shows] at succeeds
  exact succeeds

end Json
end DocumentGateway
