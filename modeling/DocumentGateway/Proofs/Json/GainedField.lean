import DocumentGateway.Proofs.Json.PlainValue
import Mathlib.Data.List.Forall2

namespace DocumentGateway

/-!
# Values that gain a field

A value gains a field when one of the objects in it, at whatever place, is given one field more.
What is read at another place is as it was, or it gains the field itself, somewhere below.
-/

/-- A step down into a value: to the field of a name, or to some member of a list. -/
inductive PathStep where
  | field (name : Text)
  | member
deriving DecidableEq

namespace Value

/-- A value gains a field of a name in an object at the end of a path. -/
inductive Gains (name : Text) : List PathStep → Value → Value → Prop where
  | here {front back : List (Key × Value)} {v : Value} :
      Gains name [] (.record (front ++ back)) (.record (front ++ (.text name, v) :: back))
  | field {path : List PathStep} {key : Text} {old new : Value} {front back : List (Key × Value)}
      (inner : Gains name path old new) :
      Gains name (.field key :: path) (.record (front ++ (.text key, old) :: back))
        (.record (front ++ (.text key, new) :: back))
  | member {path : List PathStep} {old new : Value} {front back : List Value}
      (inner : Gains name path old new) :
      Gains name (.member :: path) (.list (front ++ old :: back)) (.list (front ++ new :: back))

/-- A value is kept, or it gains a field at a path. -/
inductive Keeps (name : Text) (path : List PathStep) (v : Value) : Value → Prop where
  | same : Keeps name path v v
  | gains {w : Value} (inner : Gains name path v w) : Keeps name path v w

variable {name : Text} {path : List PathStep} {v w : Value}

theorem Gains.isCollection (gains : Gains name path v w) : v.IsCollection ∧ w.IsCollection := by
  cases gains <;> exact ⟨trivial, trivial⟩

end Value

/-- What holds of two lists member by member is carried on to a third one. -/
theorem forall₂_trans {R : α → β → Prop} {S : β → γ → Prop} {T : α → γ → Prop} {xs : List α}
    {ys : List β} {zs : List γ} (step : ∀ x y z, R x y → S y z → T x z)
    (first : List.Forall₂ R xs ys) (second : List.Forall₂ S ys zs) : List.Forall₂ T xs zs := by
  induction first generalizing zs with
  | nil =>
      cases second
      exact .nil
  | cons here _ ih =>
      cases second with
      | cons hereToo others => exact .cons (step _ _ _ here hereToo) (ih others)

/-! ## Fields -/

namespace OrderedPairs

theorem get?_append_cons_of_ne {front back : List (Key × Value)} {pair : Key × Value} {key : Key}
    (other : (pair.1 == key) = false) :
    get? (front ++ pair :: back) key = get? (front ++ back) key := by
  rw [get?, get?, List.find?_append, List.find?_append, List.find?_cons, other]

/-- Under the key of a pair stands the value of the pair, unless the key comes before it. -/
theorem get?_append_cons_self (front back : List (Key × Value)) {key : Key}
    (same : (key == key) = true) :
    (∃ value, ∀ v, get? (front ++ (key, v) :: back) key = some value) ∨
      ∀ v, get? (front ++ (key, v) :: back) key = some v := by
  cases found : front.find? fun pair => pair.1 == key with
  | some pair =>
      refine Or.inl ⟨pair.2, fun v => ?_⟩
      rw [get?, List.find?_append, found]
      rfl
  | none =>
      refine Or.inr fun v => ?_
      rw [get?, List.find?_append, found, List.find?_cons, same]
      rfl

end OrderedPairs

namespace Value

variable {name : Text} {path : List PathStep}

/-- What stands under a name in an object that gains a field: another field than the new one is kept,
or it gains the new one below. -/
theorem Gains.exists_fields {fields : Record} {w : Value} (gains : Gains name path (.record fields) w) :
    ∃ others : Record, w = .record others ∧ ∀ key : Text, (path, name) ≠ ([], key) →
      others.get? (.text key) = fields.get? (.text key) ∨
        ∃ rest old new, path = .field key :: rest ∧ fields.get? (.text key) = some old ∧
          others.get? (.text key) = some new ∧ Gains name rest old new := by
  generalize same : Value.record fields = v at gains
  cases gains with
  | @here front back value =>
      cases same
      refine ⟨_, rfl, fun key other => Or.inl (OrderedPairs.get?_append_cons_of_ne ?_)⟩
      rw [Key.text_beq_text, decide_eq_false_iff_not]
      rintro rfl
      exact other rfl
  | @field rest own old new front back inner =>
      cases same
      refine ⟨_, rfl, fun key _ => ?_⟩
      by_cases isOwn : own = key
      · subst isOwn
        have equal : (Key.text own == Key.text own) = true := by
          rw [Key.text_beq_text, decide_eq_true rfl]
        rcases OrderedPairs.get?_append_cons_self front back equal with ⟨value, earlier⟩ | here
        · exact Or.inl ((earlier new).trans (earlier old).symm)
        · exact Or.inr ⟨rest, old, new, rfl, here old, here new, inner⟩
      · have other : (Key.text own == Key.text key) = false := by
          rw [Key.text_beq_text, decide_eq_false isOwn]
        exact Or.inl ((OrderedPairs.get?_append_cons_of_ne other).trans
          (OrderedPairs.get?_append_cons_of_ne other).symm)
  | member => cases same

theorem Gains.exists_items {items : List Value} {w : Value} (gains : Gains name path (.list items) w) :
    ∃ rest others, path = .member :: rest ∧ w = .list others ∧
      List.Forall₂ (Keeps name rest) items others := by
  generalize same : Value.list items = v at gains
  cases gains with
  | @member rest old new front back inner =>
      cases same
      refine ⟨rest, _, rfl, rfl, ?_⟩
      exact List.rel_append (List.forall₂_same.mpr fun _ _ => .same)
        (.cons (.gains inner) (List.forall₂_same.mpr fun _ _ => .same))
  | here => cases same
  | field => cases same

/-- A list gains a field in one of its members. -/
theorem Gains.exists_mem_isCollection {items : List Value} {w : Value}
    (gains : Gains name path (.list items) w) : ∃ item ∈ items, item.IsCollection := by
  generalize same : Value.list items = v at gains
  cases gains with
  | member inner =>
      cases same
      exact ⟨_, by simp, inner.isCollection.1⟩
  | here => cases same
  | field => cases same

end Value

end DocumentGateway
