import DocumentGateway.Xml.Tally

namespace DocumentGateway
namespace Xml

/-!
# What a reading gives

Whatever is counted before and after, a reading that ends gives something with a certain property.
The property of a whole reading follows from those of its steps.  Where it is known what the first
step gives, the steps behind it are what is left of the reading.
-/

namespace Reading

/-- Whatever is read has a property. -/
def Ensures (reading : Reading α) (holds : α → Prop) : Prop :=
  ∀ tally a after, reading tally = .ok (a, after) → holds a

variable {holds : α → Prop} {holdsNext : β → Prop}

theorem ensures_pure {a : α} (h : holds a) : Ensures (pure a) holds := by
  intro tally found after same
  cases same
  exact h

/-- A computation that keeps no tally ensures what holds of its results. -/
theorem ensures_liftM {x : Except Stop α} (h : ∀ a, x = .ok a → holds a) :
    Ensures (liftM x) holds := by
  intro tally found after same
  cases x with
  | error s => exact absurd same (by rintro ⟨⟩)
  | ok a =>
      cases same
      exact h _ rfl

theorem ensures_liftM_of_eq_ok {x : Except Stop α} {a : α} (h : x = .ok a) :
    Ensures (liftM x) (· = a) :=
  ensures_liftM fun _ same => Except.ok.inj (same.symm.trans h)

/-- Stopping ensures everything. -/
theorem ensures_stop {cause : Cause} {place : List Char} :
    Ensures (liftM (stop (α := α) cause place)) holds :=
  ensures_liftM fun _ same => absurd same (by rintro ⟨⟩)

theorem ensures_true (reading : Reading α) : Ensures reading fun _ => True :=
  fun _ _ _ _ => trivial

namespace Ensures

variable {reading : Reading α} {next : α → Reading β}

theorem mono (h : Ensures reading holds) {weaker : α → Prop} (implied : ∀ a, holds a → weaker a) :
    Ensures reading weaker :=
  fun tally a after same => implied a (h tally a after same)

/-- What the first step ensures may be used for the steps behind it. -/
theorem bind (h : Ensures reading holds) (hNext : ∀ a, holds a → Ensures (next a) holdsNext) :
    Ensures (reading >>= next) holdsNext := by
  intro tally b after same
  change Except.bind (reading tally) (fun (a, between) => next a between) = _ at same
  cases first : reading tally with
  | error s =>
      rw [first] at same
      exact absurd same (by rintro ⟨⟩)
  | ok result =>
      rw [first] at same
      exact hNext result.1 (h tally result.1 result.2 first) result.2 b after same

theorem ite {c : Prop} [Decidable c] {ifTrue ifFalse : Reading α}
    (hTrue : c → Ensures ifTrue holds) (hFalse : ¬ c → Ensures ifFalse holds) :
    Ensures (if c then ifTrue else ifFalse) holds := by
  split
  · next h => exact hTrue h
  · next h => exact hFalse h

theorem movedTo (h : Ensures reading holds) (place : List Char) :
    Ensures (reading.movedTo place) holds := by
  intro tally a after same
  unfold Reading.movedTo at same
  cases found : reading tally with
  | error s =>
      rw [found] at same
      exact absurd same (by rintro ⟨⟩)
  | ok result =>
      rw [found] at same
      cases same
      exact h tally _ _ found

end Ensures

/-- A step of which nothing is known comes before. -/
theorem ensures_bind {reading : Reading α} {next : α → Reading β}
    (h : ∀ a, Ensures (next a) holdsNext) : Ensures (reading >>= next) holdsNext :=
  (ensures_true reading).bind fun a _ => h a

/-! ## Steps that are known -/

/-- The first step of a reading gives something and leaves the rest to the steps behind it. -/
theorem bind_of_eq_ok {reading : Reading α} {tally between : Tally} {a : α}
    (h : reading tally = .ok (a, between)) (next : α → Reading β) :
    (reading >>= next) tally = next a between := by
  change Except.bind (reading tally) (fun result => next result.1 result.2) = _
  rw [h]
  rfl

theorem liftM_of_eq_ok {x : Except Stop α} {a : α} (h : x = .ok a) (tally : Tally) :
    (liftM x : Reading α) tally = .ok (a, tally) := by
  rw [h]
  rfl

end Reading

end Xml
end DocumentGateway
