import Mathlib.Data.List.Forall2

namespace DocumentGateway

/-!
# Peeling results

A computation of several steps that succeeds has succeeded in each step.  Later proofs take the
first step off and go on with what follows it.  The other way round, a first step that succeeds
leaves what follows it to be computed.  Computations for the members of a list, one after the other,
succeed together or fail with one of them.
-/

theorem bind_of_eq_ok {x : Except ε α} {a : α} (h : x = .ok a) (next : α → Except ε β) :
    x >>= next = next a := by
  rw [h]
  rfl

theorem eq_ok_of_toOption_eq_some {x : Except ε α} {a : α} (h : x.toOption = some a) : x = .ok a := by
  cases x with
  | error fault => cases h
  | ok b =>
      cases h
      rfl

theorem exists_of_isOk {x : Except ε α} (h : x.isOk = true) : ∃ a, x = .ok a := by
  cases x with
  | error fault => cases h
  | ok a => exact ⟨a, rfl⟩

theorem exists_of_isOk_eq_false {x : Except ε α} (h : x.isOk = false) : ∃ fault, x = .error fault := by
  cases x with
  | error fault => exact ⟨fault, rfl⟩
  | ok a => cases h

theorem eq_ok_of_isOk {x : Except ε Unit} (h : x.isOk = true) : x = .ok () :=
  (exists_of_isOk h).elim fun _ isOk => isOk

theorem exists_of_bind_eq_ok {x : Except ε α} {next : α → Except ε β} {b : β}
    (h : x.bind next = .ok b) : ∃ a, x = .ok a ∧ next a = .ok b := by
  cases x with
  | error fault => exact absurd h (by simp [Except.bind])
  | ok a => exact ⟨a, rfl, h⟩

theorem exists_of_map_eq_ok {x : Except ε α} {f : α → β} {b : β} (h : x.map f = .ok b) :
    ∃ a, x = .ok a ∧ f a = b := by
  cases x with
  | error fault => exact absurd h (by simp [Except.map])
  | ok a => exact ⟨a, rfl, Except.ok.inj h⟩

theorem eq_ok_of_mapError_eq_ok {x : Except ε α} {f : ε → ε'} {a : α} (h : x.mapError f = .ok a) :
    x = .ok a := by
  cases x with
  | error fault => cases h
  | ok b =>
      cases h
      rfl

/-! ## One after the other -/

/-- Computations one after the other succeed with some results when each of them succeeds with its
own. -/
theorem mapM_eq_ok_iff {f : α → Except ε β} {xs : List α} {ys : List β} :
    xs.mapM f = .ok ys ↔ List.Forall₂ (fun x y => f x = .ok y) xs ys := by
  constructor
  · intro h
    induction xs generalizing ys with
    | nil =>
        rw [← Except.ok.inj h]
        exact .nil
    | cons x xs ih =>
        rw [List.mapM_cons] at h
        rcases exists_of_bind_eq_ok h with ⟨y, found, h⟩
        rcases exists_of_bind_eq_ok h with ⟨ys, others, h⟩
        rw [← Except.ok.inj h]
        exact .cons found (ih others)
  · intro h
    induction h with
    | nil => rfl
    | cons found _ ih =>
        rw [List.mapM_cons, bind_of_eq_ok found, bind_of_eq_ok ih]
        rfl

/-- Of computations one after the other that fail, one fails. -/
theorem exists_of_mapM_eq_error {f : α → Except ε β} {xs : List α} {fault : ε}
    (h : xs.mapM f = .error fault) : ∃ x ∈ xs, f x = .error fault := by
  induction xs with
  | nil => cases h
  | cons x xs ih =>
      rw [List.mapM_cons] at h
      cases found : f x with
      | error first =>
          rw [found] at h
          cases h
          exact ⟨x, List.mem_cons_self, found⟩
      | ok y =>
          rw [bind_of_eq_ok found] at h
          cases others : xs.mapM f with
          | error first =>
              rw [others] at h
              cases h
              rcases ih others with ⟨other, member, failed⟩
              exact ⟨other, List.mem_cons_of_mem _ member, failed⟩
          | ok ys =>
              rw [others] at h
              cases h

/-- Of computations one after the other that succeed, each succeeds. -/
theorem exists_of_mem_of_mapM_eq_ok {f : α → Except ε β} {xs : List α} {ys : List β}
    (h : xs.mapM f = .ok ys) : ∀ x ∈ xs, ∃ y, f x = .ok y := by
  have each := mapM_eq_ok_iff.mp h
  clear h
  induction each with
  | nil => exact fun x member => absurd member List.not_mem_nil
  | cons first _ ih => exact List.forall_mem_cons.mpr ⟨⟨_, first⟩, ih⟩

end DocumentGateway
