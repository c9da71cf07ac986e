import DocumentGateway.Proofs.Number.Nearest
import Mathlib.Algebra.Order.Field.Rat
import Mathlib.Algebra.Order.Group.Abs
import Mathlib.Data.Rat.Cast.Order
import Mathlib.Order.Monotone.Basic
import Mathlib.Tactic.FieldSimp
import Mathlib.Tactic.Linarith
import Mathlib.Tactic.Positivity

namespace DocumentGateway

/-!
# Correct rounding

A decimal number converts to the binary number whose magnitude is nearest to its own, and to the
even one of two that are equally near.  The magnitudes go on beyond the finite ones in the same way,
and a decimal number that is nearest to one of those is infinite.  The nearest rank is found between
the two neighbours of a ratio: the magnitudes grow with the ranks, so that every other one is
farther away.
-/

namespace Binary64

/-- The exact value of a rank. -/
def magnitude (rank : Nat) : ℚ :=
  units rank / 2 ^ 1074

/-- A rank is nearest to a value when no other one is nearer, and it is even when another one is as
near. -/
structure IsNearest (value : ℚ) (rank : Nat) : Prop where
  least : ∀ other, |magnitude rank - value| ≤ |magnitude other - value|
  even : ∀ other, other ≠ rank → |magnitude other - value| = |magnitude rank - value| → rank % 2 = 0

/-! ## Neighbours -/

/-- From one rank to the next the magnitude grows by the unit of the former. -/
theorem units_succ (rank : Nat) : units (rank + 1) = units rank + 2 ^ scale rank := by
  have next : significand (rank + 1) * 2 ^ scale (rank + 1) =
      (significand rank + 1) * 2 ^ scale rank := by
    by_cases same : scale (rank + 1) = scale rank
    · have one : significand (rank + 1) = significand rank + 1 := by
        have whole := scale_mul_add_significand rank
        have wholeNext := scale_mul_add_significand (rank + 1)
        rw [same] at wholeNext
        omega
      rw [same, one]
    · -- The next rank begins a binade: half as many units, each of them twice as large.
      have binade : scale (rank + 1) = scale rank + 1 ∧ significand rank = 2 ^ 53 - 1 ∧
          significand (rank + 1) = 2 ^ 52 := by
        rw [scale_eq, scale_eq] at same
        rw [significand_eq, significand_eq, scale_eq, scale_eq]
        omega
      rw [binade.1, binade.2.1, binade.2.2, pow_succ]
      ring
  rw [units_eq, units_eq, next]
  ring

theorem strictMono_units : StrictMono units :=
  strictMono_nat_of_lt_succ fun rank => by
    rw [units_succ]
    exact Nat.lt_add_of_pos_right (Nat.two_pow_pos _)

theorem strictMono_magnitude : StrictMono magnitude := by
  intro rank other less
  have units : (units rank : ℚ) < units other := Nat.cast_lt.mpr (strictMono_units less)
  exact div_lt_div_of_pos_right units (by positivity)

/-- A rounded quotient is one of the two neighbours of the quotient: the nearer one, and of two that
are equally near the even one. -/
theorem roundHalfEven_cases (a b : Nat) :
    (roundHalfEven a b = a / b ∧ 2 * (a % b) ≤ b ∧ (2 * (a % b) = b → a / b % 2 = 0)) ∨
      (roundHalfEven a b = a / b + 1 ∧ b ≤ 2 * (a % b) ∧
        (2 * (a % b) = b → (a / b + 1) % 2 = 0)) := by
  simp only [roundHalfEven]
  split
  · exact Or.inl ⟨rfl, by omega, by omega⟩
  · split
    · exact Or.inr ⟨rfl, by omega, by omega⟩
    · split
      · exact Or.inl ⟨rfl, by omega, by omega⟩
      · exact Or.inr ⟨rfl, by omega, by omega⟩

/-- The rank right below a ratio: its magnitude is reached, and what is missing to the ratio is the
remainder of the quotient that is rounded. -/
theorem exists_neighbours (num : Nat) {den : Nat} (positive : 0 < den) :
    ∃ below step, 0 < step ∧
      num * 2 ^ 1074 = units below * den + num * 2 ^ 1074 % step ∧
      units (below + 1) * den = units below * den + step ∧
      ((nearestRank num den = below ∧ 2 * (num * 2 ^ 1074 % step) ≤ step ∧
          (2 * (num * 2 ^ 1074 % step) = step → below % 2 = 0)) ∨
        (nearestRank num den = below + 1 ∧ step ≤ 2 * (num * 2 ^ 1074 % step) ∧
          (2 * (num * 2 ^ 1074 % step) = step → (below + 1) % 2 = 0))) := by
  have formula := nearestRank_eq num den
  generalize num * 2 ^ 1074 = exact at formula ⊢
  generalize isShift : (exact / den).log2 - 52 = shift at formula
  have stepPositive : 0 < den * 2 ^ shift := Nat.mul_pos positive (Nat.two_pow_pos _)
  have quotient : exact / (den * 2 ^ shift) = exact / den / 2 ^ shift :=
    (Nat.div_div_eq_div_mul exact den (2 ^ shift)).symm
  have upper : exact / (den * 2 ^ shift) < 2 ^ 53 := by
    rw [quotient, Nat.div_lt_iff_lt_mul (Nat.two_pow_pos _), ← Nat.pow_add]
    exact Nat.lt_log2_self.trans_le (Nat.pow_le_pow_right Nat.two_pos (by omega))
  have lower : 0 < shift → 2 ^ 52 ≤ exact / (den * 2 ^ shift) := by
    intro shifted
    have nonzero : exact / den ≠ 0 := by
      intro zero
      rw [zero, Nat.log2_zero] at isShift
      omega
    rw [quotient, Nat.le_div_iff_mul_le (Nat.two_pow_pos _), ← Nat.pow_add]
    exact (Nat.le_log2 nonzero).mp (by omega)
  generalize isWhole : exact / (den * 2 ^ shift) = whole at upper lower
  have isScale : scale (shift * 2 ^ 52 + whole) = shift := by
    rw [scale_eq]
    rcases Nat.eq_zero_or_pos shift with zero | shifted
    · rw [zero]
      omega
    · have atLeast := lower shifted
      omega
  have isUnits : units (shift * 2 ^ 52 + whole) = whole * 2 ^ shift := by
    rw [units_eq, significand_eq, isScale, Nat.add_sub_cancel_left]
  have apart := Nat.div_add_mod exact (den * 2 ^ shift)
  refine ⟨shift * 2 ^ 52 + whole, den * 2 ^ shift, stepPositive, ?_, ?_, ?_⟩
  · rw [isUnits]
    rw [isWhole] at apart
    calc exact = den * 2 ^ shift * whole + exact % (den * 2 ^ shift) := apart.symm
      _ = whole * 2 ^ shift * den + exact % (den * 2 ^ shift) := by ring
  · rw [units_succ, isScale]
    ring
  · have rounded := roundHalfEven_cases exact (den * 2 ^ shift)
    rw [isWhole] at rounded
    rw [formula]
    rcases rounded with ⟨same, near, tie⟩ | ⟨same, near, tie⟩
    · exact Or.inl ⟨by rw [same], near, fun half => by have even := tie half; omega⟩
    · exact Or.inr ⟨by rw [same]; ring, near, fun half => by have even := tie half; omega⟩

/-! ## The nearest rank -/

/-- The distance of a rank from a ratio, counted in the smallest magnitude and the denominator. -/
def gap (num den rank : Nat) : Nat :=
  (units rank * den - num * 2 ^ 1074) + (num * 2 ^ 1074 - units rank * den)

theorem abs_magnitude_sub (num : Nat) {den : Nat} (positive : 0 < den) (rank : Nat) :
    |magnitude rank - num / den| = gap num den rank / (2 ^ 1074 * den) := by
  have denominator : (0 : ℚ) < den := Nat.cast_pos.mpr positive
  have difference : magnitude rank - num / den =
      ((units rank * den : Nat) - (num * 2 ^ 1074 : Nat) : ℚ) / (2 ^ 1074 * den) := by
    rw [magnitude, Nat.cast_mul, Nat.cast_mul, Nat.cast_pow, Nat.cast_ofNat]
    field_simp
  have distance : |((units rank * den : Nat) - (num * 2 ^ 1074 : Nat) : ℚ)| = gap num den rank := by
    rw [gap]
    generalize units rank * den = x
    generalize num * 2 ^ 1074 = y
    rcases Nat.le_total x y with le | le
    · rw [Nat.sub_eq_zero_of_le le, Nat.zero_add, Nat.cast_sub le, abs_sub_comm]
      exact abs_of_nonneg (sub_nonneg.mpr (Nat.cast_le.mpr le))
    · rw [Nat.sub_eq_zero_of_le le, Nat.add_zero, Nat.cast_sub le]
      exact abs_of_nonneg (sub_nonneg.mpr (Nat.cast_le.mpr le))
  rw [difference, abs_div, distance, abs_of_pos (mul_pos (by positivity) denominator)]

theorem isNearest_nearestRank (num : Nat) {den : Nat} (positive : 0 < den) :
    IsNearest (num / den) (nearestRank num den) := by
  have scaled : (0 : ℚ) < 2 ^ 1074 * den := mul_pos (by positivity) (Nat.cast_pos.mpr positive)
  rcases exists_neighbours num positive with ⟨below, step, stepPositive, exact, above, rounded⟩
  -- What lies below the lower neighbour is farther away than it, and likewise above.
  have farther : ∀ other, (other ≤ below ∧ units other * den ≤ units below * den ∧
        (other ≠ below → units other * den < units below * den)) ∨
      (below + 1 ≤ other ∧ units below * den + step ≤ units other * den ∧
        (other ≠ below + 1 → units below * den + step < units other * den)) := by
    intro other
    rcases Nat.lt_or_ge below other with more | less
    · refine Or.inr ⟨more, above ▸ Nat.mul_le_mul_right den (strictMono_units.monotone more), ?_⟩
      intro different
      exact above ▸ Nat.mul_lt_mul_of_pos_right (strictMono_units (by omega)) positive
    · refine Or.inl ⟨less, Nat.mul_le_mul_right den (strictMono_units.monotone less), ?_⟩
      intro different
      exact Nat.mul_lt_mul_of_pos_right (strictMono_units (by omega)) positive
  have remainder := Nat.mod_lt (num * 2 ^ 1074) stepPositive
  constructor
  · intro other
    rw [abs_magnitude_sub num positive, abs_magnitude_sub num positive]
    refine div_le_div_of_nonneg_right (Nat.cast_le.mpr ?_) scaled.le
    have place := farther other
    rw [gap, gap]
    rcases rounded with ⟨same, near, -⟩ | ⟨same, near, -⟩
    · rw [same]
      omega
    · rw [same, above]
      omega
  · intro other different equal
    rw [abs_magnitude_sub num positive, abs_magnitude_sub num positive,
      div_left_inj' scaled.ne', Nat.cast_inj, gap, gap] at equal
    have place := farther other
    rcases rounded with ⟨same, near, tie⟩ | ⟨same, near, tie⟩
    · rw [same] at different equal ⊢
      exact tie (by omega)
    · rw [same] at different
      rw [same, above] at equal
      rw [same]
      exact tie (by omega)

/-- There is one nearest rank. -/
theorem IsNearest.eq {value : ℚ} {rank other : Nat} (first : IsNearest value rank)
    (second : IsNearest value other) : rank = other := by
  have apart : ∀ {rank other : Nat}, IsNearest value rank → IsNearest value other →
      ¬ rank < other := by
    intro rank other first second less
    have equal : |magnitude rank - value| = |magnitude other - value| :=
      le_antisymm (first.least other) (second.least rank)
    have evenFirst := first.even other less.ne' equal.symm
    have evenSecond := second.even rank less.ne equal
    -- Two even ranks have another one between them, which is nearer than both.
    have left := strictMono_magnitude (show rank < rank + 1 by omega)
    have right := strictMono_magnitude (show rank + 1 < other by omega)
    have nearer := first.least (rank + 1)
    rcases abs_eq_abs.mp equal with same | opposite
    · linarith
    · have below : magnitude rank - value < 0 := by linarith
      rw [abs_of_neg below] at nearer
      rcases abs_cases (magnitude (rank + 1) - value) with ⟨distance, -⟩ | ⟨distance, -⟩ <;>
        rw [distance] at nearer <;> linarith
  exact Nat.le_antisymm (Nat.le_of_not_lt (apart second first)) (Nat.le_of_not_lt (apart first second))

/-! ## Overflow -/

/-- The middle between the largest finite magnitude and the first one beyond it. -/
def overflow : Nat :=
  Nat.pow 2 1024 - Nat.pow 2 970

/-- The largest finite magnitude, the middle and the first magnitude beyond it are successive
multiples of one unit. -/
theorem exists_unit : ∃ unit, 0 < unit ∧ units (ranks - 1) = (2 ^ 54 - 2) * unit ∧
    units ranks = 2 ^ 54 * unit ∧ ∀ n, overflow ≤ n ↔ (2 ^ 54 - 1) * unit ≤ n * 2 ^ 1074 := by
  have last : scale (ranks - 1) = 970 + 1074 + 1 ∧ significand (ranks - 1) * 2 = 2 ^ 54 - 2 := by
    rw [significand_eq, scale_eq, ranks_eq]
    decide
  have next : scale ranks = 970 + 1074 + 2 ∧ significand ranks * 2 ^ 2 = 2 ^ 54 := by
    rw [significand_eq, scale_eq, ranks_eq]
    decide
  have middle : overflow = (2 ^ 54 - 1) * 2 ^ 970 := by decide +kernel
  generalize overflow = bound at middle ⊢
  generalize 970 = places at last next middle
  generalize 1074 = more at last next ⊢
  refine ⟨2 ^ (places + more), Nat.two_pow_pos _, ?_, ?_, fun n => ?_⟩
  · rw [units_eq, last.1, Nat.pow_add_one', ← Nat.mul_assoc, last.2]
  · rw [units_eq, next.1, Nat.pow_add 2 _ 2, Nat.mul_comm (2 ^ (places + more)), ← Nat.mul_assoc,
      next.2]
  · rw [middle, Nat.pow_add, ← Nat.mul_assoc]
    exact (Nat.mul_le_mul_right_iff (Nat.two_pow_pos more)).symm

/-- A whole number is nearest to a rank beyond the finite ones exactly from the middle on: the last
finite rank is odd, so that it does not get the middle itself. -/
theorem ranks_le_nearestRank_iff (n : Nat) : ranks ≤ nearestRank n 1 ↔ overflow ≤ n := by
  rcases exists_neighbours n Nat.one_pos with ⟨below, step, positive, exact, above, rounded⟩
  rcases exists_unit with ⟨unit, unitPositive, last, next, middle⟩
  have odd : (ranks - 1) % 2 = 1 := rfl
  have remainder := Nat.mod_lt (n * 2 ^ 1074) positive
  have monotone := strictMono_units.monotone
  rw [middle]
  -- The powers of two are too large to count with, and only the unit matters.
  clear middle
  generalize nearestRank n 1 = rank at rounded ⊢
  generalize n * 2 ^ 1074 = exactly at exact rounded remainder ⊢
  generalize exactly % step = rest at exact rounded remainder
  rw [Nat.mul_one] at exact above
  generalize ranks = count at last next odd ⊢
  rcases Nat.lt_trichotomy (below + 1) count with less | same | more
  · have under := monotone (show below + 1 ≤ count - 1 by omega)
    omega
  · rw [← same, Nat.add_sub_cancel] at last odd
    rw [← same] at next ⊢
    omega
  · have beyond := monotone (show count ≤ below by omega)
    omega

/-- An integer has a nearest number unless it reaches the middle. -/
theorem ofInt?_eq_none_iff (i : Int) : ofInt? i = none ↔ overflow ≤ i.natAbs := by
  rw [← ranks_le_nearestRank_iff, ofInt?, dite_eq_right_iff, ← not_lt]
  exact ⟨fun none within => (nomatch none within), fun beyond within => absurd within beyond⟩

end Binary64

namespace Decimal

/-- The exact value of a decimal number, without its sign. -/
def magnitude (d : Decimal) : ℚ :=
  d.digits * 10 ^ d.exponent

/-- The binary number that a decimal number is rounded to: that of the nearest rank, which is
infinite beyond the finite ones. -/
def RoundsTo (d : Decimal) (x : Binary64) : Prop :=
  ∃ rank, Binary64.IsNearest d.magnitude rank ∧ x = .ofRank d.negative rank

/-- A magnitude of more than four hundred places before the point is beyond the finite ones. -/
theorem ranks_le_nearestRank {num den : Nat} (positive : 0 < den) (large : 10 ^ 400 * den ≤ num) :
    Binary64.ranks ≤ Binary64.nearestRank num den := by
  have reached : 2 ^ (1025 + 1074) ≤ num * 2 ^ 1074 / den := by
    rw [Nat.le_div_iff_mul_le positive]
    calc 2 ^ (1025 + 1074) * den = 2 ^ 1025 * den * 2 ^ 1074 := by
          rw [Nat.pow_add, Nat.mul_right_comm]
      _ ≤ 10 ^ 400 * den * 2 ^ 1074 :=
          Nat.mul_le_mul_right _ (Nat.mul_le_mul_right _ (by decide +kernel))
      _ ≤ num * 2 ^ 1074 := Nat.mul_le_mul_right _ large
  have nonzero : num * 2 ^ 1074 / den ≠ 0 :=
    Nat.ne_zero_of_lt (Nat.lt_of_lt_of_le (Nat.two_pow_pos _) reached)
  have places : 1025 + 1074 ≤ (num * 2 ^ 1074 / den).log2 := (Nat.le_log2 nonzero).mpr reached
  have formula := Binary64.nearestRank_eq num den
  generalize (num * 2 ^ 1074 / den).log2 = bits at places formula
  generalize roundHalfEven _ _ = steps at formula
  rw [formula, Binary64.ranks_eq]
  omega

/-- A magnitude that begins more than four hundred places behind the point is nearest to zero. -/
theorem nearestRank_eq_zero {num den : Nat} (small : num * 10 ^ 400 < den) :
    Binary64.nearestRank num den = 0 := by
  have below : 2 * (num * 2 ^ 1074) < den := by
    calc 2 * (num * 2 ^ 1074) = num * 2 ^ 1075 := by rw [pow_succ 2 1074]; ring
      _ ≤ num * 10 ^ 400 := Nat.mul_le_mul_left _ (by decide +kernel)
      _ < den := small
  have remainder : num * 2 ^ 1074 % den = num * 2 ^ 1074 := Nat.mod_eq_of_lt (by omega)
  have quotient : num * 2 ^ 1074 / den = 0 := Nat.div_eq_of_lt (by omega)
  rw [Binary64.nearestRank_eq, quotient, Nat.log2_zero, Nat.zero_sub, Nat.zero_mul, Nat.zero_add,
    pow_zero, Nat.mul_one, roundHalfEven]
  simp only [quotient, remainder, if_pos below]

/-- The shortcuts for magnitudes that are very large or very small change nothing. -/
theorem toBinary64_eq_ofRatio (d : Decimal) :
    d.toBinary64 =
      .ofRatio d.negative (d.digits * 10 ^ d.exponent.toNat) (10 ^ (-d.exponent).toNat) := by
  rcases d with ⟨negative, digits, exponent⟩
  have positive : 0 < 10 ^ (-exponent).toNat := Nat.pow_pos (by decide)
  simp only [toBinary64, Bool.or_eq_true, decide_eq_true_eq, Nat.pow_eq]
  split
  · next none =>
      rw [Binary64.ofRatio]
      refine congrArg (Binary64.ofRank negative) (nearestRank_eq_zero ?_).symm
      rcases none with zero | small
      · rw [zero, Nat.zero_mul, Nat.zero_mul]
        exact positive
      · have noPlaces : exponent.toNat = 0 := by omega
        rw [noPlaces, pow_zero, Nat.mul_one]
        calc digits * 10 ^ 400 < 10 ^ digitCount digits * 10 ^ 400 :=
              Nat.mul_lt_mul_of_pos_right (lt_pow_digitCount digits) (Nat.pow_pos (by decide))
          _ = 10 ^ (digitCount digits + 400) := (Nat.pow_add ..).symm
          _ ≤ 10 ^ (-exponent).toNat := Nat.pow_le_pow_right (by decide) (by omega)
  · next some =>
      rw [not_or] at some
      split
      · next large =>
          have enough : 10 ^ 400 * 10 ^ (-exponent).toNat ≤ digits * 10 ^ exponent.toNat := by
            calc 10 ^ 400 * 10 ^ (-exponent).toNat = 10 ^ (400 + (-exponent).toNat) :=
                  (Nat.pow_add ..).symm
              _ ≤ 10 ^ (digitCount digits - 1 + exponent.toNat) :=
                  Nat.pow_le_pow_right (by decide) (by omega)
              _ = 10 ^ (digitCount digits - 1) * 10 ^ exponent.toNat := Nat.pow_add ..
              _ ≤ digits * 10 ^ exponent.toNat :=
                  Nat.mul_le_mul_right _ (pow_digitCount_pred_le some.1)
          have beyond := ranks_le_nearestRank positive enough
          rw [Binary64.ofRatio, Binary64.ofRank, dif_neg (Nat.not_lt_of_le beyond)]
      · split
        · next whole =>
            have noFraction : (-exponent).toNat = 0 := by omega
            rw [noFraction, pow_zero]
        · next fraction =>
            have noWhole : exponent.toNat = 0 := by omega
            rw [noWhole, pow_zero, Nat.mul_one]

theorem magnitude_eq_div (d : Decimal) :
    d.magnitude =
      ((d.digits * 10 ^ d.exponent.toNat : Nat) : ℚ) / ((10 ^ (-d.exponent).toNat : Nat) : ℚ) := by
  rw [magnitude, Nat.cast_mul, Nat.cast_pow, Nat.cast_pow, Nat.cast_ofNat]
  rcases Int.le_total 0 d.exponent with whole | fraction
  · have places : d.exponent = (d.exponent.toNat : Int) := (Int.toNat_of_nonneg whole).symm
    have noFraction : (-d.exponent).toNat = 0 := by omega
    rw [noFraction, pow_zero, div_one]
    conv_lhs => rw [places, zpow_natCast]
  · have places : d.exponent = -((-d.exponent).toNat : Int) := by omega
    have noWhole : d.exponent.toNat = 0 := by omega
    rw [noWhole, pow_zero, mul_one, div_eq_mul_inv]
    conv_lhs => rw [places, zpow_neg, zpow_natCast]

/-- Conversion rounds correctly. -/
theorem roundsTo_iff {d : Decimal} {x : Binary64} : d.RoundsTo x ↔ x = d.toBinary64 := by
  have positive : 0 < 10 ^ (-d.exponent).toNat := Nat.pow_pos (by decide)
  have nearest := Binary64.isNearest_nearestRank (d.digits * 10 ^ d.exponent.toNat) positive
  rw [← magnitude_eq_div] at nearest
  rw [toBinary64_eq_ofRatio, Binary64.ofRatio]
  constructor
  · rintro ⟨rank, isNearest, rfl⟩
    rw [isNearest.eq nearest]
  · rintro rfl
    exact ⟨_, nearest, rfl⟩

end Decimal

end DocumentGateway
