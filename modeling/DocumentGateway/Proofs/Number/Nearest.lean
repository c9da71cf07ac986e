import DocumentGateway.Number.Decimal
import DocumentGateway.Proofs.Number.DigitRow

namespace DocumentGateway

/-!
# The nearest binary number

Converting a decimal number depends on its value only: a common factor of a ratio is of no
account, and neither is a zero at the end of the digits that the exponent makes up for.  The exact
value of a finite binary number converts to that number.
-/

/-- A common factor does not change a rounded quotient. -/
theorem roundHalfEven_mul_right (a b : Nat) {k : Nat} (positive : 0 < k) :
    roundHalfEven (a * k) (b * k) = roundHalfEven a b := by
  have quotient : a * k / (b * k) = a / b := Nat.mul_div_mul_right a b positive
  have remainder : a * k % (b * k) = a % b * k := Nat.mul_mod_mul_right k a b
  have below : 2 * (a % b * k) < b * k ↔ 2 * (a % b) < b := by
    rw [← Nat.mul_assoc]
    exact Nat.mul_lt_mul_right positive
  have above : b * k < 2 * (a % b * k) ↔ b < 2 * (a % b) := by
    rw [← Nat.mul_assoc]
    exact Nat.mul_lt_mul_right positive
  simp only [roundHalfEven, quotient, remainder, below, above]

/-- A quotient without remainder is not rounded. -/
theorem roundHalfEven_mul_self (a : Nat) {b : Nat} (positive : 0 < b) :
    roundHalfEven (a * b) b = a := by
  simp [roundHalfEven, Nat.mul_div_cancel a positive, positive]

namespace Binary64

theorem ranks_eq : ranks = 2047 * 2 ^ 52 := rfl

theorem scale_eq (rank : Nat) : scale rank = rank / 2 ^ 52 - 1 := rfl

theorem significand_eq (rank : Nat) : significand rank = rank - scale rank * 2 ^ 52 := rfl

theorem units_eq (rank : Nat) : units rank = significand rank * 2 ^ scale rank := rfl

theorem nearestRank_eq (num den : Nat) :
    nearestRank num den = ((num * 2 ^ 1074 / den).log2 - 52) * 2 ^ 52 +
      roundHalfEven (num * 2 ^ 1074) (den * 2 ^ ((num * 2 ^ 1074 / den).log2 - 52)) := rfl

/-- A common factor of a ratio does not change the nearest rank. -/
theorem nearestRank_mul_right (num den : Nat) {k : Nat} (positive : 0 < k) :
    nearestRank (num * k) (den * k) = nearestRank num den := by
  have scaled : num * k * 2 ^ 1074 = num * 2 ^ 1074 * k := Nat.mul_right_comm _ _ _
  have quotient : num * k * 2 ^ 1074 / (den * k) = num * 2 ^ 1074 / den := by
    rw [scaled, Nat.mul_div_mul_right _ _ positive]
  rw [nearestRank_eq, nearestRank_eq, quotient, scaled, Nat.mul_right_comm den k,
    roundHalfEven_mul_right _ _ positive]

theorem ofRatio_mul_right (negative : Bool) (num den : Nat) {k : Nat} (positive : 0 < k) :
    ofRatio negative (num * k) (den * k) = ofRatio negative num den := by
  rw [ofRatio, nearestRank_mul_right num den positive, ofRatio]

/-- Beyond the first binade of normal numbers, a significand has exactly fifty-three places. -/
theorem significand_bounds {rank : Nat} (h : 2 ^ 53 ≤ rank) :
    2 ^ 52 ≤ significand rank ∧ significand rank < 2 ^ 53 := by
  rw [significand_eq, scale_eq]
  omega

theorem scale_of_lt {rank : Nat} (h : rank < 2 ^ 53) : scale rank = 0 := by
  rw [scale_eq]
  omega

/-- The binary places of a rank's magnitude, less those of a significand, are its scale. -/
theorem log2_units (rank : Nat) : (units rank).log2 - 52 = scale rank := by
  by_cases small : rank < 2 ^ 53
  · have magnitude : units rank = rank := by
      simp [units_eq, significand_eq, scale_of_lt small]
    rw [magnitude, scale_of_lt small]
    by_cases zero : rank = 0
    · rw [zero]
      rfl
    · have places := (Nat.log2_lt zero).mpr small
      omega
  · rcases significand_bounds (Nat.le_of_not_lt small) with ⟨low, high⟩
    have nonzero : units rank ≠ 0 :=
      Nat.mul_ne_zero (by omega) (Nat.two_pow_pos _).ne'
    have atLeast : 52 + scale rank ≤ (units rank).log2 := by
      rw [Nat.le_log2 nonzero, Nat.pow_add]
      exact Nat.mul_le_mul_right _ low
    have atMost : (units rank).log2 < 53 + scale rank := by
      rw [Nat.log2_lt nonzero, Nat.pow_add]
      exact Nat.mul_lt_mul_of_pos_right high (Nat.two_pow_pos _)
    omega

/-- The rank nearest to the exact magnitude of a rank is that rank. -/
theorem nearestRank_of_exact {rank num den : Nat} (positive : 0 < den)
    (exact : num * 2 ^ 1074 = units rank * den) : nearestRank num den = rank := by
  have quotient : num * 2 ^ 1074 / den = units rank := by
    rw [exact, Nat.mul_div_cancel _ positive]
  have aligned : num * 2 ^ 1074 = significand rank * (den * 2 ^ scale rank) := by
    rw [exact, units_eq]
    ring
  have rounded : roundHalfEven (num * 2 ^ 1074) (den * 2 ^ scale rank) = significand rank := by
    rw [aligned]
    exact roundHalfEven_mul_self _ (Nat.mul_pos positive (Nat.two_pow_pos _))
  rw [nearestRank_eq, quotient, log2_units, rounded]
  exact scale_mul_add_significand rank

/-- Finite magnitudes are below `2 ^ 1024`, counted in the smallest magnitude. -/
theorem units_lt {rank : Nat} (h : rank < ranks) : units rank < 2 ^ 2098 := by
  have scaleBound : scale rank ≤ 2045 := by
    rw [scale_eq]
    rw [ranks_eq] at h
    omega
  have significandBound : significand rank < 2 ^ 53 := by
    by_cases small : rank < 2 ^ 53
    · rw [significand_eq]
      omega
    · exact (significand_bounds (Nat.le_of_not_lt small)).2
  calc units rank = significand rank * 2 ^ scale rank := rfl
    _ < 2 ^ 53 * 2 ^ scale rank := Nat.mul_lt_mul_of_pos_right significandBound (Nat.two_pow_pos _)
    _ ≤ 2 ^ 53 * 2 ^ 2045 :=
        Nat.mul_le_mul_left _ (Nat.pow_le_pow_right Nat.two_pos scaleBound)
    _ = 2 ^ 2098 := by rw [← Nat.pow_add]

theorem units_pos {rank : Nat} (h : rank ≠ 0) : 0 < units rank := by
  refine Nat.mul_pos ?_ (Nat.two_pow_pos _)
  by_cases small : rank < 2 ^ 53
  · rw [significand_eq, scale_of_lt small]
    omega
  · have low := (significand_bounds (Nat.le_of_not_lt small)).1
    omega

end Binary64

namespace Decimal

/-- A zero at the end of the digits is made up for by the exponent. -/
theorem toBinary64_ten_mul (negative : Bool) (digits : Nat) (exponent : Int) :
    toBinary64 ⟨negative, 10 * digits, exponent - 1⟩ = toBinary64 ⟨negative, digits, exponent⟩ := by
  by_cases zero : digits = 0
  · subst zero
    simp [toBinary64]
  · have place : exponent - 1 + (digitCount (10 * digits) : Nat) =
        exponent + (digitCount digits : Nat) := by
      rw [digitCount_ten_mul zero]
      push_cast
      ring
    have same : 10 * digits = 0 ↔ digits = 0 := by omega
    have ratio :
        (if 0 ≤ exponent - 1 then
            Binary64.ofRatio negative (10 * digits * 10 ^ (exponent - 1).toNat) 1
          else Binary64.ofRatio negative (10 * digits) (10 ^ (-(exponent - 1)).toNat)) =
          if 0 ≤ exponent then Binary64.ofRatio negative (digits * 10 ^ exponent.toNat) 1
          else Binary64.ofRatio negative digits (10 ^ (-exponent).toNat) := by
      rcases lt_trichotomy exponent 0 with below | at_zero | above
      · have power : (-(exponent - 1)).toNat = (-exponent).toNat + 1 := by omega
        rw [if_neg (by omega), if_neg (by omega), power, pow_succ, Nat.mul_comm 10 digits,
          Binary64.ofRatio_mul_right _ _ _ (by decide)]
      · subst at_zero
        have unit := Binary64.ofRatio_mul_right negative digits 1 (k := 10) (by decide)
        simpa [Nat.mul_comm 10 digits] using unit
      · have power : exponent.toNat = (exponent - 1).toNat + 1 := by omega
        rw [if_pos (by omega), if_pos (by omega), power, pow_succ]
        congr 1
        ring
    simp only [toBinary64, Nat.pow_eq, place, same]
    rw [ratio]

/-- Zeros at the end of the digits are made up for by the exponent. -/
theorem toBinary64_mul_pow (negative : Bool) (digits count : Nat) (exponent : Int) :
    toBinary64 ⟨negative, digits * 10 ^ count, exponent - count⟩ =
      toBinary64 ⟨negative, digits, exponent⟩ := by
  induction count with
  | zero => simp
  | succ count ih =>
      have more : digits * 10 ^ (count + 1) = 10 * (digits * 10 ^ count) := by ring
      have less : exponent - ((count + 1 : Nat) : Int) = exponent - count - 1 := by
        push_cast
        ring
      rw [more, less, toBinary64_ten_mul, ih]

/-- The sign of a decimal number becomes the sign of the binary number, and has no influence on its
magnitude. -/
theorem toBinary64_sign {digits : Nat} {exponent : Int} {rank : Nat} (h : rank < Binary64.ranks)
    (converted : toBinary64 ⟨false, digits, exponent⟩ = .ofRank false rank) (negative : Bool) :
    toBinary64 ⟨negative, digits, exponent⟩ = .ofRank negative rank := by
  have unsigned : ∀ other, Binary64.ofRank false other = .ofRank false rank →
      Binary64.ofRank negative other = .ofRank negative rank := by
    intro other same
    simp only [Binary64.ofRank, dif_pos h] at same ⊢
    split at same
    · simp only [Binary64.finite.injEq, Fin.mk.injEq, true_and] at same
      subst same
      rw [dif_pos h]
    · cases same
  simp only [toBinary64, Binary64.ofRatio] at converted ⊢
  split at converted
  · rw [if_pos ‹_›]
    exact unsigned _ converted
  · rw [if_neg ‹_›]
    split at converted
    · rw [Binary64.ofRank, dif_pos h] at converted
      cases converted
    · rw [if_neg ‹_›]
      split at converted
      · rw [if_pos ‹_›]
        exact unsigned _ converted
      · rw [if_neg ‹_›]
        exact unsigned _ converted

/-! ## The shortest digits -/

/-- A candidate is chosen only when it converts back. -/
theorem converts_of_candidate? {rank working length count : Nat} {found : Nat × Int}
    (h : candidate? rank working length count = some found) : converts rank found = true := by
  unfold candidate? at h
  simp only at h
  split at h
  · next lower upper =>
      simp only [Option.some.injEq] at h
      subst h
      split
      · exact lower
      · split
        · exact upper
        · split
          · exact lower
          · exact upper
  · next lower _ => exact Option.some.inj h ▸ lower
  · next _ upper => exact Option.some.inj h ▸ upper
  · cases h

/-- All decimal places of a magnitude convert back. -/
theorem converts_exact {rank : Nat} (nonzero : rank ≠ 0) (h : rank < Binary64.ranks) :
    converts rank (Binary64.units rank * 5 ^ 1074, -1074) = true := by
  have positive := Binary64.units_pos nonzero
  have digits : Binary64.units rank * 5 ^ 1074 ≠ 0 :=
    Nat.mul_ne_zero positive.ne' (Nat.pow_pos (by decide)).ne'
  have most : digitCount (Binary64.units rank * 5 ^ 1074) ≤ 1474 := by
    apply digitCount_le_of_lt_pow (by decide)
    calc Binary64.units rank * 5 ^ 1074
        < 2 ^ 2098 * 5 ^ 1074 :=
          Nat.mul_lt_mul_of_pos_right (Binary64.units_lt h) (Nat.pow_pos (by decide))
      _ ≤ 10 ^ 1474 := by decide +kernel
  have least : 673 < digitCount (Binary64.units rank * 5 ^ 1074) := by
    apply lt_digitCount_of_pow_le
    calc 10 ^ 673 ≤ 5 ^ 1074 := by decide +kernel
      _ ≤ Binary64.units rank * 5 ^ 1074 := Nat.le_mul_of_pos_left _ positive
  have ratio : Binary64.units rank * 5 ^ 1074 * 2 ^ 1074 = Binary64.units rank * 10 ^ 1074 := by
    rw [Nat.mul_assoc, ← Nat.mul_pow]
  have nearest : Binary64.nearestRank (Binary64.units rank * 5 ^ 1074) (10 ^ 1074) = rank :=
    Binary64.nearestRank_of_exact (Nat.pow_pos (by decide)) ratio
  have zero : ¬ (Binary64.units rank * 5 ^ 1074 = 0 ∨
      -1074 + (digitCount (Binary64.units rank * 5 ^ 1074) : Int) < -400) := by omega
  have large : ¬ 400 < -1074 + (digitCount (Binary64.units rank * 5 ^ 1074) : Int) := by omega
  have exponent : (- -1074 : Int).toNat = 1074 := rfl
  simp only [converts, toBinary64, Bool.or_eq_true, decide_eq_true_eq]
  rw [if_neg zero, if_neg large, if_neg (by decide), exponent, Binary64.ofRatio, Nat.pow_eq, nearest]

/-- The digits that show a magnitude convert back to it. -/
theorem converts_shortest {rank : Nat} (nonzero : rank ≠ 0) (h : rank < Binary64.ranks) :
    converts rank (shortest rank) = true := by
  have exact := converts_exact nonzero h
  unfold shortest
  extract_lets working length
  cases chosen : (List.range 17).findSome? fun i => candidate? rank working length (i + 1) with
  | none => exact exact
  | some found =>
      rcases List.exists_of_findSome?_eq_some chosen with ⟨count, -, candidate⟩
      exact converts_of_candidate? candidate

end Decimal

end DocumentGateway
