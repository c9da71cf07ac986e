import DocumentGateway.Number.Digits
import Mathlib.Tactic.Ring

namespace DocumentGateway

/-!
# Rows of decimal digits

The digits of a number are ASCII digits, and the first of them is no zero unless the number is
zero.  Their count places the number between two powers of ten, and zeros behind the digits
multiply the number by ten each.
-/

/-- Behind a row of digits, more digits are read from the number that the row spells. -/
theorem digitsValueFrom_append (n : Nat) (front back : List Char) :
    digitsValueFrom n (front ++ back) = digitsValueFrom (digitsValueFrom n front) back :=
  List.foldl_append

theorem digitsValue_append (front back : List Char) :
    digitsValue (front ++ back) = digitsValueFrom (digitsValue front) back :=
  digitsValueFrom_append 0 front back

/-- Zeros behind a number multiply it by ten each. -/
theorem digitsValueFrom_zeros (n count : Nat) :
    digitsValueFrom n (List.replicate count '0') = n * 10 ^ count := by
  induction count generalizing n with
  | zero => simp [digitsValueFrom]
  | succ count ih =>
      have step : digitsValueFrom n (List.replicate (count + 1) '0') =
          digitsValueFrom (10 * n) (List.replicate count '0') := by
        simp [digitsValueFrom, List.replicate_succ, asciiDigitValue]
      rw [step, ih, pow_succ]
      ring

/-- Zeros in front of a number do not count. -/
theorem digitsValue_zeros_append (count : Nat) (digits : List Char) :
    digitsValue (List.replicate count '0' ++ digits) = digitsValue digits := by
  have zeros : digitsValue (List.replicate count '0') = 0 := by
    rw [digitsValue, digitsValueFrom_zeros, Nat.zero_mul]
  rw [digitsValue_append, zeros]
  rfl

theorem isAsciiDigit_digitChar {n : Nat} (h : n < 10) : isAsciiDigit (digitChar n) = true := by
  match n, h with
  | 0, _ | 1, _ | 2, _ | 3, _ | 4, _ | 5, _ | 6, _ | 7, _ | 8, _ | 9, _ => rfl

/-- Numbers are written with ASCII digits only. -/
theorem isAsciiDigit_of_mem_decimalDigits (n : Nat) :
    ∀ c ∈ decimalDigits n, isAsciiDigit c = true := by
  induction n using Nat.strongRecOn with
  | ind n ih =>
      intro c member
      by_cases small : n < 10
      · rw [decimalDigits_of_lt_ten small, List.mem_singleton] at member
        exact member ▸ isAsciiDigit_digitChar small
      · rw [decimalDigits_of_ten_le (by omega), List.mem_append, List.mem_singleton] at member
        rcases member with tens | last
        · exact ih (n / 10) (by omega) c tens
        · exact last ▸ isAsciiDigit_digitChar (Nat.mod_lt n (by decide))

/-- The first digit of a number other than zero is no zero. -/
theorem head_decimalDigits {n : Nat} (h : n ≠ 0) :
    ∃ d rest, decimalDigits n = d :: rest ∧ d ≠ '0' := by
  induction n using Nat.strongRecOn with
  | ind n ih =>
      by_cases small : n < 10
      · refine ⟨digitChar n, [], decimalDigits_of_lt_ten small, ?_⟩
        intro zero
        have value := asciiDigitValue_digitChar small
        rw [zero] at value
        exact h value.symm
      · rcases ih (n / 10) (by omega) (by omega) with ⟨d, rest, digits, nonzero⟩
        refine ⟨d, rest ++ [digitChar (n % 10)], ?_, nonzero⟩
        rw [decimalDigits_of_ten_le (by omega), digits, List.cons_append]

theorem decimalDigits_ne_nil (n : Nat) : decimalDigits n ≠ [] := by
  by_cases zero : n = 0
  · rw [zero, decimalDigits_of_lt_ten (by decide)]
    exact List.cons_ne_nil _ []
  · rcases head_decimalDigits zero with ⟨d, rest, digits, -⟩
    rw [digits]
    exact List.cons_ne_nil d rest

/-! ## The number of digits -/

theorem digitCount_of_lt_ten {n : Nat} (h : n < 10) : digitCount n = 1 := by
  rw [digitCount, decimalDigits_of_lt_ten h, List.length_singleton]

theorem digitCount_of_ten_le {n : Nat} (h : 10 ≤ n) : digitCount n = digitCount (n / 10) + 1 := by
  rw [digitCount, decimalDigits_of_ten_le h, List.length_append, List.length_singleton, digitCount]

/-- A number with one more zero at its end has one more digit. -/
theorem digitCount_ten_mul {n : Nat} (h : n ≠ 0) : digitCount (10 * n) = digitCount n + 1 := by
  rw [digitCount_of_ten_le (by omega), Nat.mul_div_cancel_left n (by decide)]

/-- A number has more digits than the exponent of a power of ten that it reaches. -/
theorem lt_digitCount_of_pow_le {n k : Nat} (h : 10 ^ k ≤ n) : k < digitCount n := by
  induction k generalizing n with
  | zero =>
      have nonempty := List.length_pos_iff.mpr (decimalDigits_ne_nil n)
      exact nonempty
  | succ k ih =>
      have power : 10 ^ (k + 1) = 10 * 10 ^ k := by ring
      have positive : 0 < 10 ^ k := Nat.pow_pos (by decide)
      rw [digitCount_of_ten_le (by omega)]
      exact Nat.succ_lt_succ (ih (by omega))

/-- A number below a power of ten has no more digits than the exponent. -/
theorem digitCount_le_of_lt_pow {n k : Nat} (positive : 0 < k) (h : n < 10 ^ k) :
    digitCount n ≤ k := by
  induction k generalizing n with
  | zero => exact absurd positive (Nat.lt_irrefl 0)
  | succ k ih =>
      by_cases small : n < 10
      · rw [digitCount_of_lt_ten small]
        exact positive
      · have power : 10 ^ (k + 1) = 10 * 10 ^ k := by ring
        have more : 0 < k := by
          rcases Nat.eq_zero_or_pos k with zero | more
          · subst zero
            omega
          · exact more
        rw [digitCount_of_ten_le (by omega)]
        exact Nat.succ_le_succ (ih more (by omega))

theorem lt_pow_digitCount (n : Nat) : n < 10 ^ digitCount n := by
  by_contra reached
  exact absurd (lt_digitCount_of_pow_le (Nat.le_of_not_lt reached)) (Nat.lt_irrefl _)

theorem pow_digitCount_pred_le {n : Nat} (nonzero : n ≠ 0) : 10 ^ (digitCount n - 1) ≤ n := by
  by_contra short
  rcases Nat.eq_zero_or_pos (digitCount n - 1) with one | more
  · rw [one, pow_zero] at short
    omega
  · have bound := digitCount_le_of_lt_pow more (Nat.lt_of_not_le short)
    omega

/-- A number has at most as many digits as any row of digits that spells it. -/
theorem digitCount_digitsValue_le {digits : List Char} (nonempty : digits ≠ [])
    (ascii : ∀ c ∈ digits, isAsciiDigit c = true) :
    digitCount (digitsValue digits) ≤ digits.length := by
  have bound : ∀ (row : List Char) (n : Nat), (∀ c ∈ row, isAsciiDigit c = true) →
      digitsValueFrom n row < (n + 1) * 10 ^ row.length := by
    intro row
    induction row with
    | nil => intro n _; simp [digitsValueFrom]
    | cons c rest ih =>
        intro n all
        have digit : asciiDigitValue c < 10 := by
          have range := all c List.mem_cons_self
          simp only [isAsciiDigit, Bool.and_eq_true, decide_eq_true_eq, Char.le_def,
            UInt32.le_iff_toNat_le] at range
          have upper : c.toNat ≤ 57 := range.2
          simp only [asciiDigitValue]
          have zero : '0'.toNat = 48 := rfl
          omega
        have tail := ih (10 * n + asciiDigitValue c) fun d member =>
          all d (List.mem_cons_of_mem c member)
        calc digitsValueFrom n (c :: rest)
            = digitsValueFrom (10 * n + asciiDigitValue c) rest := rfl
          _ < (10 * n + asciiDigitValue c + 1) * 10 ^ rest.length := tail
          _ ≤ ((n + 1) * 10) * 10 ^ rest.length := Nat.mul_le_mul_right _ (by omega)
          _ = (n + 1) * 10 ^ (c :: rest).length := by rw [List.length_cons, pow_succ]; ring
  apply digitCount_le_of_lt_pow (List.length_pos_iff.mpr nonempty)
  simpa [digitsValue] using bound digits 0 ascii

end DocumentGateway
