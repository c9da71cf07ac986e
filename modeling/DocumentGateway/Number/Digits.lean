import DocumentGateway.Text.Digit

namespace DocumentGateway

/-!
# Decimal notation of natural numbers

Natural numbers are written without leading zeros, and a row of digits is read most significant
digit first.  Reading what was written gives the number back.
-/

/-- The ASCII digit of a number below ten. -/
def digitChar (n : Nat) : Char :=
  Char.ofNat (48 + n)

/-- Write a number in front of digits already written. -/
def digitsOnto (n : Nat) (tail : List Char) : List Char :=
  if n < 10 then digitChar n :: tail
  else digitsOnto (n / 10) (digitChar (n % 10) :: tail)

/-- The decimal digits of a number. -/
def decimalDigits (n : Nat) : List Char :=
  digitsOnto n []

/-- The number of decimal digits of a number. -/
def digitCount (n : Nat) : Nat :=
  (decimalDigits n).length

/-- The decimal notation of an integer. -/
def integerDigits : Int → List Char
  | .ofNat n => decimalDigits n
  | .negSucc n => '-' :: decimalDigits (n + 1)

/-- Read further digits behind a number. -/
def digitsValueFrom (n : Nat) (digits : List Char) : Nat :=
  digits.foldl (fun value c => 10 * value + asciiDigitValue c) n

/-- The number that a row of digits spells. -/
def digitsValue (digits : List Char) : Nat :=
  digitsValueFrom 0 digits

theorem asciiDigitValue_digitChar {n : Nat} (h : n < 10) : asciiDigitValue (digitChar n) = n := by
  match n, h with
  | 0, _ | 1, _ | 2, _ | 3, _ | 4, _ | 5, _ | 6, _ | 7, _ | 8, _ | 9, _ => rfl

theorem digitsOnto_eq_append (n : Nat) (tail : List Char) :
    digitsOnto n tail = decimalDigits n ++ tail := by
  unfold decimalDigits
  induction n using Nat.strongRecOn generalizing tail with
  | ind n ih =>
      by_cases small : n < 10
      · rw [digitsOnto.eq_def n tail, digitsOnto.eq_def n [], if_pos small, if_pos small]
        rfl
      · have smaller : n / 10 < n := by omega
        rw [digitsOnto.eq_def n tail, digitsOnto.eq_def n [], if_neg small, if_neg small,
          ih _ smaller, ih _ smaller [digitChar (n % 10)], List.append_assoc]
        rfl

/-- A number of two digits or more is its tens followed by its last digit. -/
theorem decimalDigits_of_ten_le {n : Nat} (h : 10 ≤ n) :
    decimalDigits n = decimalDigits (n / 10) ++ [digitChar (n % 10)] := by
  rw [← digitsOnto_eq_append, decimalDigits, digitsOnto, if_neg (by omega)]

theorem decimalDigits_of_lt_ten {n : Nat} (h : n < 10) : decimalDigits n = [digitChar n] := by
  rw [decimalDigits, digitsOnto, if_pos h]

/-- Reading the digits of a number gives the number. -/
theorem digitsValue_decimalDigits (n : Nat) : digitsValue (decimalDigits n) = n := by
  induction n using Nat.strongRecOn with
  | ind n ih =>
      by_cases small : n < 10
      · rw [decimalDigits_of_lt_ten small]
        simp [digitsValue, digitsValueFrom, asciiDigitValue_digitChar small]
      · have tens := ih (n / 10) (by omega)
        have last := asciiDigitValue_digitChar (n := n % 10) (by omega)
        rw [decimalDigits_of_ten_le (by omega)]
        simp only [digitsValue, digitsValueFrom, List.foldl_append] at tens ⊢
        rw [tens]
        simp only [List.foldl_cons, List.foldl_nil, last]
        omega

end DocumentGateway
