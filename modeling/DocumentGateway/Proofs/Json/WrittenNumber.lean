import DocumentGateway.Json.Printer
import DocumentGateway.Json.Reader
import DocumentGateway.Proofs.Number.Nearest

namespace DocumentGateway
namespace Json

/-!
# Reading written numbers

A number is read up to the first code point that cannot go on with it, so reading takes exactly
what was written when something else follows.  Integers are read back as they are.  A finite
float is written with a fraction or an exponent, which keeps it apart from the integers, and its
digits convert back to it in whichever notation they are laid out.
-/

/-! ## Where numbers end -/

/-- Whether a text begins with a digit. -/
def beginsWithDigit : Text → Bool
  | .scalar c :: _ => isAsciiDigit c
  | _ => false

/-- Whether a text begins with something that may go on with a number. -/
def continuesNumber : Text → Bool
  | .scalar c :: _ => isAsciiDigit c || c == '.' || c == 'e' || c == 'E'
  | _ => false

theorem beginsWithDigit_of_continuesNumber {rest : Text} (h : continuesNumber rest = false) :
    beginsWithDigit rest = false := by
  match rest with
  | [] => rfl
  | .surrogate _ :: _ => rfl
  | .scalar c :: _ =>
      simp only [continuesNumber, Bool.or_eq_false_iff] at h
      exact h.1.1.1

/-- Digits are taken off up to the first code point that is no digit. -/
theorem takeDigits_append {digits : List Char} (ascii : ∀ c ∈ digits, isAsciiDigit c = true)
    {rest : Text} (ends : beginsWithDigit rest = false) :
    Numeral.takeDigits (Text.ofChars digits ++ rest) = (digits, rest) := by
  induction digits with
  | nil =>
      match rest, ends with
      | [], _ => rfl
      | .surrogate _ :: _, _ => rfl
      | .scalar c :: tail, ends =>
          have noDigit : isAsciiDigit c = false := ends
          simp [Numeral.takeDigits, noDigit]
  | cons c digits ih =>
      have digit := ascii c List.mem_cons_self
      have tail := ih fun d member => ascii d (List.mem_cons_of_mem c member)
      simp [Numeral.takeDigits, digit, tail]

theorem takeExponent?_of_ends {rest : Text} (ends : continuesNumber rest = false) :
    Numeral.takeExponent? rest = none := by
  match rest, ends with
  | [], _ => rfl
  | .surrogate _ :: _, _ => rfl
  | .scalar c :: tail, ends =>
      simp only [continuesNumber, Bool.or_eq_false_iff, beq_eq_false_iff_ne] at ends
      simp [Numeral.takeExponent?, ends.1.2, ends.2]

theorem takeFraction_of_ends {rest : Text} (ends : continuesNumber rest = false) :
    takeFraction rest = ([], rest) := by
  match rest, ends with
  | [], _ => rfl
  | .surrogate _ :: _, _ => rfl
  | .scalar c :: tail, ends =>
      simp only [continuesNumber, Bool.or_eq_false_iff, beq_eq_false_iff_ne] at ends
      unfold takeFraction
      split
      · next heq =>
          simp only [List.cons.injEq, CodePoint.scalar.injEq] at heq
          exact absurd heq.1 ends.1.1.2
      · rfl

/-- A fraction is taken off up to its last digit. -/
theorem takeFraction_append {fraction : List Char} (nonempty : fraction ≠ [])
    (ascii : ∀ c ∈ fraction, isAsciiDigit c = true) {rest : Text}
    (ends : beginsWithDigit rest = false) :
    takeFraction (.scalar '.' :: (Text.ofChars fraction ++ rest)) = (fraction, rest) := by
  have taken := takeDigits_append ascii ends
  match fraction, nonempty with
  | c :: more, _ =>
      unfold takeFraction
      simp only [taken]

/-- An exponent is taken off with its sign. -/
theorem takeExponent?_append {digits : List Char} (nonempty : digits ≠ [])
    (ascii : ∀ c ∈ digits, isAsciiDigit c = true) (negative : Bool) {rest : Text}
    (ends : beginsWithDigit rest = false) :
    Numeral.takeExponent?
        (.scalar 'e' :: .scalar (if negative then '-' else '+') :: (Text.ofChars digits ++ rest)) =
      some (if negative then -(digitsValue digits : Int) else digitsValue digits, rest) := by
  have taken := takeDigits_append ascii ends
  match digits, nonempty with
  | c :: more, _ =>
      rw [Text.ofChars_cons, List.cons_append] at taken ⊢
      cases negative <;> simp [Numeral.takeExponent?, Numeral.takeSign, taken]

/-! ## The whole part -/

/-- The digits before a point: a lone zero, or digits that do not begin with zero. -/
def IsWholePart (whole : List Char) : Prop :=
  (∀ c ∈ whole, isAsciiDigit c = true) ∧
    (whole = ['0'] ∨ ∃ d rest, whole = d :: rest ∧ d ≠ '0')

theorem isAsciiDigit_of_mem_zero : ∀ c ∈ ['0'], isAsciiDigit c = true := by
  intro c member
  rw [List.mem_singleton.mp member]
  rfl

theorem isWholePart_zero : IsWholePart ['0'] :=
  ⟨isAsciiDigit_of_mem_zero, Or.inl rfl⟩

theorem isWholePart_decimalDigits (n : Nat) : IsWholePart (decimalDigits n) := by
  refine ⟨isAsciiDigit_of_mem_decimalDigits n, ?_⟩
  by_cases zero : n = 0
  · rw [zero, decimalDigits_of_lt_ten (by decide)]
    exact Or.inl rfl
  · rcases head_decimalDigits zero with ⟨d, rest, digits, nonzero⟩
    exact Or.inr ⟨d, rest, digits, nonzero⟩

theorem IsWholePart.exists_cons {whole : List Char} (isWhole : IsWholePart whole) :
    ∃ d tail, whole = d :: tail := by
  rcases isWhole with ⟨-, zero | ⟨d, tail, cons, -⟩⟩
  · exact ⟨'0', [], zero⟩
  · exact ⟨d, tail, cons⟩

/-- The sign of a number in front of a text. -/
def signed (negative : Bool) (t : Text) : Text :=
  if negative then .scalar '-' :: t else t

theorem takeWhole_append {whole : List Char} (isWhole : IsWholePart whole) {rest : Text}
    (ends : beginsWithDigit rest = false) :
    takeWhole (Text.ofChars whole ++ rest) = (whole, rest) := by
  rcases isWhole with ⟨ascii, zero | ⟨d, tail, cons, nonzero⟩⟩
  · subst zero
    rfl
  · have taken := takeDigits_append ascii ends
    subst cons
    unfold takeWhole
    split
    · next heq =>
        simp only [Text.ofChars_cons, List.cons_append, List.cons.injEq,
          CodePoint.scalar.injEq] at heq
        exact absurd heq.1 nonzero
    · exact taken

theorem takeMinus_signed (negative : Bool) {whole : List Char} (isWhole : IsWholePart whole)
    (rest : Text) :
    takeMinus (signed negative (Text.ofChars whole ++ rest)) =
      (negative, Text.ofChars whole ++ rest) := by
  cases negative with
  | true => rfl
  | false =>
      rcases isWhole.exists_cons with ⟨d, tail, cons⟩
      have digit := isWhole.1 d (cons ▸ List.mem_cons_self)
      subst cons
      simp only [signed, Bool.false_eq_true, if_false, Text.ofChars_cons, List.cons_append]
      unfold takeMinus
      split
      · next heq =>
          simp only [List.cons.injEq, CodePoint.scalar.injEq] at heq
          rw [heq.1] at digit
          cases digit
      · rfl

/-- A number with a sign in front of its whole part is what follows that part. -/
theorem scanNumber_signed (negative : Bool) {whole : List Char} (isWhole : IsWholePart whole)
    {rest : Text} (ends : beginsWithDigit rest = false) :
    scanNumber (signed negative (Text.ofChars whole ++ rest)) =
      scanBehindWhole negative whole rest := by
  rcases isWhole.exists_cons with ⟨d, tail, cons⟩
  unfold scanNumber
  simp only [takeMinus_signed negative isWhole, takeWhole_append isWhole ends]
  subst cons
  rfl

/-! ## Integers -/

theorem integerDigits_eq (i : Int) :
    Text.ofChars (integerDigits i) =
      signed (decide (i < 0)) (Text.ofChars (decimalDigits i.natAbs)) := by
  cases i with
  | ofNat n => simp [integerDigits, signed]
  | negSucc n => simp [integerDigits, signed, Int.negSucc_lt_zero]

/-- An integer of no more digits than allowed is read back. -/
theorem scanNumber_integerDigits {i : Int} (short : digitCount i.natAbs ≤ digitLimit) {rest : Text}
    (ends : continuesNumber rest = false) :
    scanNumber (Text.ofChars (integerDigits i) ++ rest) = .ok (.int i, rest) := by
  have value : (if i < 0 then -(i.natAbs : Int) else i.natAbs) = i := by
    split <;> omega
  have whole : Text.ofChars (integerDigits i) ++ rest =
      signed (decide (i < 0)) (Text.ofChars (decimalDigits i.natAbs) ++ rest) := by
    rw [integerDigits_eq]
    cases decide (i < 0) <;> rfl
  have inLimit : ¬ digitLimit < (decimalDigits i.natAbs).length := Nat.not_lt_of_le short
  rw [whole, scanNumber_signed _ (isWholePart_decimalDigits _)
    (beginsWithDigit_of_continuesNumber ends), scanBehindWhole]
  simp only [takeFraction_of_ends ends, takeExponent?_of_ends ends, if_neg inLimit,
    digitsValue_decimalDigits, decide_eq_true_eq, value]

/-! ## Floats -/

/-- A text, with or without a minus in front of it, is read as the float of that sign. -/
def SpellsFloat (t : List Char) (x : Bool → Binary64) : Prop :=
  ∀ (negative : Bool) (rest : Text), continuesNumber rest = false →
    scanNumber (signed negative (Text.ofChars t ++ rest)) = .ok (.float (x negative), rest)

/-- A number with a fraction is a float. -/
theorem spellsFloat_fraction {whole fraction : List Char} (isWhole : IsWholePart whole)
    (nonempty : fraction ≠ []) (ascii : ∀ c ∈ fraction, isAsciiDigit c = true) :
    SpellsFloat (whole ++ '.' :: fraction) fun negative =>
      Numeral.toBinary64 ⟨negative, whole, fraction, 0⟩ := by
  intro negative rest ends
  have point : beginsWithDigit (.scalar '.' :: (Text.ofChars fraction ++ rest)) = false := rfl
  rw [Text.ofChars_append, Text.ofChars_cons, List.append_assoc, List.cons_append,
    scanNumber_signed negative isWhole point, scanBehindWhole,
    takeFraction_append nonempty ascii (beginsWithDigit_of_continuesNumber ends)]
  simp only [takeExponent?_of_ends ends]

/-- A number with an exponent is a float. -/
theorem spellsFloat_exponent {whole digits : List Char} (isWhole : IsWholePart whole)
    (nonempty : digits ≠ []) (ascii : ∀ c ∈ digits, isAsciiDigit c = true) (downward : Bool) :
    SpellsFloat (whole ++ 'e' :: (if downward then '-' else '+') :: digits) fun negative =>
      Numeral.toBinary64 ⟨negative, whole, [],
        if downward then -(digitsValue digits : Int) else digitsValue digits⟩ := by
  intro negative rest ends
  have mark : beginsWithDigit (.scalar 'e' :: .scalar (if downward then '-' else '+') ::
      (Text.ofChars digits ++ rest)) = false := rfl
  have noFraction : takeFraction (.scalar 'e' :: .scalar (if downward then '-' else '+') ::
      (Text.ofChars digits ++ rest)) = ([], .scalar 'e' ::
        .scalar (if downward then '-' else '+') :: (Text.ofChars digits ++ rest)) := rfl
  rw [Text.ofChars_append, Text.ofChars_cons, Text.ofChars_cons, List.append_assoc,
    List.cons_append, List.cons_append, scanNumber_signed negative isWhole mark, scanBehindWhole, noFraction]
  simp only [takeExponent?_append nonempty ascii downward
    (beginsWithDigit_of_continuesNumber ends)]

/-- A number with a fraction and an exponent is a float. -/
theorem spellsFloat_fraction_exponent {whole fraction digits : List Char}
    (isWhole : IsWholePart whole) (someFraction : fraction ≠ [])
    (asciiFraction : ∀ c ∈ fraction, isAsciiDigit c = true) (nonempty : digits ≠ [])
    (ascii : ∀ c ∈ digits, isAsciiDigit c = true) (downward : Bool) :
    SpellsFloat (whole ++ '.' :: (fraction ++ 'e' :: (if downward then '-' else '+') :: digits))
      fun negative => Numeral.toBinary64 ⟨negative, whole, fraction,
        if downward then -(digitsValue digits : Int) else digitsValue digits⟩ := by
  intro negative rest ends
  have point : beginsWithDigit (.scalar '.' :: (Text.ofChars fraction ++ .scalar 'e' ::
      .scalar (if downward then '-' else '+') :: (Text.ofChars digits ++ rest))) = false := rfl
  have mark : beginsWithDigit (.scalar 'e' :: .scalar (if downward then '-' else '+') ::
      (Text.ofChars digits ++ rest)) = false := rfl
  rw [Text.ofChars_append, Text.ofChars_cons, Text.ofChars_append, Text.ofChars_cons,
    Text.ofChars_cons, List.append_assoc, List.cons_append, List.append_assoc, List.cons_append,
    List.cons_append, scanNumber_signed negative isWhole point, scanBehindWhole,
    takeFraction_append someFraction asciiFraction mark]
  simp only [takeExponent?_append nonempty ascii downward
    (beginsWithDigit_of_continuesNumber ends)]

/-! ## The notations of floats -/

theorem numeral_toBinary64 (negative : Bool) (whole fraction : List Char) (exponent : Int) :
    Numeral.toBinary64 ⟨negative, whole, fraction, exponent⟩ =
      Decimal.toBinary64
        ⟨negative, digitsValue (whole ++ fraction), exponent - fraction.length⟩ := rfl

theorem isAsciiDigit_of_mem_zeros {count : Nat} :
    ∀ c ∈ List.replicate count '0', isAsciiDigit c = true := by
  intro c member
  rw [List.eq_of_mem_replicate member]
  rfl

/-- The digits of a number that is not zero. -/
structure IsRowOf (digits : Nat) (row : List Char) : Prop where
  ascii : ∀ c ∈ row, isAsciiDigit c = true
  leads : ∃ d rest, row = d :: rest ∧ d ≠ '0'
  value : digitsValue row = digits

theorem isRowOf_decimalDigits {digits : Nat} (nonzero : digits ≠ 0) :
    IsRowOf digits (decimalDigits digits) where
  ascii := isAsciiDigit_of_mem_decimalDigits digits
  leads := head_decimalDigits nonzero
  value := digitsValue_decimalDigits digits

namespace IsRowOf

variable {digits : Nat} {row : List Char} {exponent : Int}

theorem ne_nil (h : IsRowOf digits row) : row ≠ [] := by
  rcases h.leads with ⟨d, rest, cons, -⟩
  rw [cons]
  exact List.cons_ne_nil d rest

theorem isWholePart_append (h : IsRowOf digits row) {more : List Char}
    (ascii : ∀ c ∈ more, isAsciiDigit c = true) : IsWholePart (row ++ more) := by
  rcases h.leads with ⟨d, rest, cons, head⟩
  refine ⟨List.forall_mem_append.mpr ⟨h.ascii, ascii⟩, Or.inr ⟨d, rest ++ more, ?_, head⟩⟩
  rw [cons, List.cons_append]

theorem isWholePart_take (h : IsRowOf digits row) (count : Nat) :
    IsWholePart (row.take (count + 1)) := by
  rcases h.leads with ⟨d, rest, cons, head⟩
  have front : row.take (count + 1) = d :: rest.take count := by
    rw [cons, List.take_succ_cons]
  exact ⟨fun c member => h.ascii c (List.mem_of_mem_take member), Or.inr ⟨d, _, front, head⟩⟩

/-- With the point before them, digits stand behind as many zeros as it is away. -/
theorem spellsFloat_pointBefore (h : IsRowOf digits row) {zeros : Nat}
    (place : -(zeros : Int) = row.length + exponent) :
    SpellsFloat ('0' :: '.' :: List.replicate zeros '0' ++ row) fun negative =>
      Decimal.toBinary64 ⟨negative, digits, exponent⟩ := by
  have someFraction : List.replicate zeros '0' ++ row ≠ [] :=
    List.append_ne_nil_of_right_ne_nil _ h.ne_nil
  have asciiFraction : ∀ c ∈ List.replicate zeros '0' ++ row, isAsciiDigit c = true :=
    List.forall_mem_append.mpr ⟨isAsciiDigit_of_mem_zeros, h.ascii⟩
  have read : digitsValue (['0'] ++ (List.replicate zeros '0' ++ row)) = digits := by
    rw [← List.append_assoc, List.singleton_append, ← List.replicate_succ, digitsValue_zeros_append,
      h.value]
  have scale : (0 : Int) - (List.replicate zeros '0' ++ row).length = exponent := by
    rw [List.length_append, List.length_replicate]
    omega
  have spelled := spellsFloat_fraction isWholePart_zero someFraction asciiFraction
  simp only [numeral_toBinary64, read, scale] at spelled
  exact spelled

/-- With the point behind them, digits stand before as many zeros as it is away. -/
theorem spellsFloat_pointBehind (h : IsRowOf digits row) (zeros : Nat) :
    SpellsFloat (row ++ List.replicate zeros '0' ++ ['.', '0']) fun negative =>
      Decimal.toBinary64 ⟨negative, digits, zeros⟩ := by
  have isWhole : IsWholePart (row ++ List.replicate zeros '0') :=
    h.isWholePart_append isAsciiDigit_of_mem_zeros
  have read : digitsValue (row ++ List.replicate zeros '0' ++ ['0']) = digits * 10 ^ (zeros + 1) := by
    have joined : List.replicate zeros '0' ++ ['0'] = List.replicate (zeros + 1) '0' :=
      List.replicate_succ'.symm
    rw [List.append_assoc, joined, digitsValue_append, h.value, digitsValueFrom_zeros]
  have scale : (0 : Int) - (['0'] : List Char).length = (zeros : Int) - ((zeros + 1 : Nat) : Int) := by
    rw [List.length_singleton]
    omega
  have spelled := spellsFloat_fraction isWhole (List.cons_ne_nil '0' []) isAsciiDigit_of_mem_zero
  simp only [numeral_toBinary64, read, scale, Decimal.toBinary64_mul_pow] at spelled
  exact spelled

/-- With the point among them, digits are whole before it and a fraction behind it. -/
theorem spellsFloat_pointAmong (h : IsRowOf digits row) {count : Nat} (short : count + 1 < row.length)
    (place : ((count + 1 : Nat) : Int) = row.length + exponent) :
    SpellsFloat (row.take (count + 1) ++ '.' :: row.drop (count + 1)) fun negative =>
      Decimal.toBinary64 ⟨negative, digits, exponent⟩ := by
  have someFraction : row.drop (count + 1) ≠ [] := fun none =>
    absurd (List.drop_eq_nil_iff.mp none) (Nat.not_le_of_gt short)
  have read : digitsValue (row.take (count + 1) ++ row.drop (count + 1)) = digits := by
    rw [List.take_append_drop, h.value]
  have scale : (0 : Int) - (row.drop (count + 1)).length = exponent := by
    rw [List.length_drop]
    omega
  have spelled := spellsFloat_fraction (h.isWholePart_take count) someFraction fun c member =>
    h.ascii c (List.mem_of_mem_drop member)
  simp only [numeral_toBinary64, read, scale] at spelled
  exact spelled

end IsRowOf

/-- Digits with a point among, before or behind them spell what the digits and the place of the
point say. -/
theorem spellsFloat_pointed {digits : Nat} (nonzero : digits ≠ 0) {exponent point : Int}
    (place : point = (decimalDigits digits).length + exponent) :
    SpellsFloat (Binary64.pointed (decimalDigits digits) point) fun negative =>
      Decimal.toBinary64 ⟨negative, digits, exponent⟩ := by
  have row := isRowOf_decimalDigits nonzero
  unfold Binary64.pointed
  by_cases before : point ≤ 0
  · rw [if_pos before]
    exact row.spellsFloat_pointBefore (by omega)
  · rw [if_neg before]
    by_cases behind : ((decimalDigits digits).length : Int) ≤ point
    · rw [if_pos behind]
      have zeros : exponent = ((point.toNat - (decimalDigits digits).length : Nat) : Int) := by omega
      rw [zeros]
      exact row.spellsFloat_pointBehind _
    · rw [if_neg behind]
      obtain ⟨count, counted⟩ : ∃ count, point.toNat = count + 1 := ⟨point.toNat - 1, by omega⟩
      rw [counted]
      exact row.spellsFloat_pointAmong (by omega) (by omega)

/-- The two digits or more of an exponent spell it. -/
theorem digitsValue_exponent (n : Nat) :
    let size := decimalDigits n
    let padded := if size.length < 2 then '0' :: size else size
    padded ≠ [] ∧ (∀ c ∈ padded, isAsciiDigit c = true) ∧ digitsValue padded = n := by
  have ascii := isAsciiDigit_of_mem_decimalDigits n
  have value := digitsValue_decimalDigits n
  intro size padded
  by_cases short : size.length < 2
  · have front : padded = '0' :: size := if_pos short
    rw [front]
    refine ⟨List.cons_ne_nil _ _, ?_, ?_⟩
    · intro c member
      rcases List.mem_cons.mp member with zero | digit
      · rw [zero]
        rfl
      · exact ascii c digit
    · exact (digitsValue_zeros_append 1 size).trans value
  · have same : padded = size := if_neg short
    rw [same]
    exact ⟨decimalDigits_ne_nil n, ascii, value⟩

/-- Digits in exponent form spell what the digits and the exponent say. -/
theorem spellsFloat_scientific {digits : Nat} (nonzero : digits ≠ 0) {exponent power : Int}
    (place : power = (decimalDigits digits).length + exponent - 1) :
    SpellsFloat (Binary64.scientific (decimalDigits digits) power) fun negative =>
      Decimal.toBinary64 ⟨negative, digits, exponent⟩ := by
  have value := digitsValue_decimalDigits digits
  have ascii := isAsciiDigit_of_mem_decimalDigits digits
  rcases head_decimalDigits nonzero with ⟨d, rest, cons, head⟩
  rcases digitsValue_exponent power.natAbs with ⟨nonempty, asciiSize, size⟩
  generalize decimalDigits digits = row at *
  subst cons
  have isWhole : IsWholePart [d] :=
    ⟨fun c member => ascii c (List.mem_singleton.mp member ▸ List.mem_cons_self),
      Or.inr ⟨d, [], rfl, head⟩⟩
  have sign : (if decide (power < 0) = true then '-' else '+') = if power < 0 then '-' else '+' := by
    simp only [decide_eq_true_eq]
  have read : (if decide (power < 0) = true then -(power.natAbs : Int) else power.natAbs) =
      power := by
    simp only [decide_eq_true_eq]
    split <;> omega
  unfold Binary64.scientific
  match rest with
  | [] =>
      have spelled := spellsFloat_exponent isWhole nonempty asciiSize (decide (power < 0))
      have scale : power - (([] : List Char).length : Int) = exponent := by
        rw [place, List.length_singleton, List.length_nil]
        omega
      simp only [numeral_toBinary64, size, read, scale, List.append_nil, value, sign] at spelled
      exact spelled
  | e :: more =>
      have spelled := spellsFloat_fraction_exponent isWhole (List.cons_ne_nil e more)
        (fun c member => ascii c (List.mem_cons_of_mem d member)) nonempty asciiSize
        (decide (power < 0))
      have scale : power - ((e :: more).length : Int) = exponent := by
        rw [place, List.length_cons (a := d)]
        push_cast
        ring
      simp only [numeral_toBinary64, size, read, scale, List.singleton_append, value, sign]
        at spelled
      exact spelled

/-- The text of a magnitude spells the numbers of that magnitude. -/
theorem spellsFloat_rankText {rank : Nat} (h : rank < Binary64.ranks) :
    SpellsFloat (Binary64.rankText rank) fun negative => Binary64.ofRank negative rank := by
  unfold Binary64.rankText
  by_cases zero : rank = 0
  · subst zero
    have spelled := spellsFloat_fraction isWholePart_zero (List.cons_ne_nil '0' [])
        isAsciiDigit_of_mem_zero
    exact spelled
  · have converted := Decimal.converts_shortest zero h
    rw [if_neg zero]
    generalize Decimal.shortest rank = shown at converted
    rcases shown with ⟨digits, exponent⟩
    simp only [Decimal.converts, decide_eq_true_eq] at converted
    have nonzero : digits ≠ 0 := by
      rintro rfl
      simp only [Decimal.toBinary64, decide_true, Bool.true_or, if_true, Binary64.ofRank,
        dif_pos h] at converted
      split at converted
      · simp only [Binary64.finite.injEq, Fin.mk.injEq, true_and] at converted
        exact zero converted.symm
      · cases converted
    have reading : (fun negative => Decimal.toBinary64 ⟨negative, digits, exponent⟩) =
        fun negative => Binary64.ofRank negative rank :=
      funext (Decimal.toBinary64_sign h converted)
    simp only [Binary64.magnitudeText]
    split
    · exact reading ▸ spellsFloat_pointed nonzero rfl
    · exact reading ▸ spellsFloat_scientific nonzero rfl

/-- A finite float is read back from what is written for it. -/
theorem scanNumber_finite (negative : Bool) (rank : Fin Binary64.ranks) {rest : Text}
    (ends : continuesNumber rest = false) :
    scanNumber (writeFloat (.finite negative rank) ++ rest) =
      .ok (.float (.finite negative rank), rest) := by
  have spelled := spellsFloat_rankText rank.isLt negative rest ends
  have back : Binary64.ofRank negative rank.val = .finite negative rank := dif_pos rank.isLt
  have written : writeFloat (.finite negative rank) ++ rest =
      signed negative (Text.ofChars (Binary64.rankText rank.val) ++ rest) := by
    cases negative <;> rfl
  simp only [back] at spelled
  rw [written, spelled]

end Json
end DocumentGateway
