import DocumentGateway.Json.Printer
import DocumentGateway.Json.Reader
import Mathlib.Data.List.Chain

namespace DocumentGateway
namespace Json

/-!
# Reading written strings

A string is read piece by piece, and every code point is written as one piece or two: as it
stands, by a short escape, or by the numbers of its code units.  Without the restriction to ASCII
only control characters are written by number.  No such unit is half of a pair, so that the pieces
join to the text that was written, unpaired surrogates included.  With the restriction surrogates
are written by number as well; two halves that stand apart are then read as a pair.
-/

/-- A code unit by its number, which is below `65536` wherever it is used. -/
def codeUnit (n : Nat) : Fin 65536 :=
  ⟨n % 65536, Nat.mod_lt n (Nat.zero_lt_succ _)⟩

def unitPiece (n : Nat) : Piece :=
  .unit (codeUnit n)

/-- Whether a code point is written by a short escape. -/
def hasShortEscape (p : CodePoint) : Bool :=
  ['"', '\\', '\n', '\r', '\t', '\x08', '\x0c'].any fun c => p = .scalar c

/-- The pieces that a code point is written as. -/
def writtenPieces (ascii : Bool) (p : CodePoint) : List Piece :=
  if !hasShortEscape p && (p.code < 0x20 || (ascii && 0x7F ≤ p.code)) then
    if p.code < 0x10000 then [unitPiece p.code]
    else
      [unitPiece (0xD800 + (p.code - 0x10000) / 1024),
        unitPiece (0xDC00 + (p.code - 0x10000) % 1024)]
  else [.plain p]

/-- Go on with pieces in front of those that are read. -/
def withPieces (front : List Piece) (read : Except Stop (List Piece × Text)) :
    Except Stop (List Piece × Text) :=
  read.map fun found => (front ++ found.1, found.2)

theorem withPieces_append (front back : List Piece) (read : Except Stop (List Piece × Text)) :
    withPieces (front ++ back) read = withPieces front (withPieces back read) := by
  cases read with
  | error s => rfl
  | ok found => simp [withPieces, Except.map]

/-! ## Pieces -/

theorem fourDigits?_hexDigits {n : Nat} (h : n < 65536) :
    ∃ a b c d : Char, hexDigits 4 n = [a, b, c, d] ∧
      fourDigits? (.scalar a) (.scalar b) (.scalar c) (.scalar d) = some (codeUnit n) := by
  refine ⟨hexDigit (n / 16 / 16 / 16 % 16), hexDigit (n / 16 / 16 % 16), hexDigit (n / 16 % 16),
    hexDigit (n % 16), rfl, ?_⟩
  have digit : ∀ m, hexDigit? (hexDigit (m % 16)) = some (m % 16) := fun m =>
    hexDigit?_hexDigit (Nat.mod_lt m (by decide))
  have whole : 4096 * (n / 16 / 16 / 16 % 16) + 256 * (n / 16 / 16 % 16) + 16 * (n / 16 % 16) +
      n % 16 = n := by omega
  simp only [fourDigits?, CodePoint.char?, Option.bind_some, digit, bind, pure]
  rw [whole]
  rfl

theorem scanPieces_unit (opening : Text) {a b c d : CodePoint} {n : Fin 65536}
    (value : fourDigits? a b c d = some n) {tail : Text} (more : tail ≠ []) :
    scanPieces opening (.scalar '\\' :: .scalar 'u' :: a :: b :: c :: d :: tail) =
      withPieces [.unit n] (scanPieces opening tail) := by
  have some : tail.isEmpty = false := by
    rw [List.isEmpty_eq_false_iff]
    exact more
  rw [scanPieces.eq_def]
  simp only [CodePoint.scalar.injEq, Char.reduceEq, if_false, if_true, value, some]
  cases scanPieces opening tail <;> rfl

/-- The escape of a code unit is read as that unit. -/
theorem scanPieces_unitEscape (opening : Text) {n : Nat} (h : n < 65536) {tail : Text}
    (more : tail ≠ []) :
    scanPieces opening (unitEscape n ++ tail) =
      withPieces [unitPiece n] (scanPieces opening tail) := by
  rcases fourDigits?_hexDigits h with ⟨a, b, c, d, digits, value⟩
  have escape : unitEscape n ++ tail = .scalar '\\' :: .scalar 'u' :: .scalar a :: .scalar b ::
      .scalar c :: .scalar d :: tail := by
    rw [unitEscape, digits]
    rfl
  rw [escape]
  exact scanPieces_unit opening value more

theorem scanPieces_shortEscape (opening : Text) {e : Char} {c : Char} (unlike : e ≠ 'u')
    (named : shortEscape? (.scalar e) = some c) (tail : Text) :
    scanPieces opening (.scalar '\\' :: .scalar e :: tail) =
      withPieces [.plain (.scalar c)] (scanPieces opening tail) := by
  rw [scanPieces.eq_def]
  simp only [CodePoint.scalar.injEq, Char.reduceEq, if_false, if_true, unlike, named]
  cases scanPieces opening tail <;> rfl

theorem scanPieces_plain (opening : Text) {p : CodePoint} (noQuote : p ≠ .scalar '"')
    (noEscape : p ≠ .scalar '\\') (printable : ¬ p.code < 0x20) (tail : Text) :
    scanPieces opening (p :: tail) = withPieces [.plain p] (scanPieces opening tail) := by
  rw [scanPieces.eq_def]
  simp only [if_neg noQuote, if_neg noEscape, if_neg printable]
  cases scanPieces opening tail <;> rfl

theorem code_lt (p : CodePoint) : p.code < 0x110000 := by
  cases p with
  | scalar c =>
      have valid := c.valid
      simp only [UInt32.isValidChar, Nat.isValidChar] at valid
      have bound : c.toNat < 0x110000 := by
        change c.val.toNat < 0x110000
        omega
      exact bound
  | surrogate offset =>
      have bound := offset.isLt
      simp only [CodePoint.code]
      omega

theorem scanPieces_unitEscapes (opening : Text) (p : CodePoint) {tail : Text} (more : tail ≠ []) :
    scanPieces opening (unitEscapes p ++ tail) =
      withPieces
        (if p.code < 0x10000 then [unitPiece p.code]
        else
          [unitPiece (0xD800 + (p.code - 0x10000) / 1024),
            unitPiece (0xDC00 + (p.code - 0x10000) % 1024)])
        (scanPieces opening tail) := by
  have bound := code_lt p
  unfold unitEscapes
  simp only
  split
  · exact scanPieces_unitEscape opening ‹_› more
  · have second : unitEscape (0xDC00 + (p.code - 0x10000) % 1024) ++ tail ≠ [] :=
      List.append_ne_nil_of_right_ne_nil _ more
    rw [List.append_assoc, scanPieces_unitEscape opening (by omega) second,
      scanPieces_unitEscape opening (by omega) more, ← withPieces_append]
    rfl

/-- Each code point is read as the pieces that it is written as. -/
theorem scanPieces_writeCodePoint (opening : Text) (ascii : Bool) (p : CodePoint) {tail : Text}
    (more : tail ≠ []) :
    scanPieces opening (writeCodePoint ascii p ++ tail) =
      withPieces (writtenPieces ascii p) (scanPieces opening tail) := by
  unfold writeCodePoint
  split
  · exact scanPieces_shortEscape opening (by decide) rfl tail
  · exact scanPieces_shortEscape opening (by decide) rfl tail
  · exact scanPieces_shortEscape opening (by decide) rfl tail
  · exact scanPieces_shortEscape opening (by decide) rfl tail
  · exact scanPieces_shortEscape opening (by decide) rfl tail
  · exact scanPieces_shortEscape opening (by decide) rfl tail
  · exact scanPieces_shortEscape opening (by decide) rfl tail
  · next noQuote noEscape _ _ _ _ _ =>
      have unnamed : hasShortEscape p = false := by
        simp_all [hasShortEscape]
      unfold writtenPieces
      rw [unnamed, Bool.not_false, Bool.true_and]
      by_cases escaped : (decide (p.code < 0x20) || (ascii && decide (0x7F ≤ p.code))) = true
      · rw [if_pos escaped, if_pos escaped]
        exact scanPieces_unitEscapes opening p more
      · rw [if_neg escaped, if_neg escaped]
        simp only [Bool.or_eq_true, decide_eq_true_eq, not_or] at escaped
        exact scanPieces_plain opening noQuote noEscape escaped.1 tail

/-- A written text is read up to its closing quote. -/
theorem scanPieces_writeText (opening : Text) (ascii : Bool) (t rest : Text) :
    scanPieces opening (t.flatMap (writeCodePoint ascii) ++ .scalar '"' :: rest) =
      .ok (t.flatMap (writtenPieces ascii), rest) := by
  induction t with
  | nil =>
      rw [List.flatMap_nil, List.nil_append, scanPieces.eq_def]
      rfl
  | cons p t ih =>
      have more : t.flatMap (writeCodePoint ascii) ++ .scalar '"' :: rest ≠ [] :=
        List.append_ne_nil_of_right_ne_nil _ (List.cons_ne_nil _ _)
      rw [List.flatMap_cons, List.append_assoc, scanPieces_writeCodePoint opening ascii p more, ih,
        List.flatMap_cons]
      rfl

/-! ## Joining -/

/-- Whether a code point is the first half of a surrogate pair. -/
def IsHighHalf (p : CodePoint) : Prop :=
  0xD800 ≤ p.code ∧ p.code < 0xDC00

/-- Whether a code point is the second half of a surrogate pair. -/
def IsLowHalf (p : CodePoint) : Prop :=
  0xDC00 ≤ p.code ∧ p.code < 0xE000

/-- A text without a surrogate pair that is left in two halves. -/
def IsJoined (t : Text) : Prop :=
  t.IsChain fun p q => ¬ (IsHighHalf p ∧ IsLowHalf q)

theorem val_codeUnit {n : Nat} (h : n < 65536) : (codeUnit n).val = n :=
  Nat.mod_eq_of_lt h

/-- The code unit of a code point on its own stands for the code point. -/
theorem unitAlone_codeUnit {p : CodePoint} (h : p.code < 0x10000) :
    unitAlone (codeUnit p.code) = p := by
  have value := val_codeUnit h
  generalize codeUnit p.code = unit at value
  unfold unitAlone
  cases p with
  | scalar c =>
      have valid := c.valid
      simp only [UInt32.isValidChar, Nat.isValidChar] at valid
      have noSurrogate : ¬ (0xD800 ≤ unit.val ∧ unit.val < 0xE000) := by
        rw [value]
        change ¬ (0xD800 ≤ c.val.toNat ∧ c.val.toNat < 0xE000)
        omega
      rw [dif_neg noSurrogate, value, CodePoint.code, Char.ofNat_toNat]
  | surrogate offset =>
      have bound := offset.isLt
      rw [CodePoint.code] at value
      have isSurrogate : 0xD800 ≤ unit.val ∧ unit.val < 0xE000 := by omega
      rw [dif_pos isSurrogate]
      refine congrArg CodePoint.surrogate (Fin.ext ?_)
      change unit.val - 0xD800 = offset.val
      omega

/-- The two code units of a code point beyond the first plane stand together for the code point. -/
theorem joinPieces_unitPair {p : CodePoint} (h : ¬ p.code < 0x10000) (rest : List Piece) :
    joinPieces (unitPiece (0xD800 + (p.code - 0x10000) / 1024) ::
      unitPiece (0xDC00 + (p.code - 0x10000) % 1024) :: rest) = p :: joinPieces rest := by
  have bound := code_lt p
  have high := val_codeUnit (n := 0xD800 + (p.code - 0x10000) / 1024) (by omega)
  have low := val_codeUnit (n := 0xDC00 + (p.code - 0x10000) % 1024) (by omega)
  unfold unitPiece
  generalize codeUnit (0xD800 + (p.code - 0x10000) / 1024) = first at high
  generalize codeUnit (0xDC00 + (p.code - 0x10000) % 1024) = second at low
  have isHigh : isHighUnit first = true := by
    simp only [isHighUnit, high, Bool.and_eq_true, decide_eq_true_eq]
    omega
  have isLow : isLowUnit second = true := by
    simp only [isLowUnit, low, Bool.and_eq_true, decide_eq_true_eq]
    omega
  have whole : 0x10000 + (first.val - 0xD800) * 1024 + (second.val - 0xDC00) = p.code := by omega
  rw [joinPieces, isHigh, isLow, Bool.true_and, if_pos rfl, unitPair, whole]
  cases p with
  | scalar c => rw [CodePoint.code, Char.ofNat_toNat]
  | surrogate offset =>
      have offsetBound := offset.isLt
      simp only [CodePoint.code] at h
      omega

/-- A unit stands alone unless it is the first half of a pair and the second half follows. -/
theorem joinPieces_unit {n : Fin 65536} {rest : List Piece}
    (alone : ∀ low more, rest = .unit low :: more → ¬ (isHighUnit n = true ∧ isLowUnit low = true)) :
    joinPieces (.unit n :: rest) = unitAlone n :: joinPieces rest := by
  match rest, alone with
  | [], _ => rfl
  | .plain p :: more, _ => rfl
  | .unit low :: more, alone =>
      have apart := alone low more rfl
      rw [← Bool.and_eq_true] at apart
      rw [joinPieces, if_neg apart]

/-- The pieces of a text begin with the second half of a pair only when the text does. -/
theorem isLowHalf_of_flatMap_eq_cons {ascii : Bool} {t : Text} {low : Fin 65536} {more : List Piece}
    (begins : t.flatMap (writtenPieces ascii) = .unit low :: more) (isLow : isLowUnit low = true) :
    ∃ p rest, t = p :: rest ∧ IsLowHalf p := by
  cases t with
  | nil => cases begins
  | cons p rest =>
      have bound := code_lt p
      refine ⟨p, rest, rfl, ?_⟩
      rw [List.flatMap_cons, writtenPieces] at begins
      simp only [isLowUnit, Bool.and_eq_true, decide_eq_true_eq] at isLow
      split at begins
      · split at begins
        · next small =>
            rw [← Piece.unit.inj (List.cons.inj begins).1, val_codeUnit small] at isLow
            exact isLow
        · rw [← Piece.unit.inj (List.cons.inj begins).1, val_codeUnit (by omega)] at isLow
          omega
      · cases (List.cons.inj begins).1

/-- The pieces of a text join to the text, if pairs are joined in it wherever both halves would be
written by number. -/
theorem joinPieces_writtenPieces (ascii : Bool) (t : Text) (joined : ascii = true → IsJoined t) :
    joinPieces (t.flatMap (writtenPieces ascii)) = t := by
  induction t with
  | nil => rfl
  | cons p t ih =>
      have following := ih fun restricted => (List.isChain_cons.mp (joined restricted)).2
      rw [List.flatMap_cons]
      unfold writtenPieces
      split
      · next escaped =>
          split
          · next small =>
              rw [List.singleton_append, unitPiece, joinPieces_unit, unitAlone_codeUnit small]
              · exact congrArg (List.cons p) following
              · rintro low more isNext ⟨isHigh, isLow⟩
                simp only [isHighUnit, val_codeUnit small, Bool.and_eq_true,
                  decide_eq_true_eq] at isHigh
                simp only [Bool.and_eq_true, Bool.or_eq_true, decide_eq_true_eq] at escaped
                have restricted : ascii = true := by
                  rcases escaped.2 with control | ⟨restricted, -⟩
                  · omega
                  · exact restricted
                rcases isLowHalf_of_flatMap_eq_cons isNext isLow with ⟨q, rest, rfl, isLowHalf⟩
                exact (List.isChain_cons_cons.mp (joined restricted)).1 ⟨isHigh, isLowHalf⟩
          · next large =>
              exact (joinPieces_unitPair large _).trans (congrArg (List.cons p) following)
      · exact congrArg (List.cons p) following

/-- A written string is read back. -/
theorem scanString_writeText (ascii : Bool) (opening t rest : Text)
    (joined : ascii = true → IsJoined t) :
    scanString opening (t.flatMap (writeCodePoint ascii) ++ .scalar '"' :: rest) =
      .ok (t, rest) := by
  unfold scanString
  rw [scanPieces_writeText]
  exact congrArg (fun read => Except.ok (read, rest)) (joinPieces_writtenPieces ascii t joined)

end Json
end DocumentGateway
