namespace DocumentGateway

/-!
# Binary floating-point numbers

The numbers of the 64-bit binary interchange format, without any machine arithmetic.  A finite
number is a sign and a rank: its place in the ascending order of the magnitudes the format
holds.  The ranks run evenly through the subnormal and the normal numbers, `2 ^ 52` of them to
each binade, so a rounding that carries into the next binade needs no special case.
-/

/-- The number of finite magnitudes. -/
def Binary64.ranks : Nat := 2047 * Nat.pow 2 52

/-- A number of the format. -/
inductive Binary64 where
  | nan
  | infinite (negative : Bool)
  | finite (negative : Bool) (rank : Fin Binary64.ranks)
deriving DecidableEq

/-- The quotient of two natural numbers, rounded to the nearest one; a half goes to the even
neighbour. -/
def roundHalfEven (a b : Nat) : Nat :=
  let quotient := a / b
  let remainder := a % b
  if 2 * remainder < b then quotient
  else if b < 2 * remainder then quotient + 1
  else if quotient % 2 = 0 then quotient
  else quotient + 1

/-- Rounding leaves the quotient as it is or adds one to it. -/
theorem roundHalfEven_eq_or (a b : Nat) :
    roundHalfEven a b = a / b ∨ roundHalfEven a b = a / b + 1 := by
  simp only [roundHalfEven]
  split
  · exact Or.inl rfl
  · split
    · exact Or.inr rfl
    · split
      · exact Or.inl rfl
      · exact Or.inr rfl

namespace Binary64

/-- The number of binary places by which a rank's unit exceeds the smallest magnitude. -/
def scale (rank : Nat) : Nat :=
  rank / Nat.pow 2 52 - 1

/-- The number of its own units in a rank's magnitude. -/
def significand (rank : Nat) : Nat :=
  rank - scale rank * Nat.pow 2 52

/-- A rank's magnitude, counted in the smallest magnitude `2 ^ -1074`. -/
def units (rank : Nat) : Nat :=
  significand rank * Nat.pow 2 (scale rank)

/-- The rank nearest to a ratio.  It may lie beyond the finite ones. -/
def nearestRank (num den : Nat) : Nat :=
  let shift := (num * Nat.pow 2 1074 / den).log2 - 52
  shift * Nat.pow 2 52 + roundHalfEven (num * Nat.pow 2 1074) (den * Nat.pow 2 shift)

/-- The number of a rank, infinite beyond the finite ranks. -/
def ofRank (negative : Bool) (rank : Nat) : Binary64 :=
  if h : rank < ranks then finite negative ⟨rank, h⟩ else infinite negative

/-- The number nearest to a ratio. -/
def ofRatio (negative : Bool) (num den : Nat) : Binary64 :=
  ofRank negative (nearestRank num den)

/-- The number nearest to an integer, unless the integer is too large for the format. -/
def ofInt? (i : Int) : Option Binary64 :=
  let rank := nearestRank i.natAbs 1
  if h : rank < ranks then some (finite (i < 0) ⟨rank, h⟩) else none

/-- The integer that a number is, if it is one. -/
def toInt? : Binary64 → Option Int
  | finite negative rank =>
    let n := units rank.val
    if n % Nat.pow 2 1074 = 0 then
      let whole : Int := (n / Nat.pow 2 1074 : Nat)
      some (if negative then -whole else whole)
    else none
  | _ => none

/-- A rank is its scale and its significand side by side. -/
theorem scale_mul_add_significand (rank : Nat) :
    scale rank * Nat.pow 2 52 + significand rank = rank := by
  unfold significand scale
  rw [Nat.pow_eq]
  omega

end Binary64

end DocumentGateway
