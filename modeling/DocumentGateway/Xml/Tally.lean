import DocumentGateway.Number.Binary64
import DocumentGateway.Xml.Fault
import DocumentGateway.Xml.TextForm

namespace DocumentGateway
namespace Xml

/-!
# The tally of what is read

Entities that refer to entities make a small document stand for a large one.  While a document is
read, a tally is kept of the octets read directly from it and of those read indirectly, from the
texts of its entities.  Reading stops where the sum of both has become large, unless it is in
proportion to what was read directly.

Everything is counted piece by piece, when the piece has been recognised.  Attribute values that
are resolved are counted once more, in addition to the tag that they stand in.
-/

/-- The octets read so far.  `whole` is the size of the document and `again` what of it was counted
twice, which bound those read directly. -/
structure Tally where
  whole : Nat
  again : Nat
  direct : Thunk Nat
  indirect : Nat

namespace Tally

/-- Nothing is read yet of a document of some size. -/
def start (whole : Nat) : Tally :=
  ⟨whole, 0, .pure 0, 0⟩

/-- The number of octets up to which nothing is out of proportion. -/
def freeOctets : Nat := 8 * 1024 * 1024

/-- How many octets may be read for each one that was read directly. -/
def factor : Nat := 100

/-- A number rounded to twenty-four binary places, which is how sizes are compared. -/
def rounded (n : Nat) : Nat :=
  let unit := Nat.pow 2 (n.log2 - 23)
  roundHalfEven n unit * unit

/-- Whether a sum of octets is in proportion to those read directly.  Their quotient is rounded as
they are, so that it may exceed the factor by half a unit of its last place. -/
def isInProportion (sum direct : Nat) : Bool :=
  rounded sum * Nat.pow 2 18 ≤ (factor * Nat.pow 2 18 + 1) * rounded direct

/-- Whether reading may go on.  Where even the whole document with everything counted twice keeps
below the limit, the octets read directly need not be known. -/
def isTolerable (t : Tally) : Bool :=
  t.whole + t.again + t.indirect < freeOctets ||
    t.direct.get + t.indirect < freeOctets ||
    isInProportion (t.direct.get + t.indirect) t.direct.get

/-- The document has been read up to a text. -/
def upTo (f : TextForm) (behind : List Char) (t : Tally) : Tally :=
  { t with direct := .mk fun _ => t.whole - f.octets behind + t.again }

/-- Octets of the document were read once more. -/
def withAgain (octets : Nat) (t : Tally) : Tally :=
  { t with again := t.again + octets, direct := .mk fun _ => t.direct.get + octets }

/-- Octets of the text of an entity were read. -/
def withIndirect (octets : Nat) (t : Tally) : Tally :=
  { t with indirect := t.indirect + octets }

/-- A rounded number is neither less than half nor more than twice the number. -/
theorem rounded_bounds (n : Nat) : n ≤ 2 * rounded n ∧ rounded n ≤ 2 * n := by
  by_cases empty : n = 0
  · subst empty
    decide
  · let unit := Nat.pow 2 (n.log2 - 23)
    have fits : unit ≤ n := by
      have bound : 2 ^ n.log2 ≤ n := Nat.log2_self_le empty
      exact Nat.le_trans (Nat.pow_le_pow_right Nat.two_pos (Nat.sub_le _ _)) bound
    have positive : 0 < unit := Nat.two_pow_pos _
    have whole : n / unit * unit + n % unit = n := Nat.div_add_mod' n unit
    have left : n % unit < unit := Nat.mod_lt n positive
    have atLeast : unit ≤ n / unit * unit :=
      Nat.le_mul_of_pos_left unit (Nat.div_pos fits positive)
    have more : (n / unit + 1) * unit = n / unit * unit + unit := Nat.succ_mul _ _
    change n ≤ 2 * (roundHalfEven n unit * unit) ∧ roundHalfEven n unit * unit ≤ 2 * n
    rcases roundHalfEven_eq_or n unit with same | next
    · rw [same]
      omega
    · rw [next, more]
      omega

/-- Reading may go on while no more was read indirectly than directly. -/
theorem isTolerable_of_indirect_le {t : Tally} (h : t.indirect ≤ t.direct.get) :
    t.isTolerable = true := by
  have ofSum := (rounded_bounds (t.direct.get + t.indirect)).2
  have ofDirect := (rounded_bounds t.direct.get).1
  have proportion : isInProportion (t.direct.get + t.indirect) t.direct.get = true := by
    unfold isInProportion factor
    rw [decide_eq_true_iff, Nat.pow_eq]
    omega
  unfold isTolerable
  rw [proportion, Bool.or_true]

end Tally

/-- Reading that keeps a tally and may stop. -/
abbrev Reading := StateT Tally (Except Stop)

/-- Where the octets of an attribute value are counted: with what was read directly, with what was
read indirectly, or not at all. -/
inductive Account where
  | direct
  | indirect
  | free
deriving DecidableEq

/-- Go on with a changed tally, or stop at a place. -/
def tolerate (place : List Char) (change : Tally → Tally) : Reading Unit := do
  modify change
  if !(← get).isTolerable then stop .excessiveExpansion place

/-- Count octets that were read. -/
def Account.count (account : Account) (place : List Char) (octets : Nat) : Reading Unit :=
  match account with
  | direct => tolerate place (·.withAgain octets)
  | indirect => tolerate place (·.withIndirect octets)
  | free => pure ()

/-- Count the octet of a predefined character.  It takes the place of more octets, and is
tolerated. -/
def countPredefined : Reading Unit :=
  modify (·.withIndirect 1)

/-- Report every stop of a reading at one place. -/
def Reading.movedTo (place : List Char) (reading : Reading α) : Reading α :=
  fun tally => (reading tally).mapError (·.movedTo place)

end Xml
end DocumentGateway
