import DocumentGateway.Text.CodePoint

namespace DocumentGateway

/-!
# How deep things are nested

To read a list inside of a list, and to write an element inside of an element, takes room on the
stack of a program.  How much room there is depends on the program and on the place in it from which
an operation is called, so it is left open here.  How many lists and records fit into it depends on
the text as well, since to make a record takes more room than to make a list.  An operation that runs
out of room fails, and no one who calls it for want of a form catches that.
-/

/-- How deep things may be nested. -/
class Limits where
  /-- The most lists and records one in another that are read in a text. -/
  values : Text → Nat
  /-- How many of them are read in every text. -/
  commonValues : Nat
  /-- The most elements one in another that are written. -/
  elements : Nat
  commonValues_le : ∀ t, commonValues ≤ values t
  /-- There is room for an object in an object. -/
  two_le_commonValues : 2 ≤ commonValues
  /-- There is room for an element in an element. -/
  two_le_elements : 2 ≤ elements

namespace Limits

/-- The room that an operation has when it is called from the top of a program. -/
scoped instance usual : Limits where
  values := fun _ => 980
  commonValues := 980
  elements := 980
  commonValues_le := fun _ => Nat.le_refl 980
  two_le_commonValues := by decide
  two_le_elements := by decide

end Limits

end DocumentGateway
