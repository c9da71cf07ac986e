import DocumentGateway.Text.CodePoint

namespace DocumentGateway

/-!
# Faults of access

The ways in which a value refuses to be read or written by key or by attribute.  Each names the
kind of the value that refuses.
-/

/-- Why a value cannot be read or written as a caller wants. -/
inductive AccessFault where
  | noAttribute (kind : String) (name : Text)
  | fixedAttribute (kind : String) (name : Text)
  | unwritableAttribute (kind : String) (name : Text)
  | attributesKind (kind : String)
  | classKind (kind : String)
  | classDeletion
  | repeatedReceiver (kind : String)
  | noItems (kind : String)
  | noItemAssignment (kind : String)
  | noItemDeletion (kind : String)
  | indexOfText
  | indexOfList
  | notSearchable (kind : String)
deriving DecidableEq

namespace AccessFault

/-- Whether the fault lies with an attribute, and not with the kind of a value. -/
def isOfAttribute : AccessFault → Bool
  | noAttribute _ _ => true
  | fixedAttribute _ _ => true
  | unwritableAttribute _ _ => true
  | _ => false

/-- A kind of value between apostrophes, and the words after it. -/
def aboutKind (kind words : String) : Text :=
  Text.ofString ("'" ++ kind ++ "' object " ++ words)

def message : AccessFault → Text
  | noAttribute kind name =>
    aboutKind kind "has no attribute '" ++ name ++ Text.ofString "'"
  | fixedAttribute kind name =>
    aboutKind kind "attribute '" ++ name ++ Text.ofString "' is read-only"
  | unwritableAttribute kind name =>
    "attribute '" ++ name ++ Text.ofString ("' of '" ++ kind ++ "' objects is not writable")
  | attributesKind kind => "__dict__ must be set to a dictionary, not a '" ++ kind ++ "'"
  | classKind kind => "__class__ must be set to a class, not '" ++ kind ++ "' object"
  | classDeletion => "can't delete __class__ attribute"
  | repeatedReceiver kind => kind ++ ".__init__() got multiple values for argument 'self'"
  | noItems kind => aboutKind kind "is not subscriptable"
  | noItemAssignment kind => aboutKind kind "does not support item assignment"
  | noItemDeletion kind => aboutKind kind "doesn't support item deletion"
  | indexOfText => "string indices must be integers, not 'str'"
  | indexOfList => "list indices must be integers or slices, not str"
  | notSearchable kind => "argument of type '" ++ kind ++ "' is not iterable"

end AccessFault

end DocumentGateway
