import DocumentGateway.Fault
import DocumentGateway.Value.Attribute

namespace DocumentGateway

/-!
# Records in hand

A caller reads and writes a record by key and by attribute.  Its attributes are its fields, until
the caller puts another map in their place: from then on attributes are read and written there, and
keys as before.  A text, a list or another value that was read in the place of a record can be
asked the same, and refuses what its kind does not allow.
-/

/-- Where the attributes of a record are written. -/
inductive AttributePlace where
  | fields
  | mapping (entries : Record)
  | record (entries : Record)

/-- The place in which a value that is set as the map of attributes puts them. -/
def AttributePlace.ofValue? : Value → Option AttributePlace
  | .mapping entries => some (.mapping entries)
  | .record entries => some (.record entries)
  | _ => none

/-- A value in the hands of a caller. -/
structure Handle where
  value : Value
  place : AttributePlace := .fields

namespace Handle

/-- A record of the given fields. -/
def ofFields (fields : Record) : Handle :=
  { value := .record fields }

/-- A record of named arguments.  One of them is the record itself and cannot be given. -/
def ofArguments (arguments : Record) : Except Fault Handle :=
  if arguments.holds "self" then
    .error (.access (.repeatedReceiver (Value.record arguments).kindName))
  else .ok (ofFields arguments)

/-- The map in which the attributes of a record are written. -/
def attributes (h : Handle) (fields : Record) : Record :=
  match h.place with
  | .fields => fields
  | .mapping entries => entries
  | .record entries => entries

/-- The same, as a value. -/
def attributeMap (h : Handle) : Value :=
  match h.place with
  | .fields => h.value
  | .mapping entries => .mapping entries
  | .record entries => .record entries

/-- Write into the map of the attributes. -/
def withAttributes (h : Handle) (written : Record) : Handle :=
  match h.place with
  | .fields => { h with value := .record written }
  | .mapping _ => { h with place := .mapping written }
  | .record _ => { h with place := .record written }

/-! ## Attributes -/

/-- An attribute, where it is a value. -/
def getAttribute (h : Handle) (name : Text) : Except Fault Value :=
  match h.value with
  | .record fields =>
    if name = "__dict__" then .ok h.attributeMap
    else
      match Value.attributeIn (h.attributes fields) name with
      | some found => .ok found
      | none => .error (.access (.noAttribute h.value.kindName name))
  | v => (v.readAttribute name).mapError .access

/-- The attribute of an attribute, and so on. -/
def getAttributeAlong (h : Handle) : List Text → Except Fault Value
  | [] => .ok h.value
  | name :: names => do
    names.foldlM (fun v next => (v.readAttribute next).mapError .access) (← h.getAttribute name)

/-- Whether there is an attribute of some name, written by the caller or by the kind. -/
def hasAttribute (h : Handle) (name : Text) : Bool :=
  let isWritten := match h.value with
    | .record fields => (h.attributes fields).holds (.text name)
    | _ => false
  isWritten || h.value.hasKindAttribute name

/-- Why an attribute of a value that has none of its own cannot be changed. -/
def fixedAttribute (v : Value) (name : Text) : Fault :=
  let kind := match v with
    | .bool _ => (Value.int 0).kindName
    | _ => v.kindName
  if (v.part? name).isSome then .access (.unwritableAttribute kind name)
  else if v.hasKindAttribute name then .access (.fixedAttribute v.kindName name)
  else .access (.noAttribute v.kindName name)

/-- Set an attribute. -/
def setAttribute (h : Handle) (name : Text) (v : Value) : Except Fault Handle :=
  if name = "__class__" then .error (.access (.classKind v.kindName))
  else
    match h.value with
    | .record fields =>
      if name = "__dict__" then
        match AttributePlace.ofValue? v with
        | some place => .ok { h with place }
        | none => .error (.access (.attributesKind v.kindName))
      else if name = "__weakref__" then
        .error (.access (.unwritableAttribute h.value.kindName name))
      else .ok (h.withAttributes ((h.attributes fields).put (.text name) v))
    | other => .error (fixedAttribute other name)

/-- Remove an attribute.  When the whole map is removed, an empty one takes its place. -/
def deleteAttribute (h : Handle) (name : Text) : Except Fault Handle :=
  if name = "__class__" then .error (.access .classDeletion)
  else
    match h.value with
    | .record fields =>
      let written := h.attributes fields
      if name = "__dict__" then .ok { h with place := .mapping [] }
      else if name = "__weakref__" then
        .error (.access (.unwritableAttribute h.value.kindName name))
      else if written.holds (.text name) then .ok (h.withAttributes (written.erase (.text name)))
      else .error (.access (.noAttribute h.value.kindName name))
    | other => .error (fixedAttribute other name)

/-! ## Keys -/

/-- The value under a key. -/
def getItem (h : Handle) (name : Text) : Except Fault Value :=
  match h.value with
  | .record fields =>
    match OrderedPairs.get? fields (.text name) with
    | some v => .ok v
    | none => .error (.missingKey (.text name))
  | .text _ => .error (.access .indexOfText)
  | .list _ => .error (.access .indexOfList)
  | v => .error (.access (.noItems v.kindName))

/-- Write a value under a key. -/
def setItem (h : Handle) (name : Text) (v : Value) : Except Fault Handle :=
  match h.value with
  | .record fields => .ok { h with value := .record (OrderedPairs.put fields (.text name) v) }
  | .list _ => .error (.access .indexOfList)
  | other => .error (.access (.noItemAssignment other.kindName))

/-- Remove a key. -/
def deleteItem (h : Handle) (name : Text) : Except Fault Handle :=
  match h.value with
  | .record fields =>
    if OrderedPairs.holds fields (.text name) then
      .ok { h with value := .record (OrderedPairs.erase fields (.text name)) }
    else .error (.missingKey (.text name))
  | .list _ => .error (.access .indexOfList)
  | other => .error (.access (.noItemDeletion other.kindName))

/-- Whether a text is a key of a record, a member of a list, or a part of a text. -/
def contains (h : Handle) (name : Text) : Except Fault Bool :=
  match h.value with
  | .record fields => .ok (OrderedPairs.holds fields (.text name))
  | .list items => .ok (items.any fun item => item.isText name)
  | .text t => .ok ((List.range (t.length + 1)).any fun place => name.isPrefixOf (t.drop place))
  | v => .error (.access (.notSearchable v.kindName))

end Handle

end DocumentGateway
