import DocumentGateway.Json.Conversion

namespace DocumentGateway

/-!
# Permissions

The metadata of a document lists what each role may do with it.  An entry names a role and its
capabilities, and stands for one permission for each capability.  Anything in the list that is not
understood makes the whole list invalid.
-/

/-- What a role may do with a document. -/
inductive Capability where
  | read
  | update
  | insert
  | execute
  | nodeUpdate
deriving DecidableEq

namespace Capability

def all : List Capability :=
  [read, update, insert, execute, nodeUpdate]

def name : Capability → String
  | read => "READ"
  | update => "UPDATE"
  | insert => "INSERT"
  | execute => "EXECUTE"
  | nodeUpdate => "NODE_UPDATE"

def value : Capability → String
  | read => "read"
  | update => "update"
  | insert => "insert"
  | execute => "execute"
  | nodeUpdate => "node-update"

/-- The capability that a value names. -/
def ofValue? : Value → Option Capability
  | .text t => all.find? fun capability => t = capability.value
  | _ => none

end Capability

structure Permission where
  role : Text
  capability : Capability
deriving DecidableEq

namespace Permission

/-- The roles that have permissions, in the order of their first ones. -/
def roles (permissions : List Permission) : List Text :=
  permissions.foldl
    (fun seen permission =>
      if seen.contains permission.role then seen else seen ++ [permission.role]) []

/-- The capabilities of a role. -/
def capabilitiesFor (permissions : List Permission) (role : Text) : List Capability :=
  (permissions.filter fun permission => permission.role = role).map (·.capability)

/-- The permissions of a role with some capabilities. -/
def ofCapabilities (role : Text) (capabilities : List Value) :
    Except FormatFault (List Permission) :=
  capabilities.mapM fun v =>
    match Capability.ofValue? v with
    | some capability => .ok ⟨role, capability⟩
    | none => .error (.unknownCapability v role)

/-- The permissions that an entry stands for. -/
def ofEntry (entry : Value) : Except FormatFault (List Permission) :=
  match entry.fields? with
  | none => .error (.permissionEntry entry)
  | some fields =>
    match fields.get? "role-name", fields.get? "capabilities" with
    | some (.text role), some (.list capabilities) => ofCapabilities role capabilities
    | _, _ => .error (.permissionEntry entry)

/-- The list of entries in metadata, which is the whole of it or one of its fields. -/
def entriesOf (metadata : Value) : Except FormatFault (List Value) := do
  let listed ← match metadata.fields? with
    | none => pure metadata
    | some fields =>
      match fields.get? "permissions" with
      | some found => pure found
      | none => .error .noPermissions
  match listed with
  | .list entries => return entries
  | _ => .error .permissionsNotList

/-- The permissions in metadata. -/
def ofMetadata (metadata : Value) : Except FormatFault (List Permission) := do
  return (← (← entriesOf metadata).mapM ofEntry).flatten

variable [Limits]

/-- The permissions in a response with the metadata of a document. -/
def ofResponse (r : Response) : Run (List Permission) :=
  Run.timed .permissions do
    let metadata ← Json.ofResponse r
    Run.ofExcept ((ofMetadata metadata).mapError .format)

end Permission

end DocumentGateway
