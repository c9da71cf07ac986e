import DocumentGateway.Fault

namespace DocumentGateway

/-!
# Runs of operations

An operation ends with a result or a fault, and on its way it reports: lines about what it reads
and sends, and the names of the operations that were timed.  The reports come in the order in
which they are made, those of an inner operation before that of the operation around it.
-/

/-- The operations that are timed: those of this library, and any that a caller names. -/
inductive Operation where
  | valueToDocument
  | valueOfDocument
  | valueOfResponse
  | elementToDocument
  | elementOfDocument
  | elementOfResponse
  | permissions
  | isInError
  | errorMessage
  | errorDetail
  | suggestions
  | aggregateNumber
  | addNumbers
  | addContributions
  | other (label : String)
deriving DecidableEq

/-- The name under which an operation is reported. -/
def Operation.label : Operation → String
  | valueToDocument => "JsonHelper.to_document"
  | valueOfDocument => "JsonHelper.from_document"
  | valueOfResponse => "JsonHelper.from_response"
  | elementToDocument => "XmlHelper.to_document"
  | elementOfDocument => "XmlHelper.from_document"
  | elementOfResponse => "XmlHelper.from_response"
  | permissions => "JsonHelper.permissions_from_response"
  | isInError => "ResponseHelper.is_in_error"
  | errorMessage => "ResponseHelper.get_error_message"
  | errorDetail => "ResponseHelper.get_error_detail_as_string"
  | suggestions => "ResponseHelper.get_suggestions"
  | aggregateNumber => "ResponseHelper.get_aggregate_result"
  | addNumbers => "ResponseHelper.get_aggregate_results"
  | addContributions => "ResponseHelper.get_complex_aggregate_results"
  | other label => label

/-- A report. -/
inductive Event where
  | debug (line : Text)
  | timing (operation : Operation)
deriving DecidableEq

/-- What an operation ended with and what it reported. -/
structure Run (α : Type) where
  result : Except Fault α
  events : List Event

namespace Run

/-- End with a value and no report. -/
protected def pure (a : α) : Run α :=
  ⟨.ok a, []⟩

/-- Go on with the value of a run, unless it failed. -/
protected def bind (run : Run α) (next : α → Run β) : Run β :=
  match run.result with
  | .ok a => ⟨(next a).result, run.events ++ (next a).events⟩
  | .error fault => ⟨.error fault, run.events⟩

instance : Monad Run where
  pure := Run.pure
  bind := Run.bind

/-- Fail. -/
def fail (fault : Fault) : Run α :=
  ⟨.error fault, []⟩

/-- Fail for want of a form. -/
def malformed (fault : FormatFault) : Run α :=
  fail (.format fault)

/-- End as a computation without reports does. -/
def ofExcept (result : Except Fault α) : Run α :=
  ⟨result, []⟩

/-- Report a line. -/
def debug (line : Text) : Run Unit :=
  ⟨.ok (), [.debug line]⟩

/-- Report at the end of a run that its operation was timed, whether it failed or not. -/
def timed (operation : Operation) (run : Run α) : Run α :=
  ⟨run.result, run.events ++ [.timing operation]⟩

/-- The value of a run, or nothing when it failed for want of a form. -/
def whenFormed (run : Run α) : Run (Option α) :=
  match run.result with
  | .ok a => ⟨.ok (some a), run.events⟩
  | .error (.format _) => ⟨.ok none, run.events⟩
  | .error fault => ⟨.error fault, run.events⟩

@[simp]
theorem result_pure (a : α) : (pure a : Run α).result = .ok a := rfl

@[simp]
theorem result_bind (run : Run α) (next : α → Run β) :
    (run >>= next).result = run.result.bind fun a => (next a).result := by
  cases run with
  | mk result events =>
      cases result <;> rfl

@[simp]
theorem result_fail (fault : Fault) : (fail fault : Run α).result = .error fault := rfl

@[simp]
theorem result_ofExcept (result : Except Fault α) : (ofExcept result).result = result := rfl

@[simp]
theorem result_debug (line : Text) : (debug line).result = .ok () := rfl

@[simp]
theorem result_timed (operation : Operation) (run : Run α) :
    (run.timed operation).result = run.result := rfl

/-- A run that lacks nothing but a form ends well. -/
theorem result_whenFormed (run : Run α) :
    run.whenFormed.result =
      match run.result with
      | .ok a => .ok (some a)
      | .error (.format _) => .ok none
      | .error fault => .error fault := by
  unfold whenFormed
  split <;> rfl

end Run

end DocumentGateway
