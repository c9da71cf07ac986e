import DocumentGateway.ErrorEnvelope

namespace DocumentGateway

/-!
# Suggestions

A server suggests texts that complete a query, in a list under `suggestions` or as XML elements
`suggestion` at any depth.  An empty body holds none.
-/

variable [Limits]

namespace Suggestion

/-- The suggestions in a tree of elements, in document order. -/
def ofElement (root : Xml.Element) : List Text :=
  (root.descendants.filter fun e => e.localName = "suggestion".toList).map (·.textContent)

/-- The suggestions in a JSON value.  A suggestion that is no text is shown as one. -/
def ofValue (body : Value) : Except FormatFault (List Text) :=
  match body.fields?.bind (·.get? "suggestions") with
  | none => .ok []
  | some (.list items) => .ok (items.map Value.asText)
  | some v => .error (.suggestionsNotList v.kindName)

/-- The suggestions in the body of a response that is not in error. -/
def ofBody (r : Response) : Run (List Text) := do
  let text ← Run.ofExcept r.text
  if text.trim.isEmpty then return []
  else if r.type = .xml then return ofElement (← Xml.parse text)
  else Run.ofExcept ((ofValue (← Json.parse text)).mapError .format)

end Suggestion

/-- The suggestions in a response. -/
def Response.suggestions (r : Response) : Run (List Text) :=
  Run.timed .suggestions do
    r.requireSuccess
    Suggestion.ofBody r

end DocumentGateway
