import DocumentGateway.Xml.Markup

namespace DocumentGateway
namespace Xml

/-!
# Namespaces

Attributes whose names begin with `xmlns` bind prefixes to namespaces for an element and
everything in it.  The expanded form of a name has the namespace in braces before the part behind
the colon.  An element without prefix is in the default namespace if there is one; an attribute
without prefix is in none.
-/

/-- The bindings of prefixes to namespaces, the innermost first.  The default namespace is bound
to the empty prefix, and is undone by binding it to nothing. -/
abbrev Scope := List (List Char × List Char)

def xmlUri : List Char :=
  "http://www.w3.org/XML/1998/namespace".toList

def xmlnsUri : List Char :=
  "http://www.w3.org/2000/xmlns/".toList

namespace Scope

/-- The bindings outside of all elements. -/
def outermost : Scope :=
  [("xml".toList, xmlUri)]

/-- The namespace that a prefix is bound to. -/
def uri? (scope : Scope) (nsPrefix : List Char) : Option (List Char) :=
  (scope.find? fun binding => binding.1 = nsPrefix).bind fun binding =>
    if binding.2 = [] then none else some binding.2

end Scope

/-- The prefix that an attribute of some name binds. -/
def boundPrefix? (name : List Char) : Option (List Char) :=
  match splitName name with
  | (some front, back) => if front = "xmlns".toList then some back else none
  | (none, back) => if back = "xmlns".toList then some [] else none

/-- What is wrong with binding a prefix to a namespace. -/
def bindingFault? (nsPrefix uri : List Char) : Option Cause :=
  if nsPrefix ≠ [] ∧ uri = [] then some .emptyPrefixUri
  else if nsPrefix = "xmlns".toList then some .reservedXmlns
  else if uri.contains '\x7d' then some .syntaxError
  else if nsPrefix = "xml".toList then
    if uri = xmlUri then none else some .reservedXml
  else if uri = xmlUri ∨ uri = xmlnsUri then some .reservedUri
  else none

/-- A name in a namespace. -/
def expandedName (uri base : List Char) : List Char :=
  '\x7b' :: uri ++ '\x7d' :: base

/-- The expanded form of an element's name. -/
def expandElement (scope : Scope) (name : List Char) : Except Cause (List Char) :=
  match splitName name with
  | (some front, back) =>
    match scope.uri? front with
    | some uri => .ok (expandedName uri back)
    | none => .error .unboundPrefix
  | (none, back) =>
    match scope.uri? [] with
    | some uri => .ok (expandedName uri back)
    | none => .ok back

/-- The expanded form of an attribute's name. -/
def expandAttribute (scope : Scope) (name : List Char) : Except Cause (List Char) :=
  match splitName name with
  | (some front, back) =>
    match scope.uri? front with
    | some uri => .ok (expandedName uri back)
    | none => .error .unboundPrefix
  | (none, back) => .ok back

/-- Expand the names of attributes.  No two expanded names are alike. -/
def expandAttributes (scope : Scope) : (seen : List (List Char)) →
    List (List Char × List Char) → Except Cause (List (List Char × List Char))
  | _, [] => .ok []
  | seen, (name, value) :: rest => do
    let expanded ← expandAttribute scope name
    if seen.contains expanded then .error .duplicateAttribute
    else return (expanded, value) :: (← expandAttributes scope (expanded :: seen) rest)

/-- The part of an expanded name behind its namespace: what follows the last closing brace. -/
def localName (name : List Char) : List Char :=
  (name.reverse.takeWhile (· ≠ '\x7d')).reverse

end Xml
end DocumentGateway
