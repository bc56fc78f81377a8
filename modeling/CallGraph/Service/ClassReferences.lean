/-
**Classes that call into a class.**

`Service.classReferences` lists the classes of the callers of a class's methods, each once with the
site of its first call. The class may be named with or without its namespace and in any case. Calls
within the class itself are left out.
-/

import CallGraph.Service.Query

namespace CallGraph

/-- A class that calls into the one asked for. -/
structure ClassReference where
  name : String
  type : Value
  scope : Value
  site : Site

/-- The classes that call into a class. -/
structure ClassReferences where
  name : String
  references : List ClassReference

namespace ClassReference

/-- The only relation between classes that is recorded. -/
def relation : String := "calls"

/-- The reference that an edge makes to a class, named in lower case, if it makes one. -/
def ofEdge? (wanted : String) (edge : Edge) : Except Misuse (Option ClassReference) := do
  let calleeClass ← (← edge.callee.typeName).asText
  let calleeType ← edge.callee.type.asText
  if wanted ≠ Text.lower calleeClass ∧ wanted ≠ Text.lower calleeType then
    return none
  else
    let callerClass ← (← edge.caller.typeName).asText
    if Text.lower callerClass = wanted ∨ Text.lower callerClass = Text.lower calleeClass then
      return none
    else
      return some ⟨callerClass, edge.caller.type, edge.caller.scope, edge.site⟩

/-- The references that edges make, each class once. -/
def collect (wanted : String) : List Edge → List ClassReference →
    Except Misuse (List ClassReference)
  | [], found => .ok found
  | edge :: rest, found => do
    match ← ofEdge? wanted edge with
    | none => collect wanted rest found
    | some reference =>
      if found.any fun other => other.name = reference.name then collect wanted rest found
      else collect wanted rest (found ++ [reference])

/-- Whether a filter on the relation lets calls through; a void one lets everything through. -/
def admits (filter : Value) : Except Misuse Bool :=
  if filter.isVoid then .ok true
  else filter.asText.map fun s => Text.lower s = relation

end ClassReference

/-- The classes that call into a class, for a filter on the relation. -/
def Service.classReferences (service : Service) (given filter : Value) :
    Except QueryError ClassReferences := do
  let name ← requireName given .classRequired
  if service.index.hasClass name then
    let references : Except Misuse (List ClassReference) := do
      if ← ClassReference.admits filter then
        ClassReference.collect (Text.lower name) service.index.edges []
      else
        return []
    return ⟨name, ← references.mapError QueryError.misuse⟩
  else
    .error (.classUnknown name)

end CallGraph
