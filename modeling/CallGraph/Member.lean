/-
**Members**: the three names that place a method.

A member has its full dotted name, the simple name of the type that declares it, and that type's
namespace. All three are plain values, since analyzers may leave them out or send anything.
`Member.ofName` reads type and namespace off the full name; `Member.typeName` joins namespace and
type again, which fails when one of them cannot be written.
-/

import CallGraph.Text.Dotted
import CallGraph.Value

namespace CallGraph

/-- The names of a method-like entity. -/
structure Member where
  /-- The full dotted name. -/
  name : Value
  /-- The simple name of the declaring type. -/
  type : Value
  /-- The namespace of the declaring type, void for the global one. -/
  scope : Value

/-- A type's name inside its namespace. A void namespace is left out, and so is a void name. -/
def qualified (scope name : Value) : Value :=
  if scope.isVoid then
    if name.isVoid then .text "" else name
  else if name.isVoid then
    scope
  else
    .text (scope.display ++ "." ++ name.display)

/-- Joins a namespace and a name. Both are written only where neither is void. -/
def qualify (scope name : Value) : Except Misuse Value :=
  if scope.isVoid || name.isVoid || (scope.isWritable && name.isWritable) then
    .ok (qualified scope name)
  else
    .error .tooLong

namespace Member

/-- The member with no names at all. -/
def unnamed : Member := ⟨.text "", .text "", .text ""⟩

/-- The type and the namespace that the segments of a full name give. -/
def place (parts : List String) : String × String :=
  match parts.reverse with
  | _ :: type :: scope => (type, Text.dotted scope.reverse)
  | _ => ("", "")

/-- The member that a full name of the form namespace, type, member stands for. -/
def ofName (name : String) : Member :=
  let (type, scope) := place (Text.segments name)
  ⟨.text name, .text type, .text scope⟩

/-- The last segment of the full name, empty for a void one. -/
def simpleName (member : Member) : Except Misuse String :=
  if member.name.isVoid then .ok "" else member.name.asText.map Text.lastSegment

/-- The declaring type inside its namespace, as it reads. -/
def typePath (member : Member) : Value := qualified member.scope member.type

/-- The declaring type inside its namespace. -/
def typeName (member : Member) : Except Misuse Value := qualify member.scope member.type

end Member

end CallGraph
