/-
**Call edges**: a caller, a callee and the site of the call.

Two edges are the same when names and site are; types, namespaces and the name that the callee was
resolved from are carried along. `Edge.key?` is that identity. `Edge.between` makes an edge from two
full names, `Edge.ofFact` from a complete fact.
-/

import CallGraph.Fact

namespace CallGraph

/-- Where a call stands. -/
structure Site where
  file : Value
  line : Value

/-- A site as a key. -/
structure Site.Key where
  file : Atom
  line : Atom
  deriving DecidableEq

/-- The key of a site whose file and line can be keys. -/
def Site.key? (site : Site) : Option Site.Key := do
  return ⟨← site.file.atom?, ← site.line.atom?⟩

/-- The site as file and line. -/
def Site.shown (site : Site) : Except Misuse String := do
  return (← site.file.shown) ++ ":" ++ (← site.line.shown)

/-- A call from one member to another. -/
structure Edge where
  caller : Member
  callee : Member
  site : Site
  /-- The name that the call was bound to, void when it is the callee's own. -/
  resolvedFrom : Value

/-- The identity of an edge. -/
structure Edge.Key where
  caller : Atom
  callee : Atom
  site : Site.Key
  deriving DecidableEq

/-- Why a fact makes no edge. -/
inductive EdgeError where
  | incomplete (shown : String)
  | misuse (cause : Misuse)

/-- The wording of an edge error. -/
def EdgeError.message : EdgeError → String
  | incomplete shown => "Cannot build edge from incomplete fact: " ++ shown
  | misuse cause => cause.message

namespace Edge

/-- The identity of an edge whose names and site can be keys. -/
def key? (edge : Edge) : Option Edge.Key := do
  return ⟨← edge.caller.name.atom?, ← edge.callee.name.atom?, ← edge.site.key?⟩

/-- The edge in one line. -/
def shown (edge : Edge) : Except Misuse String := do
  let caller ← edge.caller.name.shown
  let callee ← edge.callee.name.shown
  let site ← edge.site.shown
  return caller ++ " -> " ++ callee ++ " (" ++ site ++ ")"

/-- The file of an edge where none is given. -/
def standardFile : Value := .text "Program.cs"

/-- The line of an edge where none is given. -/
def standardLine : Value := .int 1

/-- The edge between two full names. -/
def between (caller callee : String) (site : Site) : Edge :=
  ⟨Member.ofName caller, Member.ofName callee, site, .text ""⟩

/-- The edge with the name that its call was bound to, kept only where it is not the callee's. -/
def boundTo (name : String) (edge : Edge) : Edge :=
  if edge.callee.name.reads name then edge else { edge with resolvedFrom := .text name }

/-- The refusal of an incomplete fact, which shows the fact. -/
def refuse (fact : Fact) : EdgeError :=
  match fact.shown with
  | .ok shown => .incomplete shown
  | .error cause => .misuse cause

/-- The edge of a fact that has both sides and a file. -/
def ofFact (fact : Fact) (resolvedFrom : Value) : Except EdgeError Edge :=
  match fact.caller, fact.callee, fact.file with
  | none, _, _ | _, none, _ | _, _, .null => .error (refuse fact)
  | some caller, some callee, file =>
    .ok ⟨caller.member, callee.member, ⟨file, fact.line⟩, resolvedFrom⟩

end Edge

end CallGraph
