/-
**Building an index edge by edge.**

`Builder.add` takes an edge: one whose identity is known already changes nothing, a new one is noted
and its two methods are registered and linked. `Builder.finish` makes the index and closes the
builder. Both give back the builder also when they fail, since some steps may have been taken by
then: an edge is noted before its methods are registered, and the builder is closed before the
index is made.
-/

import CallGraph.Index

namespace CallGraph

/-- Edges on their way into an index. -/
structure Builder where
  edges : Table Edge.Key Edge
  methods : Table String Method
  callees : Table String (List Ref)
  callers : Table String (List Ref)
  closed : Bool

/-- Why a builder refuses. -/
inductive BuilderError where
  | closed
  | misuse (cause : Misuse)

/-- The wording of a builder error. -/
def BuilderError.message : BuilderError → String
  | closed => "Call graph index has already been built"
  | misuse cause => cause.message

namespace Builder

/-- The builder that has taken nothing yet. -/
def fresh : Builder := ⟨.empty, .empty, .empty, .empty, false⟩

/-- The number of distinct edges noted. -/
def edgeCount (builder : Builder) : Nat := builder.edges.size

/-- Notes an edge under its identity. -/
def note (builder : Builder) (key : Edge.Key) (edge : Edge) : Builder :=
  { builder with edges := builder.edges.put key edge }

/-- Enters a member in the registry, unless its name is there already. -/
def register (builder : Builder) (member : Member) : Except Misuse (String × Builder) := do
  let name ← member.name.asText
  if builder.methods.has name then
    return (name, builder)
  else
    let method : Method := ⟨name, Text.lastSegment name, member.type, member.scope⟩
    return (name, { builder with methods := builder.methods.put name method })

/-- A reference after the ones that are there. -/
def appendRef (ref : Ref) (refs : Option (List Ref)) : List Ref := refs.getD [] ++ [ref]

/-- Links two registered methods in both directions. -/
def link (builder : Builder) (caller callee : String) (site : Site) : Builder :=
  { builder with
    callees := builder.callees.upsert caller (appendRef ⟨callee, site⟩)
    callers := builder.callers.upsert callee (appendRef ⟨caller, site⟩) }

/-- Takes in a new edge. -/
def enter (builder : Builder) (key : Edge.Key) (edge : Edge) : Except BuilderError Bool × Builder :=
  let noted := builder.note key edge
  match noted.register edge.caller with
  | .error cause => (.error (.misuse cause), noted)
  | .ok (caller, started) =>
    match started.register edge.callee with
    | .error cause => (.error (.misuse cause), started)
    | .ok (callee, registered) => (.ok true, registered.link caller callee edge.site)

/-- Adds an edge and tells whether it is new. -/
def add (builder : Builder) (edge : Edge) : Except BuilderError Bool × Builder :=
  if builder.closed then
    (.error .closed, builder)
  else
    match edge.key? with
    | none => (.error (.misuse .notKey), builder)
    | some key =>
      if builder.edges.has key then (.ok false, builder) else builder.enter key edge

/-- Adds edges up to the first that fails and counts the new ones. -/
def addAll (builder : Builder) : List Edge → Except BuilderError Nat × Builder
  | [] => (.ok 0, builder)
  | edge :: rest =>
    match builder.add edge with
    | (.error cause, failed) => (.error cause, failed)
    | (.ok new, grown) =>
      let (count, final) := grown.addAll rest
      (count.map (· + new.toNat), final)

/-- The index of what the builder holds. -/
def index (builder : Builder) : Except Misuse Index := do
  let classes ← Index.classNames builder.methods.values
  return ⟨builder.edges.values, builder.methods, builder.callees, builder.callers, classes⟩

/-- Closes the builder and makes its index. -/
def finish (builder : Builder) : Except BuilderError Index × Builder :=
  if builder.closed then
    (.error .closed, builder)
  else
    (builder.index.mapError BuilderError.misuse, { builder with closed := true })

end Builder

/-- The index of a list of edges. -/
def Index.ofEdges (edges : List Edge) : Except BuilderError Index :=
  match Builder.fresh.addAll edges with
  | (.error cause, _) => .error cause
  | (.ok _, builder) => builder.finish.1

end CallGraph
