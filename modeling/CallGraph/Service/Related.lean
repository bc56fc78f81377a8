/-
**Callers and callees by level.**

`Service.callers` and `Service.callees` go out from a method level by level. A method is reported at
the first level that meets it, once for every site at which some method of the level before calls
it, or is called. Methods are marked only when their level is complete, so that all its sites are
seen.
-/

import CallGraph.Service.Query

namespace CallGraph

/-- A method related to the one asked for. -/
structure RelatedMethod where
  name : String
  simpleName : String
  type : Value
  scope : Value
  depth : Nat
  /-- The site of the call, none for the method asked for itself. -/
  site : Option Site

/-- The methods related to a method. -/
structure Related where
  method : String
  entries : List RelatedMethod
  /-- The last level that was looked at. -/
  reached : Nat

/-- The identity of a reference. -/
def Ref.key (ref : Ref) : String × Option Site.Key := (ref.name, ref.site.key?)

namespace Related

/-- What a walk by levels has met so far. -/
structure Sweep where
  /-- The references reported, with their depths. -/
  entries : List (Ref × Nat)
  /-- The identities of the references reported. -/
  seen : List (String × Option Site.Key)
  /-- The methods of the level being made, each once. -/
  level : List String

/-- Meets a reference at a depth: it is reported unless its method is marked or it was reported. -/
def Sweep.meet (marked : List String) (depth : Nat) (sweep : Sweep) (ref : Ref) : Sweep :=
  if marked.contains ref.name || sweep.seen.contains ref.key then
    sweep
  else
    { entries := sweep.entries ++ [(ref, depth)]
      seen := ref.key :: sweep.seen
      level := if sweep.level.contains ref.name then sweep.level else sweep.level ++ [ref.name] }

/-- Meets all references of the methods of a level. -/
def Sweep.over (next : String → List Ref) (marked : List String) (depth : Nat) (sweep : Sweep)
    (level : List String) : Sweep :=
  (level.flatMap next).foldl (meet marked depth) { sweep with level := [] }

/-- The walk by levels, for some levels more after the given depth; it stops at the first level
that meets nothing. -/
def levels (next : String → List Ref) : Nat → Nat → List String → Sweep → List (Ref × Nat) × Nat
  | 0, depth, _, sweep => (sweep.entries, depth)
  | more + 1, depth, marked, sweep =>
    let swept := sweep.over next marked (depth + 1) sweep.level
    if swept.level.isEmpty then (swept.entries, depth + 1)
    else levels next more (depth + 1) (marked ++ swept.level) swept

end Related

namespace Service

/-- A related method with what the index knows of it. -/
def relatedMethod (service : Service) (name : String) (depth : Nat) (site : Option Site) :
    RelatedMethod :=
  match service.index.method? name with
  | some method => ⟨name, method.simpleName, method.type, method.scope, depth, site⟩
  | none => ⟨name, Text.lastSegment name, .text "", .text "", depth, site⟩

/-- The methods related to a method over the given references. -/
def related (service : Service) (next : String → List Ref) (given : Value) (depth : Option Int)
    (includeSelf : Bool) : Except QueryError Related := do
  let (name, depth) ← service.checkedMethod given depth
  let (found, reached) := Related.levels next depth 0 [name] ⟨[], [], [name]⟩
  let self := if includeSelf then [service.relatedMethod name 0 none] else []
  let others := found.map fun (ref, depth) => service.relatedMethod ref.name depth (some ref.site)
  return ⟨name, self ++ others, reached⟩

/-- The methods that call a method, directly or through others. -/
def callers (service : Service) (given : Value) (depth : Option Int) (includeSelf : Bool) :
    Except QueryError Related :=
  service.related service.index.callersOf given depth includeSelf

/-- The methods that a method calls, directly or through others. -/
def callees (service : Service) (given : Value) (depth : Option Int) (includeSelf : Bool) :
    Except QueryError Related :=
  service.related service.index.calleesOf given depth includeSelf

end Service

end CallGraph
