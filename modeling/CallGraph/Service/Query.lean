/-
**Queries to the service and why they fail.**

A method query needs a name that is not blank, a depth within the limits of the settings, and a
known method; they are checked in this order. A query without a depth has the default depth. The
refusal of a depth shows the depth, and is a misuse when that cannot be written.
-/

import CallGraph.Settings.Basic
import CallGraph.Walk.Link
import CallGraph.Walk.Reach

namespace CallGraph

/-- An index with the settings under which it answers. -/
structure Service where
  index : Index
  settings : Settings

/-- Why a query is refused. -/
inductive QueryError where
  | methodRequired
  | classRequired
  | depthTooSmall (given : Int)
  | depthTooGreat (limit : Nat) (given : Int)
  | methodUnknown (name : String)
  | classUnknown (name : String)
  | depth (cause : DepthError)
  | misuse (cause : Misuse)

/-- The wording of a query error. -/
def QueryError.message : QueryError → String
  | methodRequired => "method_fqn is required"
  | classRequired => "class_fqn is required"
  | depthTooSmall given => "depth must be at least 1, got " ++ Text.integerText given
  | depthTooGreat limit given =>
    "depth must be at most " ++ Text.decimalText limit ++ ", got " ++ Text.integerText given
  | methodUnknown name => "Method not found: " ++ name
  | classUnknown name => "Class not found: " ++ name
  | depth cause => cause.message
  | misuse cause => cause.message

/-- The trimmed name that a query gives; a void or blank one is refused. -/
def requireName (given : Value) (refusal : QueryError) : Except QueryError String :=
  if given.isVoid then
    .error refusal
  else
    match given.asText with
    | .error cause => .error (.misuse cause)
    | .ok s => if (Text.trim s).isEmpty then .error refusal else .ok (Text.trim s)

namespace Service

/-- The depth of a query, within the limits of the settings. -/
def checkedDepth (service : Service) (given : Option Int) : Except QueryError Nat :=
  let depth := given.getD service.settings.defaultDepth.1
  let limit := service.settings.maxDepthLimit.1
  if depth < 1 then
    .error (Value.refusal QueryError.misuse (.depthTooSmall depth) [.int depth])
  else if (limit : Int) < depth then
    .error (Value.refusal QueryError.misuse (.depthTooGreat limit depth) [.int limit, .int depth])
  else
    .ok depth.toNat

/-- The name and the depth of a method query. -/
def checkedMethod (service : Service) (given : Value) (depth : Option Int) :
    Except QueryError (String × Nat) := do
  let name ← requireName given .methodRequired
  let depth ← service.checkedDepth depth
  if service.index.hasMethod name then return (name, depth) else .error (.methodUnknown name)

end Service

end CallGraph
