/-
**All call paths to a method.**

`Index.pathsTo` walks backwards from a target over its callers. A path is reported when its first
method has no callers, or, as truncated, when it has as many calls as the depth allows; no path
meets a method twice. The routes still to be followed stand on a stack, and the callers of a method
go on top in the order of their first call, so paths come in the order of a depth-first search. The
signal is polled before each look at the stack, and a cap on the number of paths is tested after
each path.
-/

import CallGraph.Index
import CallGraph.Walk.Route
import CallGraph.Walk.Signal

namespace CallGraph

/-- Why a walk is refused. -/
inductive DepthError where
  /-- The walk was asked for without any depth. -/
  | tooSmall (given : Int)
  | misuse (cause : Misuse)

/-- The wording of a depth error. -/
def DepthError.message : DepthError → String
  | tooSmall given => "max_depth must be at least 1, got " ++ Text.integerText given
  | misuse cause => cause.message

/-- The depth of a walk as a number of calls. -/
def checkDepth (maxDepth : Int) : Except DepthError Nat :=
  if maxDepth < 1 then
    .error (Value.refusal DepthError.misuse (.tooSmall maxDepth) [.int maxDepth])
  else
    .ok maxDepth.toNat

/-- A path from an entry point, or from the depth horizon, to a target. -/
structure CallPath where
  /-- The methods on the path, the target last. -/
  nodes : List String
  /-- Whether the depth cut the path short. -/
  truncated : Bool
  deriving DecidableEq

/-- The number of calls on a path. -/
def CallPath.hops (path : CallPath) : Nat := path.nodes.length - 1

/-- The paths found to a target. -/
structure PathsTo where
  target : String
  /-- The paths in the order of their discovery. -/
  found : Array CallPath
  /-- Whether the depth cut some path short. -/
  depthReached : Bool
  /-- Whether the cap ended the walk with routes left to follow. -/
  limitReached : Bool
  /-- Whether the signal ended the walk. -/
  cancelled : Bool
  /-- How often the signal was polled. -/
  polls : Nat

namespace PathsTo

/-- The result before the walk. -/
def start (target : String) : PathsTo := ⟨target, #[], false, false, false, 0⟩

/-- The paths in the order of their discovery. -/
def paths (result : PathsTo) : List CallPath := result.found.toList

/-- The paths that start at an entry point. -/
def completePaths (result : PathsTo) : List CallPath :=
  result.paths.filter fun path => !path.truncated

/-- Whether the walk covered everything. -/
def isComplete (result : PathsTo) : Bool :=
  !(result.depthReached || result.limitReached || result.cancelled)

/-- Counts a poll. -/
def polled (result : PathsTo) : PathsTo := { result with polls := result.polls + 1 }

/-- Reports a route as a path. -/
def emit (result : PathsTo) (route : Route) (truncated : Bool) : PathsTo :=
  { result with
    found := result.found.push ⟨route.nodes, truncated⟩
    depthReached := result.depthReached || truncated }

/-- Whether the cap is reached. -/
def isFull (cap : Option Int) (result : PathsTo) : Bool :=
  match cap with
  | none => false
  | some most => most ≤ result.found.size

/-- The neighbours that a route may go on to: those not on it yet. -/
def openNeighbours (next : String → List String) (route : Route) : List String :=
  (next route.tip).filter fun name => !route.nodes.contains name

theorem openNeighbours_sublist (next : String → List String) (route : Route) :
    (openNeighbours next route).Sublist (next route.tip) :=
  List.filter_sublist

/-- Whether a route ends at its tip: without truncation when nothing leads on, with truncation at
the greatest depth. -/
def ending (next : String → List String) (maxDepth : Nat) (route : Route) : Option Bool :=
  if (next route.tip).isEmpty then some false
  else if maxDepth ≤ route.hops then some true
  else none

theorem lt_of_ending_eq_none {next : String → List String} {maxDepth : Nat} {route : Route}
    (goesOn : ending next maxDepth route = none) : route.hops < maxDepth := by
  unfold ending at goesOn
  split at goesOn
  · cases goesOn
  · split at goesOn
    · cases goesOn
    · omega

/-- The walk over a stack of routes. -/
def search (next : String → List String) (maxDepth : Nat) (cap : Option Int) (signal : Signal)
    (stack : List Route) (result : PathsTo) : PathsTo :=
  match stack with
  | [] => result
  | route :: rest =>
    if signal result.polls then
      { result.polled with cancelled := true }
    else
      match _ends : ending next maxDepth route with
      | some truncated =>
        let result := result.polled.emit route truncated
        if result.isFull cap then { result with limitReached := !rest.isEmpty }
        else search next maxDepth cap signal rest result
      | none =>
        let grown := (openNeighbours next route).map route.extend
        search next maxDepth cap signal (grown ++ rest) result.polled
termination_by Frontier.load next maxDepth (stack.map Route.entry)
decreasing_by
  · have positive := Frontier.walkCount_pos next (maxDepth - route.hops) route.tip
    simp only [List.map_cons, Frontier.load_cons, Route.entry]
    omega
  · have lighter := Frontier.load_neighbours_lt next maxDepth
      (openNeighbours_sublist next route) (lt_of_ending_eq_none _ends)
    simp only [List.map_append, Route.map_entry_extend, Frontier.load_append, List.map_cons,
      Frontier.load_cons, Route.entry]
    omega

end PathsTo

/-- The call paths to a target of at most `maxDepth` calls, at most as many as the cap allows.
An unknown target has none. -/
def Index.pathsTo (index : Index) (target : String) (maxDepth : Int) (cap : Option Int)
    (signal : Signal) : Except DepthError PathsTo := do
  let depth ← checkDepth maxDepth
  if index.hasMethod target then
    return PathsTo.search index.callerNames depth cap signal [.start target] (.start target)
  else
    return .start target

end CallGraph
