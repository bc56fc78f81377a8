/-
**Path queries under settings.**

The path queries of a service walk with the cap and the time limit of its settings. Time enters as
a stopwatch: the seconds that have gone by at each poll. The walk stops when the query's own signal
or the time limit asks for it, and a result that is not complete is noted in the log.
-/

import CallGraph.Service.Query

namespace CallGraph

/-- The seconds since the start of a query at its first poll, its second, and so on. -/
abbrev Stopwatch := Nat → Rat

/-- The signal of a time limit. -/
def Stopwatch.limit (stopwatch : Stopwatch) (seconds : Binary64) : Signal :=
  fun poll => seconds.le (stopwatch poll)

/-- A truth value in a log line. -/
def shownFlag (flag : Bool) : String := if flag then "True" else "False"

/-- The log lines of a search for paths. -/
def PathsTo.log (result : PathsTo) (maxDepth : Nat) : List LogLine :=
  (if result.cancelled then
    [⟨.debug, "Path enumeration to " ++ result.target ++ " cancelled"⟩] else []) ++
  (if result.depthReached then
    [⟨.debug, "Path enumeration to " ++ result.target ++ " truncated at depth " ++
      Text.decimalText maxDepth⟩] else [])

/-- The log line of a search that did not cover everything. -/
def PathsTo.partialLog (result : PathsTo) : List LogLine :=
  if result.isComplete then
    []
  else
    [⟨.info, "Partial path result for " ++ result.target ++
      ": depth_reached=" ++ shownFlag result.depthReached ++
      " limit_reached=" ++ shownFlag result.limitReached ++
      " cancelled=" ++ shownFlag result.cancelled⟩]

/-- The log lines of a walk over the methods within reach. -/
def Reach.log (result : Reach) : List LogLine :=
  if result.cancelled then
    [⟨.debug, "Reachability walk from " ++ result.start ++ " cancelled"⟩]
  else
    []

namespace Service

/-- The query's signal together with the time limit of the settings. -/
def signal (service : Service) (stopwatch : Stopwatch) (given : Signal) : Signal :=
  match service.settings.timeout with
  | none => given
  | some seconds => given.either (stopwatch.limit seconds)

/-- The call paths to a method, with the log lines of the query. -/
def pathsTo (service : Service) (stopwatch : Stopwatch) (given : Value) (depth : Option Int)
    (signal : Signal) : Except QueryError (PathsTo × List LogLine) := do
  let (name, depth) ← service.checkedMethod given depth
  let cap := service.settings.maxPaths.map fun most => (most.1 : Int)
  let result ← (service.index.pathsTo name depth cap (service.signal stopwatch signal)).mapError
    QueryError.depth
  return (result, result.log depth ++ result.partialLog)

/-- The methods within reach of a method, with the log lines of the query. -/
def reach (service : Service) (stopwatch : Stopwatch) (given : Value) (depth : Option Int)
    (signal : Signal) : Except QueryError (Reach × List LogLine) := do
  let (name, depth) ← service.checkedMethod given depth
  let result ← (service.index.reach name depth (service.signal stopwatch signal)).mapError
    QueryError.depth
  return (result, result.log)

end Service

end CallGraph
