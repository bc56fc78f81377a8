/-
**The methods within reach of a method.**

`Index.reach` walks forwards from a start, breadth first, and notes each method at the depth at
which it is first met. A method is marked when its turn comes and not when it is put in line, so the
line may hold it several times; later turns are polled and passed over.
-/

import CallGraph.Walk.PathsTo

namespace CallGraph

/-- The methods reached from a start. -/
structure Reach where
  start : String
  /-- The methods reached with their depths, in the order of the walk. -/
  visits : Array (String × Nat)
  /-- Whether the signal ended the walk. -/
  cancelled : Bool
  /-- How often the signal was polled. -/
  polls : Nat

namespace Reach

/-- The result before the walk. -/
def initial (start : String) : Reach := ⟨start, #[], false, 0⟩

/-- The methods reached, in the order of the walk. -/
def order (result : Reach) : List String := result.visits.toList.map Prod.fst

/-- The depths at which methods were reached, in order. -/
def depths (result : Reach) : List Nat := (result.visits.toList.map Prod.snd).eraseDups

/-- The methods reached at a depth, in order. -/
def level (result : Reach) (depth : Nat) : List String :=
  (result.visits.toList.filter fun visit => visit.2 = depth).map Prod.fst

/-- The methods grouped by depth. -/
def levels (result : Reach) : List (Nat × List String) :=
  result.depths.map fun depth => (depth, result.level depth)

/-- The methods reached, level by level from the least depth. -/
def reachable (result : Reach) : List String :=
  (result.levels.mergeSort fun first second => first.1 ≤ second.1).flatMap Prod.snd

/-- The depth at which a method was reached. -/
def depthOf? (result : Reach) (name : String) : Option Nat :=
  (result.levels.find? fun level => level.2.contains name).map Prod.fst

/-- Whether the walk covered everything. -/
def isComplete (result : Reach) : Bool := !result.cancelled

/-- Whether a method has been reached. -/
def has (result : Reach) (name : String) : Bool := result.visits.any fun visit => visit.1 = name

/-- Counts a poll. -/
def polled (result : Reach) : Reach := { result with polls := result.polls + 1 }

/-- Notes a method at a depth. -/
def visit (result : Reach) (name : String) (depth : Nat) : Reach :=
  { result with visits := result.visits.push (name, depth) }

/-- The neighbours of a method that have not been reached. -/
def unvisited (next : String → List String) (result : Reach) (name : String) : List String :=
  (next name).filter fun neighbour => !result.has neighbour

theorem unvisited_sublist (next : String → List String) (result : Reach) (name : String) :
    (unvisited next result name).Sublist (next name) :=
  List.filter_sublist

/-- The walk over a line of methods and depths. -/
def search (next : String → List String) (maxDepth : Nat) (signal : Signal)
    (line : List (String × Nat)) (result : Reach) : Reach :=
  match line with
  | [] => result
  | (name, depth) :: rest =>
    if signal result.polls then
      { result.polled with cancelled := true }
    else if result.has name then
      search next maxDepth signal rest result.polled
    else
      let visited := result.polled.visit name depth
      if depth < maxDepth then
        let added := (unvisited next visited name).map fun neighbour => (neighbour, depth + 1)
        search next maxDepth signal (rest ++ added) visited
      else
        search next maxDepth signal rest visited
termination_by Frontier.load next maxDepth line
decreasing_by
  · have positive := Frontier.walkCount_pos next (maxDepth - depth) name
    simp only [Frontier.load_cons]
    omega
  · rename_i within
    have lighter := Frontier.load_neighbours_lt next maxDepth
      (unvisited_sublist next (result.polled.visit name depth) name) within
    simp only [Frontier.load_append, Frontier.load_cons]
    omega
  · have positive := Frontier.walkCount_pos next (maxDepth - depth) name
    simp only [Frontier.load_cons]
    omega

end Reach

/-- The methods within `maxDepth` calls of a start. Nothing is within reach of an unknown one. -/
def Index.reach (index : Index) (start : String) (maxDepth : Int) (signal : Signal) :
    Except DepthError Reach := do
  let depth ← checkDepth maxDepth
  if index.hasMethod start then
    return Reach.search index.calleeNames depth signal [(start, 0)] (.initial start)
  else
    return .initial start

end CallGraph
