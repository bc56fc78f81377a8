/-
**A shortest call path between two methods.**

`Index.link` walks forwards from a source, breadth first, and keeps whole routes. A method is marked
when it is put in line, so each is put in line once, by the first shortest route that meets it; the
walk ends as soon as the target is among the callees of a route's tip.
-/

import CallGraph.Walk.PathsTo

namespace CallGraph

/-- The path found between two methods, empty when there is none. -/
structure Link where
  path : List String
  /-- How often the signal was polled. -/
  polls : Nat

namespace Link

/-- The neighbours of a method that are not marked. -/
def unmarked (next : String → List String) (marked : List String) (name : String) : List String :=
  (next name).filter fun neighbour => !marked.contains neighbour

theorem unmarked_sublist (next : String → List String) (marked : List String) (name : String) :
    (unmarked next marked name).Sublist (next name) :=
  List.filter_sublist

/-- The walk over a line of routes. -/
def search (next : String → List String) (maxDepth : Nat) (target : String) (signal : Signal)
    (line : List Route) (marked : List String) (polls : Nat) : Link :=
  match line with
  | [] => ⟨[], polls⟩
  | route :: rest =>
    if signal polls then
      ⟨[], polls + 1⟩
    else if maxDepth ≤ route.hops then
      search next maxDepth target signal rest marked (polls + 1)
    else if (next route.tip).contains target then
      ⟨(route.extend target).nodes.reverse, polls + 1⟩
    else
      let fresh := unmarked next marked route.tip
      search next maxDepth target signal (rest ++ fresh.map route.extend) (marked ++ fresh)
        (polls + 1)
termination_by Frontier.load next maxDepth (line.map Route.entry)
decreasing_by
  · have positive := Frontier.walkCount_pos next (maxDepth - route.hops) route.tip
    simp only [List.map_cons, Frontier.load_cons, Route.entry]
    omega
  · rename_i notCut _
    have lighter := Frontier.load_neighbours_lt next maxDepth
      (unmarked_sublist next marked route.tip) (Nat.lt_of_not_le notCut)
    simp only [List.map_append, Route.map_entry_extend, Frontier.load_append, List.map_cons,
      Frontier.load_cons, Route.entry]
    omega

end Link

/-- A shortest call path of at most `maxDepth` calls from a source to a target. -/
def Index.link (index : Index) (source target : String) (maxDepth : Int) (signal : Signal) :
    Except DepthError Link := do
  let depth ← checkDepth maxDepth
  if !(index.hasMethod source && index.hasMethod target) then
    return ⟨[], 0⟩
  else if source = target then
    return ⟨[source], 0⟩
  else
    return Link.search index.calleeNames depth target signal [.start source] [source] 0

/-- Whether a target can be reached from a source by at most `maxDepth` calls. -/
def Index.hasLink (index : Index) (source target : String) (maxDepth : Int) :
    Except DepthError Bool :=
  (index.link source target maxDepth .never).map fun link => !link.path.isEmpty

end CallGraph
