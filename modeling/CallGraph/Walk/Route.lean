/-
**Routes**: the methods met on the way to a method, the latest one first.
-/

import CallGraph.Walk.Frontier

namespace CallGraph

/-- A way through the graph. -/
structure Route where
  /-- The method reached. -/
  tip : String
  /-- The methods before it, the latest first. -/
  trail : List String
  deriving DecidableEq

namespace Route

/-- The route that has not left its start. -/
def start (name : String) : Route := ⟨name, []⟩

/-- The methods on the route, the latest first. -/
def nodes (route : Route) : List String := route.tip :: route.trail

/-- The number of calls on the route. -/
def hops (route : Route) : Nat := route.trail.length

/-- The route with one more call. -/
def extend (route : Route) (name : String) : Route := ⟨name, route.nodes⟩

/-- The tip with its depth. -/
def entry (route : Route) : String × Nat := (route.tip, route.hops)

theorem entry_extend (route : Route) (name : String) :
    (route.extend name).entry = (name, route.hops + 1) := rfl

theorem map_entry_extend (route : Route) (names : List String) :
    (names.map route.extend).map entry = names.map fun name => (name, route.hops + 1) := by
  simp [entry_extend]

end Route

end CallGraph
