/-
**The walk over a stack is the depth-first walk by recursion.**

`PathsTo.visit` is the backward walk as one would say it: report the route where nothing leads on,
report it as cut short where the depth is used up, and otherwise visit the route with each neighbour
that is not on it, one after the other. The loop has no recursion to return to. It puts the grown
routes on top of its stack, so that whatever stands below waits until all of them are finished:
`PathsTo.paths_search` says for any stack that the loop reports what visiting its routes in turn
reports.

* `pathsTo_eq_visit`: from a known target, without a cap or a signal, the paths are those of the
  recursive walk, in the same order.
-/

import CallGraph.Proofs.Walk.Agreement

namespace CallGraph

namespace PathsTo

variable {next : String → List String} {maxDepth : Nat}

/-- **The depth-first walk by recursion.** -/
def visit (next : String → List String) (maxDepth : Nat) (route : Route) : List CallPath :=
  if next route.tip = [] then
    [⟨route.nodes, false⟩]
  else if maxDepth ≤ route.hops then
    [⟨route.nodes, true⟩]
  else
    ((next route.tip).filter fun name => name ∉ route.nodes).flatMap fun name =>
      visit next maxDepth (route.extend name)
termination_by maxDepth - route.hops
decreasing_by
  show maxDepth - (route.hops + 1) < maxDepth - route.hops
  omega

theorem openNeighbours_eq (next : String → List String) (route : Route) :
    openNeighbours next route = (next route.tip).filter fun name => name ∉ route.nodes :=
  List.filter_congr fun name _ => by simp

/-- A tour lists also where the walk goes on; its paths are those of the recursive walk. -/
theorem filterMap_tour (route : Route) :
    (tour next (maxDepth - route.hops) route).filterMap id = visit next maxDepth route := by
  fun_induction visit next maxDepth route with
  | case1 route stuck =>
    have ends : ending next maxDepth route = some false := if_pos (List.isEmpty_iff.mpr stuck)
    rw [tour_of_ending ends]
    rfl
  | case2 route leads cut =>
    have ends : ending next maxDepth route = some true := by simp [ending, leads, cut]
    rw [tour_of_ending ends]
    rfl
  | case3 route leads uncut ih =>
    have goesOn : ending next maxDepth route = none := by simp [ending, leads, uncut]
    rw [tour_of_ending_none goesOn, List.filterMap_cons_none rfl, agenda, List.flatMap_map,
      List.filterMap_flatMap, openNeighbours_eq]
    exact List.flatMap_congr fun name _ => ih name

/-- **Any stack**: the loop reports what visiting its routes in turn reports. -/
theorem paths_search (stack : List Route) (result : PathsTo) :
    (search next maxDepth none .never stack result).paths =
      result.paths ++ stack.flatMap (visit next maxDepth) := by
  have listed : (agenda next maxDepth stack).filterMap id =
      stack.flatMap (visit next maxDepth) := by
    rw [agenda, List.filterMap_flatMap]
    exact List.flatMap_congr fun route _ => filterMap_tour route
  rw [search_eq_replay, replay_never, listed, paths, paths, Array.toList_append]

theorem paths_search_start (target : String) :
    (search next maxDepth none .never [.start target] (.start target)).paths =
      visit next maxDepth (.start target) := by
  rw [paths_search]
  exact List.flatMap_singleton _ _

end PathsTo

variable {index : Index} {target : String} {depth : Int}

/-- **The loop is the recursive walk.** From a known target, at every depth and without a cap or a
signal, the paths found are those that the recursive walk over the callers reports from the target,
each where the recursion reports it. -/
theorem pathsTo_eq_visit (known : index.hasMethod target = true) (deep : 1 ≤ depth) :
    ∃ found, index.pathsTo target depth none .never = .ok found ∧
      found.paths = PathsTo.visit index.callerNames depth.toNat (.start target) :=
  ⟨_, Index.pathsTo_of_known known deep none .never, PathsTo.paths_search_start target⟩

/-! ### Two ways and a cycle -/

/-- An order takes from the stock on two ways, one of them twice; the stock orders again and calls
itself; an audit takes from it directly. -/
def stockCalls : List Edge :=
  [("Web.Cart.Open", "Shop.Order.Place", 4), ("Web.Cart.Open", "Shop.Order.Price", 5),
    ("Shop.Order.Place", "Shop.Stock.Take", 9), ("Shop.Order.Place", "Shop.Stock.Take", 11),
    ("Shop.Order.Price", "Shop.Stock.Take", 20), ("Shop.Stock.Take", "Shop.Order.Place", 31),
    ("Shop.Stock.Take", "Shop.Stock.Take", 32), ("Job.Audit.Run", "Shop.Stock.Take", 3)].map
      fun call => Edge.between call.1 call.2.1 ⟨Edge.standardFile, .int call.2.2⟩

def stockIndex : Index := (Builder.fresh.addAll stockCalls).2.snapshot

theorem stockIndex_eq : Index.ofEdges stockCalls = .ok stockIndex := by
  refine (Index.ofEdges_of_typed fun edge listed => ?_).1
  obtain ⟨call, -, rfl⟩ := List.mem_map.mp listed
  exact Edge.typed_between _ _ ⟨_, rfl⟩ (Or.inl ⟨_, rfl⟩)

theorem stockIndex_pathsTo_take :
    stockIndex.hasMethod "Shop.Stock.Take" = true ∧
      ∃ found, stockIndex.pathsTo "Shop.Stock.Take" 2 none .never = .ok found ∧
        found.paths =
          [⟨["Web.Cart.Open", "Shop.Order.Place", "Shop.Stock.Take"], false⟩,
            ⟨["Web.Cart.Open", "Shop.Order.Price", "Shop.Stock.Take"], false⟩,
            ⟨["Job.Audit.Run", "Shop.Stock.Take"], false⟩] := by
  have known : stockIndex.hasMethod "Shop.Stock.Take" = true := by decide
  have deep : (1 : Int) ≤ 2 := by decide
  obtain ⟨found, walked, same⟩ := pathsTo_eq_visit known deep
  refine ⟨known, found, walked, same.trans ?_⟩
  have take : stockIndex.callerNames "Shop.Stock.Take" =
    ["Shop.Order.Place", "Shop.Order.Price", "Shop.Stock.Take", "Job.Audit.Run"] := by decide
  have place : stockIndex.callerNames "Shop.Order.Place" =
    ["Web.Cart.Open", "Shop.Stock.Take"] := by decide
  have price : stockIndex.callerNames "Shop.Order.Price" = ["Web.Cart.Open"] := by decide
  have openCart : stockIndex.callerNames "Web.Cart.Open" = [] := by decide
  have audit : stockIndex.callerNames "Job.Audit.Run" = [] := by decide
  simp [PathsTo.visit, Route.start, Route.extend, Route.nodes, Route.hops, take, place, price,
    openCart, audit]

end CallGraph
