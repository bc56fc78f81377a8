/-
**The backward walk reports every simple way, each once.**

A way to a target is a list of methods, each calling the next, that ends at the target and meets no
method twice. `PathsTo.Owed` says which ways the walk owes for the calls of some edges: those that
start where no call leads to, and, as truncated, those of the full depth that start where one does.

The recursive walk branches on the neighbours of a route, and all that is reported below one branch
ends in the route of that branch (`PathsTo.suffix_of_mem_visit`). Branches part at different names,
so no list of methods is reported twice (`PathsTo.nodup_visit`).

* `pathsTo_enumerates`: whatever edges an index is made of, the walk to a known target reports
  exactly the ways that are owed, and no list of methods twice.
-/

import CallGraph.Proofs.Calls
import CallGraph.Proofs.Walk.DepthFirst

namespace CallGraph

/-! ### No way twice -/

/-- A way that ends in both of two routes with the same beginning went on to the same name: two ends
of one list that are as long as each other. -/
theorem Route.eq_of_extend_suffix {route : Route} {first second : String} {nodes : List String}
    (ends : (route.extend first).nodes <:+ nodes)
    (endsToo : (route.extend second).nodes <:+ nodes) : first = second := by
  have equal : (route.extend first).nodes = (route.extend second).nodes :=
    (List.suffix_of_suffix_length_le ends endsToo (Nat.le_refl _)).eq_of_length rfl
  exact (List.cons.inj equal).1

namespace PathsTo

variable {next : String → List String} {maxDepth : Nat}

/-- A visit keeps the route that it starts from at the end of all its paths. -/
theorem suffix_of_mem_visit {route : Route} {path : CallPath}
    (listed : path ∈ visit next maxDepth route) : route.nodes <:+ path.nodes := by
  fun_induction visit next maxDepth route with
  | case1 route stuck =>
    obtain rfl := List.mem_singleton.mp listed
    exact List.suffix_refl _
  | case2 route leads cut =>
    obtain rfl := List.mem_singleton.mp listed
    exact List.suffix_refl _
  | case3 route leads uncut ih =>
    obtain ⟨name, -, below⟩ := List.mem_flatMap.mp listed
    exact (List.suffix_cons name route.nodes).trans (ih name below)

/-- Different first steps lead to different paths. -/
theorem disjoint_visit {route : Route} {first second : String} (apart : first ≠ second) :
    ((visit next maxDepth (route.extend first)).map CallPath.nodes).Disjoint
      ((visit next maxDepth (route.extend second)).map CallPath.nodes) := by
  intro nodes here there
  obtain ⟨one, isOne, rfl⟩ := List.mem_map.mp here
  obtain ⟨other, isOther, same⟩ := List.mem_map.mp there
  exact apart (Route.eq_of_extend_suffix (suffix_of_mem_visit isOne)
    (same ▸ suffix_of_mem_visit isOther))

/-- **No list of methods is reported twice.** -/
theorem nodup_visit (once : ∀ name, (next name).Nodup) (route : Route) :
    ((visit next maxDepth route).map CallPath.nodes).Nodup := by
  fun_induction visit next maxDepth route with
  | case1 route stuck => exact List.nodup_singleton _
  | case2 route leads cut => exact List.nodup_singleton _
  | case3 route leads uncut ih =>
    rw [List.map_flatMap, List.nodup_flatMap]
    exact ⟨fun name _ => ih name, ((once route.tip).filter _).imp disjoint_visit⟩

end PathsTo

/-! ### The ways that are owed -/

/-- A simple way to a target: each method on it calls the next, and none is on it twice. -/
structure IsWayTo (calls : String → String → Prop) (target : String) (nodes : List String) :
    Prop where
  linked : nodes.IsChain calls
  simple : nodes.Nodup
  ends : nodes.getLast? = some target

namespace PathsTo

/-- Where a way may be broken off: after at most so many calls at a method that nothing calls, or,
truncated, after exactly so many at a method that something calls. -/
def BreaksOff (calls : String → String → Prop) (depth : Int) (hops : Nat) (first : String) :
    Bool → Prop
  | false => hops ≤ depth ∧ ∀ caller, ¬ calls caller first
  | true => hops = depth ∧ ∃ caller, calls caller first

/-- **The ways owed** at a depth: the simple ways to the target that are broken off where they
start. -/
def Owed (calls : String → String → Prop) (target : String) (depth : Int) (path : CallPath) :
    Prop :=
  IsWayTo calls target path.nodes ∧ ∃ first, path.nodes.head? = some first ∧
    BreaksOff calls depth path.hops first path.truncated

section Owed

variable {next : String → List String} {calls : String → String → Prop} {depth : Int}
  (same : ∀ callee caller, caller ∈ next callee ↔ calls caller callee)
include same

theorem eq_nil_iff_not_calls (name : String) : next name = [] ↔ ∀ caller, ¬ calls caller name := by
  simp only [List.eq_nil_iff_forall_not_mem, same]

theorem stops_iff_breaksOff (deep : 1 ≤ depth) (hops : Nat) (last : Route) (truncated : Bool) :
    Stops next depth.toNat hops last truncated ↔ BreaksOff calls depth hops last.tip truncated := by
  have nowhere := eq_nil_iff_not_calls same last.tip
  cases truncated with
  | false =>
    refine and_congr ?_ nowhere
    omega
  | true =>
    refine and_congr ?_ ?_
    · omega
    · rw [ne_eq, nowhere, not_forall_not]

/-- The due paths of a tour from the target are the ways owed. -/
theorem due_start_iff (deep : 1 ≤ depth) (target : String) (path : CallPath) :
    Due next depth.toNat (.start target) path ↔ Owed calls target depth path := by
  constructor
  · rintro ⟨added, last, nodes, is, trail, stops⟩
    have hops : path.hops = added.length := by
      rw [CallPath.hops, nodes]
      exact Route.hops_of_nodes_eq is
    rw [stops_iff_breaksOff same deep, ← hops] at stops
    refine ⟨⟨?_, ?_, ?_⟩, last.tip, ?_, stops⟩
    · rw [nodes]
      exact trail.linked.imp fun caller callee => (same callee caller).mp
    · rw [nodes]
      exact trail.simple
    · rw [nodes, is]
      exact List.getLast?_concat
    · rw [nodes]
      rfl
  · rintro ⟨⟨linked, simple, ends⟩, first, starts, breaks⟩
    obtain ⟨rest, nodes⟩ := List.head?_eq_some_iff.mp starts
    obtain ⟨added, is⟩ := List.getLast?_eq_some_iff.mp ends
    have hops : path.hops = added.length := by
      rw [CallPath.hops, is, List.length_append]
      rfl
    rw [nodes] at linked simple
    refine ⟨added, ⟨first, rest⟩, nodes, nodes.symm.trans is, ⟨?_, simple⟩, ?_⟩
    · exact linked.imp fun caller callee => (same callee caller).mpr
    · rw [stops_iff_breaksOff same deep, ← hops]
      exact breaks

end Owed

end PathsTo

/-! ### The enumeration -/

variable {index : Index} {edges : List Edge} {target : String} {depth : Int}

theorem Index.nodup_callerNames (index : Index) (name : String) : (index.callerNames name).Nodup :=
  nodup_eraseDups _

theorem Index.mem_callerNames_iff_calls (made : Index.ofEdges edges = .ok index)
    (callee caller : String) :
    caller ∈ index.callerNames callee ↔ Edge.Calls edges caller callee := by
  rw [← (Built.of_ofEdges made).mem_calleeNames_iff, mem_calleeNames_iff_calls, calls_iff made]

/-- **The walk enumerates the simple ways to its target.** Whatever edges an index is made of, and
at every depth, the walk to a known target without a cap or a signal reports exactly the ways that
are owed for the calls of the edges, and no list of methods twice; a way that is not truncated
starts at an entry point. It says that the depth was reached exactly when some way is truncated, and
that neither a limit nor a signal ended it. -/
theorem pathsTo_enumerates (made : Index.ofEdges edges = .ok index)
    (known : index.hasMethod target = true) (deep : 1 ≤ depth) :
    ∃ found, index.pathsTo target depth none .never = .ok found ∧
      (∀ path, path ∈ found.paths ↔ PathsTo.Owed (Edge.Calls edges) target depth path) ∧
      (found.paths.map CallPath.nodes).Nodup ∧
      (∀ path ∈ found.paths, path.truncated = false →
        ∃ first ∈ index.entryPoints, path.nodes.head? = some first) ∧
      (found.depthReached = true ↔ ∃ path ∈ found.paths, path.truncated = true) ∧
      found.limitReached = false ∧ found.cancelled = false := by
  obtain ⟨found, walked, paths, cut, full, stopped⟩ := index.exists_paths target deep
  have calls := index.mem_callerNames_iff_calls made
  have owed : ∀ path, path ∈ found.paths ↔ PathsTo.Owed (Edge.Calls edges) target depth path := by
    intro path
    rw [paths, and_iff_right known, PathsTo.due_start_iff calls deep]
  refine ⟨found, walked, owed, ?_, fun path listed whole => ?_, ?_, full, stopped⟩
  · have loop := index.pathsTo_of_known known deep none .never
    rw [Except.ok.inj (walked.symm.trans loop), PathsTo.paths_search_start]
    exact PathsTo.nodup_visit index.nodup_callerNames _
  · obtain ⟨again, walkedToo, complete⟩ := index.exists_pathsTo target deep
    obtain rfl : found = again := Except.ok.inj (walked.symm.trans walkedToo)
    have isComplete := (complete path).mp (List.mem_filter.mpr ⟨listed, by rw [whole]; rfl⟩)
    obtain ⟨-, first, starts, -⟩ := (owed path).mp listed
    exact ⟨first, (isComplete.steps (.of_ofEdges made) starts).1, starts⟩
  · rw [cut, List.any_eq_true]

theorem stockIndex_ways_to_take :
    Index.ofEdges stockCalls = .ok stockIndex ∧
      stockIndex.hasMethod "Shop.Stock.Take" = true ∧
      ∃ found, stockIndex.pathsTo "Shop.Stock.Take" 1 none .never = .ok found ∧
        ⟨["Shop.Order.Place", "Shop.Stock.Take"], true⟩ ∈ found.paths ∧
        ⟨["Job.Audit.Run", "Shop.Stock.Take"], false⟩ ∈ found.paths ∧
        (found.paths.map CallPath.nodes).Nodup ∧ found.depthReached = true := by
  have known : stockIndex.hasMethod "Shop.Stock.Take" = true := by decide
  have deep : (1 : Int) ≤ 1 := by decide
  obtain ⟨found, walked, owed, once, -, cut, -⟩ := pathsTo_enumerates stockIndex_eq known deep
  have calls := stockIndex.mem_callerNames_iff_calls stockIndex_eq
  have called : ∀ {caller callee}, caller ∈ stockIndex.callerNames callee →
      Edge.Calls stockCalls caller callee := fun listed => (calls _ _).mp listed
  have placed : ⟨["Shop.Order.Place", "Shop.Stock.Take"], true⟩ ∈ found.paths := by
    refine (owed _).mpr ⟨⟨?_, by decide, rfl⟩, _, rfl, rfl, "Web.Cart.Open", called (by decide)⟩
    exact List.isChain_pair.mpr (called (by decide))
  have audited : ⟨["Job.Audit.Run", "Shop.Stock.Take"], false⟩ ∈ found.paths := by
    refine (owed _).mpr ⟨⟨?_, by decide, rfl⟩, _, rfl, by decide, ?_⟩
    · exact List.isChain_pair.mpr (called (by decide))
    · exact (PathsTo.eq_nil_iff_not_calls calls _).mp (by decide)
  exact ⟨stockIndex_eq, known, found, walked, placed, audited, once, cut.mpr ⟨_, placed, rfl⟩⟩

end CallGraph
