/-
**What more depth does to the backward walk.**

A walk with more depth goes on where one with less is cut short, and nowhere else. A path that is
not cut short is reported by both, if the lesser depth is enough for it, and the branches between
are in the same order, so the complete paths of the lesser depth are those of the greater one that
are short enough (`PathsTo.filter_visit`). A walk that cuts nothing short is the walk at every
greater depth (`PathsTo.visit_of_uncut`). A path that is cut short has the full depth
(`PathsTo.hops_of_truncated`) and meets no method twice, so the number of methods bounds the depth
at which a path can be cut short (`Index.Built.hops_lt_methods`).

* `pathsTo_deepens`: the walks to a known target at two depths.
-/

import CallGraph.Proofs.Walk.Enumeration

namespace CallGraph

namespace PathsTo

variable {next : String → List String} {maxDepth shallow deep : Nat} {route : Route}
  {path : CallPath}

/-! ### The three ways of a visit -/

theorem visit_of_stuck (stuck : next route.tip = []) :
    visit next maxDepth route = [⟨route.nodes, false⟩] := by
  rw [visit, if_pos stuck]

theorem visit_of_cut (leads : next route.tip ≠ []) (cut : maxDepth ≤ route.hops) :
    visit next maxDepth route = [⟨route.nodes, true⟩] := by
  rw [visit, if_neg leads, if_pos cut]

theorem visit_of_open (leads : next route.tip ≠ []) (uncut : route.hops < maxDepth) :
    visit next maxDepth route =
      ((next route.tip).filter fun name => name ∉ route.nodes).flatMap fun name =>
        visit next maxDepth (route.extend name) := by
  rw [visit, if_neg leads, if_neg (Nat.not_le.mpr uncut)]

/-- No path has fewer calls than the route it goes on from. -/
theorem hops_le_of_mem_visit (listed : path ∈ visit next maxDepth route) :
    route.hops ≤ path.hops := by
  have longer : route.trail.length + 1 ≤ path.nodes.length := (suffix_of_mem_visit listed).length_le
  rw [Route.hops, CallPath.hops]
  omega

/-- A complete path goes on wherever something leads on. -/
theorem hops_lt_of_complete (leads : next route.tip ≠ [])
    (listed : path ∈ visit next maxDepth route) (whole : path.truncated = false) :
    route.hops < path.hops := by
  by_cases cut : maxDepth ≤ route.hops
  · rw [visit_of_cut leads cut, List.mem_singleton] at listed
    subst listed
    cases whole
  · rw [visit_of_open leads (Nat.not_le.mp cut)] at listed
    obtain ⟨name, -, below⟩ := List.mem_flatMap.mp listed
    exact hops_le_of_mem_visit below

/-! ### Two depths -/

/-- **The complete paths of a lesser depth** are those of a greater one with few enough calls. -/
theorem filter_visit (within : route.hops ≤ shallow) (more : shallow ≤ deep) :
    (visit next shallow route).filter (fun path => !path.truncated) =
      ((visit next deep route).filter fun path => !path.truncated).filter fun path =>
        path.hops ≤ shallow := by
  fun_induction visit next shallow route with
  | case1 route stuck =>
    have short : (⟨route.nodes, false⟩ : CallPath).hops ≤ shallow := within
    rw [visit_of_stuck stuck]
    simp [short]
  | case2 route leads cut =>
    -- nothing is complete here yet, and what the greater depth completes has too many calls
    symm
    rw [List.filter_filter, List.filter_cons_of_neg (by simp), List.filter_nil,
      List.filter_eq_nil_iff]
    intro path listed
    rw [Bool.and_eq_true, decide_eq_true_iff, Bool.not_eq_true']
    rintro ⟨short, whole⟩
    have longer := hops_lt_of_complete leads listed whole
    omega
  | case3 route leads uncut ih =>
    rw [visit_of_open leads (by omega), List.filter_flatMap, List.filter_flatMap,
      List.filter_flatMap]
    exact List.flatMap_congr fun name _ => ih name (Nat.not_le.mp uncut)

/-- **A walk that cuts nothing short** is the walk at every greater depth. -/
theorem visit_of_uncut (uncut : ∀ path ∈ visit next shallow route, path.truncated = false)
    (more : shallow ≤ deep) : visit next deep route = visit next shallow route := by
  fun_induction visit next shallow route with
  | case1 route stuck => exact visit_of_stuck stuck
  | case2 route leads cut => cases uncut _ List.mem_cons_self
  | case3 route leads inside ih =>
    rw [visit_of_open leads (by omega)]
    refine List.flatMap_congr fun name goesOn => ih name fun path listed => ?_
    exact uncut path (List.mem_flatMap.mpr ⟨name, goesOn, listed⟩)

/-! ### Paths that are cut short -/

theorem mem_visit_iff (trail : IsTrail next route.nodes) :
    path ∈ visit next maxDepth route ↔ Due next (maxDepth - route.hops) route path := by
  rw [← filterMap_tour, List.mem_filterMap]
  simp only [id_eq, exists_eq_right, mem_tour trail]

/-- A path that is cut short is a trail of the full depth. -/
theorem hops_of_truncated {target : String} (listed : path ∈ visit next maxDepth (.start target))
    (cut : path.truncated = true) :
    path.hops = maxDepth ∧ IsTrail next path.nodes ∧ path.nodes.getLast? = some target := by
  obtain ⟨added, last, nodes, is, trail, stops⟩ := (mem_visit_iff (.start next target)).mp listed
  rw [cut] at stops
  refine ⟨?_, nodes ▸ trail, ?_⟩
  · rw [CallPath.hops, nodes]
    exact (Route.hops_of_nodes_eq is).trans stops.1
  · rw [nodes, is]
    exact List.getLast?_concat

/-- **One call more changes the paths exactly when some are cut short.** -/
theorem visit_succ_eq_iff {target : String} :
    visit next (maxDepth + 1) (.start target) = visit next maxDepth (.start target) ↔
      ∀ path ∈ visit next maxDepth (.start target), path.truncated = false := by
  constructor
  · intro same path listed
    rw [← Bool.not_eq_true]
    intro cut
    have full := (hops_of_truncated listed cut).1
    have fuller := (hops_of_truncated (same ▸ listed) cut).1
    omega
  · exact fun uncut => visit_of_uncut uncut (Nat.le_succ maxDepth)

end PathsTo

/-- The methods on a trail of callers of a known method are known, so there are more of them than
calls on the trail. -/
theorem Index.Built.hops_lt_methods {index : Index} (built : index.Built) {target : String}
    (known : index.hasMethod target = true) {path : CallPath}
    (trail : IsTrail index.callerNames path.nodes) (ends : path.nodes.getLast? = some target) :
    path.hops < index.stats.methods := by
  have allKnown : ∀ name ∈ path.nodes, index.hasMethod name = true := by
    refine trail.linked.backwards_induction _ _ (fun caller callee calls _ => ?_) fun some => ?_
    · exact (built.hasMethod_of_mem ((built.mem_calleeNames_iff caller callee).mpr calls)).1
    · rw [List.getLast?_eq_some_getLast some] at ends
      rw [Option.some.inj ends]
      exact known
  have listed : path.nodes ⊆ index.methods.keys := fun name onPath =>
    (index.methods.has_iff_mem_keys name).mp (allKnown name onPath)
  have most : path.nodes.length ≤ index.methods.keys.length :=
    (List.subperm_of_subset trail.simple listed).length_le
  have nonempty : path.nodes ≠ [] := by
    intro empty
    rw [empty] at ends
    cases ends
  have positive := List.length_pos_iff.mpr nonempty
  have size : index.stats.methods = index.methods.keys.length := index.methods.size_eq_length_keys
  rw [CallPath.hops, size]
  omega

/-! ### The walk over an index -/

variable {index : Index} {target : String} {shallow deep : Int}

/-- The paths to a known target, and when the walk says that some are cut short. -/
theorem Index.exists_visit (known : index.hasMethod target = true) {depth : Int}
    (least : 1 ≤ depth) :
    ∃ found, index.pathsTo target depth none .never = .ok found ∧
      found.paths = PathsTo.visit index.callerNames depth.toNat (.start target) ∧
      (found.depthReached = false ↔ ∀ path ∈ found.paths, path.truncated = false) := by
  refine ⟨_, index.pathsTo_of_known known least none .never, PathsTo.paths_search_start target, ?_⟩
  rw [PathsTo.search_never]
  simp only [PathsTo.paths, List.any_eq_false, Bool.not_eq_true]

/-- **More depth.** At every depth the complete paths to a known target are, in order, those of any
greater depth that have no more calls. The walk says that no path was cut short exactly when one
call more gives the same paths with the same marks, and then every greater depth gives them. No path
is cut short once the depth is the number of methods. -/
theorem pathsTo_deepens (built : index.Built) (known : index.hasMethod target = true)
    (least : 1 ≤ shallow) (more : shallow ≤ deep) :
    ∃ near further far,
      index.pathsTo target shallow none .never = .ok near ∧
      index.pathsTo target (shallow + 1) none .never = .ok further ∧
      index.pathsTo target deep none .never = .ok far ∧
      near.completePaths = far.completePaths.filter (fun path => path.hops ≤ shallow) ∧
      (near.depthReached = false ↔ further.paths = near.paths) ∧
      (near.depthReached = false → far.paths = near.paths) ∧
      (index.stats.methods ≤ shallow → near.depthReached = false) := by
  obtain ⟨near, walked, paths, uncut⟩ := index.exists_visit known least
  obtain ⟨further, walkedFurther, furtherPaths, -⟩ :=
    index.exists_visit known (by omega : 1 ≤ shallow + 1)
  obtain ⟨far, walkedFar, farPaths, -⟩ := index.exists_visit known (by omega : 1 ≤ deep)
  refine ⟨near, further, far, walked, walkedFurther, walkedFar, ?_, ?_, fun none => ?_,
    fun many => ?_⟩
  · have short : ∀ path : CallPath, (path.hops : Int) ≤ shallow ↔ path.hops ≤ shallow.toNat := by
      intro path
      omega
    rw [PathsTo.completePaths, PathsTo.completePaths, paths, farPaths,
      PathsTo.filter_visit (Nat.zero_le _) (by omega : shallow.toNat ≤ deep.toNat)]
    simp only [short]
  · have oneMore : (shallow + 1).toNat = shallow.toNat + 1 := by omega
    rw [uncut, furtherPaths, paths, oneMore, PathsTo.visit_succ_eq_iff]
  · rw [farPaths, paths]
    exact PathsTo.visit_of_uncut (paths ▸ uncut.mp none) (by omega)
  · rw [uncut, paths]
    intro path listed
    rw [← Bool.not_eq_true]
    intro cut
    obtain ⟨full, trail, ends⟩ := PathsTo.hops_of_truncated listed cut
    have fewer := built.hops_lt_methods known trail ends
    omega

theorem stockIndex_deepens :
    stockIndex.Built ∧ stockIndex.hasMethod "Shop.Stock.Take" = true ∧
      stockIndex.stats.methods = 5 ∧
      ∃ near further far,
        stockIndex.pathsTo "Shop.Stock.Take" 5 none .never = .ok near ∧
        stockIndex.pathsTo "Shop.Stock.Take" 6 none .never = .ok further ∧
        stockIndex.pathsTo "Shop.Stock.Take" 9 none .never = .ok far ∧
        near.completePaths = far.completePaths.filter (fun path => path.hops ≤ (5 : Int)) ∧
        near.depthReached = false ∧ further.paths = near.paths ∧ far.paths = near.paths := by
  have built : stockIndex.Built := .of_ofEdges stockIndex_eq
  have known : stockIndex.hasMethod "Shop.Stock.Take" = true := by decide
  have methods : stockIndex.stats.methods = 5 := by decide
  obtain ⟨near, further, far, walked, walkedFurther, walkedFar, complete, same, all, bound⟩ :=
    pathsTo_deepens built known (by decide : (1 : Int) ≤ 5) (by decide : (5 : Int) ≤ 9)
  have uncut : near.depthReached = false := bound (by rw [methods]; decide)
  exact ⟨built, known, methods, near, further, far, walked, walkedFurther, walkedFar, complete,
    uncut, same.mp uncut, all uncut⟩

end CallGraph
