/-
**The three walks agree.**

Each walk over a built index is described by distances along calls: the methods within reach and
their depths (`Index.exists_reach`), a shortest path (`Index.exists_link`), and all ways back to a
method without callers (`Index.exists_pathsTo`). The last walk goes against the calls; that the two
directions agree turns a complete path into a walk of calls (`Index.Complete.steps`) and a shortest
way into a complete path (`Route.Shortest.complete`).

* `walks_agree`: the three walks give the same answers about any two methods.
-/

import CallGraph.Proofs.Adjacency
import CallGraph.Proofs.Snapshot
import CallGraph.Proofs.Walk.Link
import CallGraph.Proofs.Walk.PathsTo
import CallGraph.Proofs.Walk.Reach

namespace CallGraph

variable {index : Index} {depth : Int}

/-! ### What each walk answers -/

/-- A known method reaches another by at most so many calls. -/
def Index.Reaches (index : Index) (calls : Nat) (source target : String) : Prop :=
  index.hasMethod source = true ∧ ∃ n, n ≤ calls ∧ Steps index.calleeNames n source target

theorem checkDepth_of_pos (deep : 1 ≤ depth) : checkDepth depth = .ok depth.toNat :=
  if_neg (by omega)

/-- To a known target the walk is its loop; so are the walks from a known start, and between two
known methods. -/
theorem Index.pathsTo_of_known {target : String} (known : index.hasMethod target = true)
    (deep : 1 ≤ depth) (cap : Option Int) (signal : Signal) :
    index.pathsTo target depth cap signal =
      .ok (PathsTo.search index.callerNames depth.toNat cap signal [.start target]
        (.start target)) := by
  rw [Index.pathsTo, checkDepth_of_pos deep]
  exact if_pos known

theorem Index.reach_of_known {start : String} (known : index.hasMethod start = true)
    (deep : 1 ≤ depth) (signal : Signal) :
    index.reach start depth signal =
      .ok (Reach.search index.calleeNames depth.toNat signal [(start, 0)] (.initial start)) := by
  rw [Index.reach, checkDepth_of_pos deep]
  exact if_pos known

theorem Index.link_of_known {source target : String} (sourceKnown : index.hasMethod source = true)
    (targetKnown : index.hasMethod target = true) (differ : source ≠ target) (deep : 1 ≤ depth)
    (signal : Signal) :
    index.link source target depth signal =
      .ok (Link.search index.calleeNames depth.toNat target signal [.start source] [source] 0) := by
  rw [Index.link, checkDepth_of_pos deep]
  have both : ¬ (!(index.hasMethod source && index.hasMethod target)) = true := by
    simp [sourceKnown, targetKnown]
  exact (if_neg both).trans (if_neg differ)

/-- At a depth of at least 1 every walk has an answer, also over unknown names. -/
theorem Index.exists_pathsTo_eq (index : Index) (target : String) (deep : 1 ≤ depth)
    (cap : Option Int) (signal : Signal) :
    ∃ found, index.pathsTo target depth cap signal = .ok found := by
  rw [Index.pathsTo, checkDepth_of_pos deep]
  by_cases known : index.hasMethod target = true
  · exact ⟨_, if_pos known⟩
  · exact ⟨_, if_neg known⟩

theorem Index.exists_reach_eq (index : Index) (start : String) (deep : 1 ≤ depth)
    (signal : Signal) : ∃ found, index.reach start depth signal = .ok found := by
  rw [Index.reach, checkDepth_of_pos deep]
  by_cases known : index.hasMethod start = true
  · exact ⟨_, if_pos known⟩
  · exact ⟨_, if_neg known⟩

theorem Index.exists_link_eq (index : Index) (source target : String) (deep : 1 ≤ depth)
    (signal : Signal) : ∃ found, index.link source target depth signal = .ok found := by
  rw [Index.link, checkDepth_of_pos deep]
  by_cases missing : (!(index.hasMethod source && index.hasMethod target)) = true
  · exact ⟨_, if_pos missing⟩
  · by_cases same : source = target
    · exact ⟨_, (if_neg missing).trans (if_pos same)⟩
    · exact ⟨_, (if_neg missing).trans (if_neg same)⟩

/-- The methods visited, each at its distance. -/
theorem Index.exists_visits (index : Index) (start : String) (deep : 1 ≤ depth) :
    ∃ reach, index.reach start depth .never = .ok reach ∧
      ∀ name hops, (name, hops) ∈ reach.visits.toList ↔
        index.hasMethod start = true ∧ hops ≤ depth.toNat ∧
          Nearest index.calleeNames hops start name := by
  by_cases known : index.hasMethod start = true
  · refine ⟨_, index.reach_of_known known deep .never, fun name hops => ?_⟩
    rw [Reach.visits_search, mem_timedBall_iff]
    exact (and_iff_right known).symm
  · rw [Index.reach, checkDepth_of_pos deep]
    refine ⟨_, if_neg known, fun name hops => ?_⟩
    exact ⟨fun listed => (List.not_mem_nil listed).elim, fun reached => (known reached.1).elim⟩

/-- The methods within reach, and their depths. -/
theorem Index.exists_reach (index : Index) (start : String) (deep : 1 ≤ depth) :
    ∃ reach, index.reach start depth .never = .ok reach ∧
      (∀ name, name ∈ reach.reachable ↔ index.Reaches depth.toNat start name) ∧
      ∀ name hops, reach.depthOf? name = some hops ↔
        index.hasMethod start = true ∧ hops ≤ depth.toNat ∧
          Nearest index.calleeNames hops start name := by
  obtain ⟨reach, reached, visits⟩ := index.exists_visits start deep
  refine ⟨reach, reached, fun name => ?_, fun name hops => ?_⟩
  · rw [Reach.mem_reachable_iff, Reach.order, List.mem_map]
    constructor
    · rintro ⟨⟨name, hops⟩, listed, rfl⟩
      obtain ⟨known, most, near⟩ := (visits name hops).mp listed
      exact ⟨known, hops, most, near.steps⟩
    · rintro ⟨known, calls, most, walk⟩
      obtain ⟨hops, fewer, near⟩ := walk.exists_nearest
      exact ⟨(name, hops), (visits name hops).mpr ⟨known, by omega, near⟩, rfl⟩
  · rw [Reach.depthOf?_eq_some_iff, visits]
    intro first second
    rw [visits, visits]
    exact fun near other => near.2.2.unique other.2.2

/-- Only known methods are reached. -/
theorem Index.Reaches.hasMethod {calls : Nat} {source target : String} (built : index.Built)
    (reaches : index.Reaches calls source target) : index.hasMethod target = true := by
  obtain ⟨known, n, -, walk⟩ := reaches
  cases walk with
  | refl => exact known
  | step _ leads => exact (built.hasMethod_of_mem leads).2

/-- A shortest path, where there is one. -/
theorem Index.exists_link (built : index.Built) (source target : String) (deep : 1 ≤ depth) :
    ∃ link, index.link source target depth .never = .ok link ∧
      ((¬ index.Reaches depth.toNat source target ∧ link.path = []) ∨
        (index.Reaches depth.toNat source target ∧
          ∃ route : Route, route.Shortest index.calleeNames source ∧ route.tip = target ∧
            route.hops ≤ depth.toNat ∧ link.path = route.nodes.reverse)) := by
  by_cases known : index.hasMethod source = true ∧ index.hasMethod target = true
  · by_cases same : source = target
    · subst same
      have both : ¬ (!(index.hasMethod source && index.hasMethod source)) = true := by simp [known]
      rw [Index.link, checkDepth_of_pos deep]
      refine ⟨⟨[source], 0⟩, (if_neg both).trans (if_pos rfl), Or.inr ⟨⟨known.1, 0, ?_⟩, ?_⟩⟩
      · exact ⟨Nat.zero_le _, .refl source⟩
      · exact ⟨.start source, .start _ source, rfl, Nat.zero_le _, rfl⟩
    · refine ⟨_, index.link_of_known known.1 known.2 same deep .never, ?_⟩
      rcases Link.search_cases index.nodup_calleeNames depth.toNat same with
        ⟨away, none⟩ | ⟨route, shortest, tip, short, path⟩
      · exact Or.inl ⟨fun reaches => away (mem_ball_iff.mpr reaches.2), none⟩
      · refine Or.inr ⟨⟨known.1, route.hops, short, ?_⟩, route, shortest, tip, short, path⟩
        exact tip ▸ shortest.near.steps
  · have missing : (!(index.hasMethod source && index.hasMethod target)) = true := by
      rw [Bool.not_eq_true', ← Bool.not_eq_true, Bool.and_eq_true]
      exact known
    rw [Index.link, checkDepth_of_pos deep]
    refine ⟨⟨[], 0⟩, if_pos missing, Or.inl ⟨fun reaches => ?_, rfl⟩⟩
    exact known ⟨reaches.1, reaches.hasMethod built⟩

/-- A complete path to a known method: a trail of callers, of at most so many calls, from a method
without callers. -/
def Index.Complete (index : Index) (calls : Nat) (target : String) (path : CallPath) : Prop :=
  index.hasMethod target = true ∧ path.truncated = false ∧
    ∃ first : Route, path.nodes = first.nodes ∧ IsTrail index.callerNames first.nodes ∧
      first.nodes.getLast? = some target ∧ first.hops ≤ calls ∧ index.callerNames first.tip = []

theorem Route.hops_of_nodes_eq {route : Route} {before : List String} {last : String}
    (is : route.nodes = before ++ [last]) : route.hops = before.length := by
  have length := congrArg List.length is
  rw [List.length_append, List.length_singleton] at length
  exact Nat.succ.inj length

/-- All paths, and what is said of the walk. -/
theorem Index.exists_paths (index : Index) (target : String) (deep : 1 ≤ depth) :
    ∃ found, index.pathsTo target depth none .never = .ok found ∧
      (∀ path, path ∈ found.paths ↔ index.hasMethod target = true ∧
        PathsTo.Due index.callerNames depth.toNat (.start target) path) ∧
      found.depthReached = found.paths.any CallPath.truncated ∧
      found.limitReached = false ∧ found.cancelled = false := by
  by_cases known : index.hasMethod target = true
  · refine ⟨_, index.pathsTo_of_known known deep none .never, ?_⟩
    rw [PathsTo.search_never]
    refine ⟨fun path => ?_, rfl, rfl, rfl⟩
    rw [PathsTo.paths, and_iff_right known, List.mem_filterMap]
    simp only [id_eq, exists_eq_right, PathsTo.mem_tour (.start _ target)]
  · rw [Index.pathsTo, checkDepth_of_pos deep]
    refine ⟨_, if_neg known, fun path => ?_, rfl, rfl, rfl⟩
    exact ⟨fun listed => (List.not_mem_nil listed).elim, fun due => (known due.1).elim⟩

/-- All complete paths. -/
theorem Index.exists_pathsTo (index : Index) (target : String) (deep : 1 ≤ depth) :
    ∃ found, index.pathsTo target depth none .never = .ok found ∧
      ∀ path, path ∈ found.completePaths ↔ index.Complete depth.toNat target path := by
  obtain ⟨found, walked, mem_paths, -⟩ := index.exists_paths target deep
  refine ⟨found, walked, fun path => ?_⟩
  rw [PathsTo.completePaths, List.mem_filter, mem_paths, and_assoc, Index.Complete,
    Bool.not_eq_true', and_comm (b := path.truncated = false)]
  refine and_congr_right fun _ => and_congr_right fun whole => ?_
  simp only [PathsTo.Due, whole]
  constructor
  · rintro ⟨added, first, nodes, is, trail, most, ends⟩
    refine ⟨first, nodes, trail, ?_, Route.hops_of_nodes_eq is ▸ most, ends⟩
    rw [is]
    exact List.getLast?_concat
  · rintro ⟨first, nodes, trail, last, most, ends⟩
    obtain ⟨added, is⟩ := List.getLast?_eq_some_iff.mp last
    exact ⟨added, first, nodes, is, trail, Route.hops_of_nodes_eq is ▸ most, ends⟩

/-! ### From one direction to the other -/

/-- A trail of callers is a walk of calls to its last method. -/
theorem steps_of_trail (built : index.Built) {first : Route} {target : String}
    (trail : IsTrail index.callerNames first.nodes) (last : first.nodes.getLast? = some target) :
    Steps index.calleeNames first.hops first.tip target := by
  obtain ⟨tip, rest⟩ := first
  induction rest generalizing tip with
  | nil =>
    obtain rfl := Option.some.inj last
    exact .refl tip
  | cons callee rest ih =>
    obtain ⟨called, linked⟩ := List.isChain_cons_cons.mp trail.linked
    refine .cons ((built.mem_calleeNames_iff tip callee).mpr called) (ih callee ⟨linked, ?_⟩ ?_)
    · exact (List.nodup_cons.mp trail.simple).2
    · exact List.getLast?_cons_cons.symm.trans last

theorem Steps.hasMethod_first (built : index.Built) {hops : Nat} {source target : String}
    (walk : Steps index.calleeNames hops source target) (known : index.hasMethod target = true) :
    index.hasMethod source = true := by
  induction walk with
  | refl => exact known
  | step _ leads ih => exact ih (built.hasMethod_of_mem leads).1

/-- A complete path starts at an entry point and is a walk of calls. -/
theorem Index.Complete.steps (built : index.Built) {calls : Nat} {source target : String}
    {path : CallPath} (complete : index.Complete calls target path)
    (starts : path.nodes.head? = some source) :
    source ∈ index.entryPoints ∧ path.hops ≤ calls ∧
      Steps index.calleeNames path.hops source target := by
  obtain ⟨known, -, first, nodes, trail, last, most, ends⟩ := complete
  have tip : first.tip = source := by
    rw [nodes] at starts
    exact Option.some.inj starts
  have hops : path.hops = first.hops := by
    rw [CallPath.hops, nodes]
    rfl
  have walk := steps_of_trail built trail last
  rw [tip] at walk ends
  rw [hops, built.mem_entryPoints_iff]
  exact ⟨⟨walk.hasMethod_first built known, ends⟩, most, walk⟩

/-- A shortest way from an entry point, read from there on, is a complete path. -/
theorem Route.Shortest.complete (built : index.Built) {calls : Nat} {source : String}
    {route : Route} (shortest : route.Shortest index.calleeNames source)
    (entry : source ∈ index.entryPoints) (short : route.hops ≤ calls) :
    index.Complete calls route.tip ⟨route.nodes.reverse, false⟩ := by
  obtain ⟨known, ends⟩ := (built.mem_entryPoints_iff source).mp entry
  obtain ⟨before, is⟩ := List.getLast?_eq_some_iff.mp shortest.starts
  have nodes : route.nodes.reverse = source :: before.reverse := by
    rw [is, List.reverse_append]
    rfl
  have reaches : index.Reaches route.hops source route.tip :=
    ⟨known, route.hops, Nat.le_refl _, shortest.near.steps⟩
  refine ⟨reaches.hasMethod built, rfl, ⟨source, before.reverse⟩, nodes, ?_, ?_, ?_, ends⟩
  · show IsTrail index.callerNames (source :: before.reverse)
    rw [← nodes]
    refine ⟨List.isChain_reverse.mpr ?_, List.nodup_reverse.mpr shortest.simple⟩
    exact shortest.linked.imp fun late early leads =>
      (built.mem_calleeNames_iff early late).mp leads
  · show (source :: before.reverse).getLast? = some route.tip
    rw [← nodes, List.getLast?_reverse]
    rfl
  · show before.reverse.length ≤ calls
    rw [List.length_reverse, ← Route.hops_of_nodes_eq is]
    exact short

/-! ### Agreement -/

/-- **The three walks agree** about a source and a target, at every depth. There is a path exactly
when the target is within reach, and then it has as many calls as the target's depth. Among the
complete paths to the target some start at the source exactly when the source is an entry point that
reaches the target, and then the path between the two is one of them and none is shorter. -/
theorem walks_agree (built : index.Built) (deep : 1 ≤ depth) (source target : String) :
    ∃ linked reach link found,
      index.hasLink source target depth = .ok linked ∧
      index.reach source depth .never = .ok reach ∧
      index.link source target depth .never = .ok link ∧
      index.pathsTo target depth none .never = .ok found ∧
      (linked = true ↔ target ∈ reach.reachable) ∧
      (linked = true →
        ∃ hops, reach.depthOf? target = some hops ∧ link.path.length = hops + 1) ∧
      ((∃ path ∈ found.completePaths, path.nodes.head? = some source) ↔
        source ∈ index.entryPoints ∧ target ∈ reach.reachable) ∧
      (source ∈ index.entryPoints → target ∈ reach.reachable →
        ⟨link.path, false⟩ ∈ found.completePaths ∧
          ∀ path ∈ found.completePaths, path.nodes.head? = some source →
            link.path.length - 1 ≤ path.hops) := by
  obtain ⟨reach, reached, mem_reachable, depths⟩ := index.exists_reach source deep
  obtain ⟨link, joined, answer⟩ := Index.exists_link built source target deep
  obtain ⟨found, walked, mem_completePaths⟩ := index.exists_pathsTo target deep
  have linked : index.hasLink source target depth = .ok (!link.path.isEmpty) := by
    rw [Index.hasLink, joined]
    rfl
  refine ⟨_, reach, link, found, linked, reached, joined, walked, ?_⟩
  simp only [mem_reachable, mem_completePaths]
  have enters : ∀ path, index.Complete depth.toNat target path → path.nodes.head? = some source →
      source ∈ index.entryPoints ∧ index.Reaches depth.toNat source target := by
    intro path complete starts
    obtain ⟨entry, most, walk⟩ := complete.steps built starts
    exact ⟨entry, ((built.mem_entryPoints_iff source).mp entry).1, path.hops, most, walk⟩
  rcases answer with ⟨away, none⟩ | ⟨reaches, route, shortest, rfl, short, path⟩
  · -- out of reach: no path, and no complete path from the source
    rw [none]
    refine ⟨⟨fun wrong => ?_, fun reaches => (away reaches).elim⟩, fun wrong => ?_, ?_, ?_⟩
    · cases wrong
    · cases wrong
    · constructor
      · rintro ⟨path, complete, starts⟩
        exact enters path complete starts
      · rintro ⟨-, reaches⟩
        exact (away reaches).elim
    · exact fun _ reaches => (away reaches).elim
  · have length : link.path.length = route.hops + 1 := by
      rw [path]
      exact List.length_reverse
    have starts : link.path.head? = some source := by
      rw [path, List.head?_reverse]
      exact shortest.starts
    have complete : source ∈ index.entryPoints →
        index.Complete depth.toNat route.tip ⟨link.path, false⟩ :=
      fun entry => path ▸ shortest.complete built entry short
    refine ⟨iff_of_true ?_ reaches, fun _ => ⟨route.hops, ?_, length⟩, ⟨?_, ?_⟩, ?_⟩
    · rw [path]
      simp [Route.nodes]
    · exact (depths _ _).mpr ⟨reaches.1, short, shortest.near⟩
    · rintro ⟨path, complete, starts⟩
      exact enters path complete starts
    · rintro ⟨entry, -⟩
      exact ⟨_, complete entry, starts⟩
    · intro entry _
      refine ⟨complete entry, fun other whole first => ?_⟩
      obtain ⟨-, -, walk⟩ := whole.steps built first
      have least := shortest.near.least _ walk
      omega

/-! ### A cycle behind an entry point -/

/-- A job that is started, is started again by its retries, and reports. -/
def jobCalls : List Edge :=
  [("App.Main.Run", "App.Job.Start"), ("App.Job.Start", "App.Job.Retry"),
    ("App.Job.Retry", "App.Job.Start"), ("App.Job.Retry", "App.Log.Report")].map fun call =>
      Edge.between call.1 call.2 ⟨Edge.standardFile, Edge.standardLine⟩

def jobIndex : Index := (Builder.fresh.addAll jobCalls).2.snapshot

theorem jobIndex_eq : Index.ofEdges jobCalls = .ok jobIndex := by
  refine (Index.ofEdges_of_typed fun edge listed => ?_).1
  obtain ⟨call, -, rfl⟩ := List.mem_map.mp listed
  exact Edge.typed_between _ _ ⟨_, rfl⟩ (Or.inl ⟨_, rfl⟩)

theorem jobIndex_walks_agree :
    Index.ofEdges jobCalls = .ok jobIndex ∧ jobIndex.Built ∧
      "App.Main.Run" ∈ jobIndex.entryPoints ∧
      ∃ reach link found,
        jobIndex.reach "App.Main.Run" 3 .never = .ok reach ∧
        jobIndex.link "App.Main.Run" "App.Log.Report" 3 .never = .ok link ∧
        jobIndex.pathsTo "App.Log.Report" 3 none .never = .ok found ∧
        reach.depthOf? "App.Log.Report" = some 3 ∧ link.path.length = 4 ∧
        ⟨link.path, false⟩ ∈ found.completePaths := by
  have built : jobIndex.Built := .of_ofEdges jobIndex_eq
  have entry : "App.Main.Run" ∈ jobIndex.entryPoints := by decide
  have near : Nearest jobIndex.calleeNames 3 "App.Main.Run" "App.Log.Report" :=
    mem_sphere_iff.mp (by decide)
  have known := ((built.mem_entryPoints_iff _).mp entry).1
  have deep : (1 : Int) ≤ 3 := by decide
  obtain ⟨linked, reach, link, found, -, reached, joined, walked, isLinked, hops, -, complete⟩ :=
    walks_agree built deep "App.Main.Run" "App.Log.Report"
  obtain ⟨same, reached', mem_reachable, depths⟩ := jobIndex.exists_reach "App.Main.Run" deep
  obtain rfl : reach = same := Except.ok.inj (reached.symm.trans reached')
  have within : "App.Log.Report" ∈ reach.reachable :=
    (mem_reachable _).mpr ⟨known, 3, Nat.le_refl 3, near.steps⟩
  have three : reach.depthOf? "App.Log.Report" = some 3 :=
    (depths _ _).mpr ⟨known, Nat.le_refl 3, near⟩
  obtain ⟨calls, depth, length⟩ := hops (isLinked.mpr within)
  obtain rfl : calls = 3 := Option.some.inj (depth.symm.trans three)
  exact ⟨jobIndex_eq, built, entry, reach, link, found, reached, joined, walked, three, length,
    (complete entry within).1⟩

end CallGraph
