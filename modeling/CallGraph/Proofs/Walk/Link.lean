/-
**The walk between two methods finds a shortest path.**

Methods are marked when they are put in line here, so the line holds one route for each method of a
sphere around the source: `Link.wave`. `Link.search_level` takes the walk through the routes of one
length when none of them can go on to the target, `Link.search_found` ends it at the first one that
can. Every route in line is `Route.Shortest`.

* `Link.search_wave`: the walk ends without a path when the target is out of reach, and otherwise
  with the route to it that stands in line when its sphere is reached;
* `Link.search_cases`: that route is a shortest one.
-/

import CallGraph.Walk.Link
import CallGraph.Proofs.Walk.Distance
import Mathlib.Data.List.Chain

namespace CallGraph

/-- A shortest way from a source: each method on it is a neighbour of the one before, none is there
twice, and no walk to its tip is shorter. -/
structure Route.Shortest (next : String → List String) (source : String) (route : Route) :
    Prop where
  linked : route.nodes.IsChain fun late early => late ∈ next early
  starts : route.nodes.getLast? = some source
  simple : route.nodes.Nodup
  inside : ∀ name ∈ route.nodes, name ∈ ball next source route.hops
  near : Nearest next route.hops source route.tip

section Shortest

variable {next : String → List String} {source name : String} {route : Route}

theorem Route.Shortest.start (next : String → List String) (source : String) :
    (Route.start source).Shortest next source where
  linked := List.isChain_singleton source
  starts := rfl
  simple := List.nodup_singleton source
  inside _ member := member
  near := nearest_zero_iff.mpr rfl

theorem Route.Shortest.extend (shortest : route.Shortest next source)
    (leads : name ∈ next route.tip) (new : name ∉ ball next source route.hops) :
    (route.extend name).Shortest next source := by
  have near : Nearest next (route.hops + 1) source name :=
    nearest_succ_iff.mpr ⟨⟨_, shortest.near, leads⟩, fun met => new (mem_ball_iff.mpr met)⟩
  refine ⟨?_, ?_, ?_, ?_, near⟩
  · exact List.isChain_cons_cons.mpr ⟨leads, shortest.linked⟩
  · exact List.getLast?_cons_cons.trans shortest.starts
  · exact List.nodup_cons.mpr ⟨fun met => new (shortest.inside name met), shortest.simple⟩
  · intro other listed
    rcases List.mem_cons.mp listed with rfl | old
    · exact mem_ball_iff.mpr ⟨_, Nat.le_refl _, near.steps⟩
    · obtain ⟨n, most, walk⟩ := mem_ball_iff.mp (shortest.inside other old)
      exact mem_ball_iff.mpr ⟨n, Nat.le_succ_of_le most, walk⟩

end Shortest

namespace Link

variable {next : String → List String} {maxDepth : Nat} {source target : String}

/-! ### The routes in line -/

/-- What a line of routes puts in line: each route goes on to the neighbours of its tip that are not
marked by then. -/
def grow (next : String → List String) : List String → List Route → List Route
  | _, [] => []
  | marked, route :: rest =>
    (unmarked next marked route.tip).map route.extend ++
      grow next (marked ++ unmarked next marked route.tip) rest

theorem map_tip_extend (route : Route) (names : List String) :
    (names.map route.extend).map Route.tip = names := by
  rw [List.map_map]
  exact List.map_id names

theorem map_tip_grow (once : ∀ name, (next name).Nodup) (marked : List String)
    (routes : List Route) :
    (grow next marked routes).map Route.tip =
      newTo marked ((routes.map Route.tip).flatMap next) := by
  induction routes generalizing marked with
  | nil => rfl
  | cons route rest ih =>
    -- without doubles among the neighbours, the unmarked ones are what they add to the marks
    have marks : unmarked next marked route.tip = newTo marked (next route.tip) :=
      (newTo_of_nodup marked (once route.tip)).symm
    rw [grow, List.map_append, map_tip_extend, ih, marks, List.map_cons, List.flatMap_cons,
      newTo_append]

theorem mem_grow {marked : List String} {routes : List Route} {grown : Route}
    (listed : grown ∈ grow next marked routes) :
    ∃ route ∈ routes, ∃ name ∈ next route.tip, name ∉ marked ∧ grown = route.extend name := by
  induction routes generalizing marked with
  | nil => exact (List.not_mem_nil listed).elim
  | cons route rest ih =>
    rcases List.mem_append.mp listed with here | later
    · obtain ⟨name, open_, rfl⟩ := List.mem_map.mp here
      obtain ⟨leads, new⟩ := List.mem_filter.mp open_
      exact ⟨route, List.mem_cons_self, name, leads, by simpa using new, rfl⟩
    · obtain ⟨parent, earlier, name, leads, new, is⟩ := ih later
      exact ⟨parent, List.mem_cons_of_mem _ earlier, name, leads,
        fun met => new (List.mem_append_left _ met), is⟩

/-- The first route that leads to a name without a mark goes on to it. -/
theorem extend_mem_grow {marked : List String} {routes : List Route} {route : Route}
    {name : String} (new : name ∉ marked)
    (found : routes.find? (fun route => (next route.tip).contains name) = some route) :
    route.extend name ∈ grow next marked routes := by
  induction routes generalizing marked with
  | nil => cases found
  | cons first rest ih =>
    rw [List.find?_cons] at found
    split at found
    · rename_i leads
      obtain rfl := Option.some.inj found
      refine List.mem_append_left _ (List.mem_map.mpr ⟨name, List.mem_filter.mpr ⟨?_, ?_⟩, rfl⟩)
      · simpa using leads
      · simpa using new
    · rename_i missed
      have unled : name ∉ next first.tip := by simpa using missed
      refine List.mem_append_right _ (ih (fun met => ?_) found)
      rcases List.mem_append.mp met with old | added
      · exact new old
      · exact unled (List.mem_of_mem_filter added)

/-- The routes in line after a number of rounds. -/
def wave (next : String → List String) (source : String) : Nat → List Route
  | 0 => [.start source]
  | rounds + 1 => grow next (ball next source rounds) (wave next source rounds)

/-- There is one route to each method of a sphere. -/
theorem map_tip_wave (once : ∀ name, (next name).Nodup) (source : String) (rounds : Nat) :
    (wave next source rounds).map Route.tip = sphere next source rounds := by
  induction rounds with
  | zero => rfl
  | succ rounds ih => rw [wave, map_tip_grow once, ih, sphere_succ]

theorem mem_wave {rounds : Nat} {route : Route} (listed : route ∈ wave next source rounds) :
    route.hops = rounds ∧ route.Shortest next source := by
  induction rounds generalizing route with
  | zero =>
    rw [wave, List.mem_singleton] at listed
    subst listed
    exact ⟨rfl, .start next source⟩
  | succ rounds ih =>
    obtain ⟨parent, earlier, name, leads, new, rfl⟩ := mem_grow listed
    obtain ⟨rfl, shortest⟩ := ih earlier
    exact ⟨rfl, shortest.extend leads new⟩

/-! ### One round of the walk -/

/-- Routes that cannot go on to the target are followed by what they put in line. -/
theorem search_level {depth : Nat} (deeper : depth < maxDepth) (routes later : List Route)
    (marked : List String) (polls : Nat) (even : ∀ route ∈ routes, route.hops = depth)
    (apart : ∀ route ∈ routes, target ∉ next route.tip) :
    search next maxDepth target .never (routes ++ later) marked polls =
      search next maxDepth target .never (later ++ grow next marked routes)
        (marked ++ (grow next marked routes).map Route.tip) (polls + routes.length) := by
  induction routes generalizing later marked polls with
  | nil => simp [grow]
  | cons route rest ih =>
    have uncut : ¬ maxDepth ≤ route.hops := by rw [even route List.mem_cons_self]; omega
    have missed : ¬ (next route.tip).contains target = true := by
      simpa using apart route List.mem_cons_self
    rw [List.cons_append, search, if_neg (Signal.not_never _), if_neg uncut, if_neg missed]
    dsimp only
    rw [List.append_assoc, ih _ _ _ (fun other listed => even other (List.mem_cons_of_mem _ listed))
      fun other listed => apart other (List.mem_cons_of_mem _ listed)]
    rw [grow, List.map_append, map_tip_extend, List.append_assoc, List.append_assoc,
      List.length_cons, Nat.add_assoc, Nat.add_comm 1]

/-- The first route that can go on to the target ends the walk. -/
theorem search_found {depth : Nat} (deeper : depth < maxDepth) {routes : List Route}
    (later : List Route) (marked : List String) (polls : Nat)
    (even : ∀ route ∈ routes, route.hops = depth) {route : Route}
    (found : routes.find? (fun route => (next route.tip).contains target) = some route) :
    (search next maxDepth target .never (routes ++ later) marked polls).path =
      (route.extend target).nodes.reverse := by
  induction routes generalizing later marked polls with
  | nil => cases found
  | cons first rest ih =>
    have uncut : ¬ maxDepth ≤ first.hops := by rw [even first List.mem_cons_self]; omega
    rw [List.cons_append, search, if_neg (Signal.not_never _), if_neg uncut]
    rw [List.find?_cons] at found
    split at found
    · rename_i hit
      rw [if_pos hit, Option.some.inj found]
    · rename_i missed
      rw [if_neg (by rw [missed]; exact Bool.false_ne_true)]
      dsimp only
      rw [List.append_assoc]
      exact ih _ _ _ (fun other listed => even other (List.mem_cons_of_mem _ listed)) found

/-- Routes of the greatest length are not followed. -/
theorem path_search_of_cut (routes : List Route) (marked : List String) (polls : Nat)
    (cut : ∀ route ∈ routes, maxDepth ≤ route.hops) :
    (search next maxDepth target .never routes marked polls).path = [] := by
  induction routes generalizing polls with
  | nil => rw [search]
  | cons route rest ih =>
    rw [search, if_neg (Signal.not_never _), if_pos (cut route List.mem_cons_self)]
    exact ih _ fun other listed => cut other (List.mem_cons_of_mem _ listed)

/-! ### The whole walk -/

/-- What the walk may end with: no path when the target is out of reach, or else a shortest one. -/
def Answers (next : String → List String) (maxDepth : Nat) (source target : String)
    (path : List String) : Prop :=
  (target ∉ ball next source maxDepth ∧ path = []) ∨
    ∃ route : Route, route.Shortest next source ∧ route.tip = target ∧ route.hops ≤ maxDepth ∧
      path = route.nodes.reverse

/-- The walk from a round on that has not met the target, by induction on the rounds left: it ends
with the route to the target that would stand in line after the round that meets it. -/
theorem search_from (once : ∀ name, (next name).Nodup) (left : Nat) {rounds : Nat}
    (all : rounds + left = maxDepth) (away : target ∉ ball next source rounds) (polls : Nat)
    {path : List String}
    (ended : (search next maxDepth target .never (wave next source rounds)
      (ball next source rounds) polls).path = path) :
    (target ∉ ball next source maxDepth ∧ path = []) ∨
      ∃ last, last ≤ maxDepth ∧ ∃ route ∈ wave next source last,
        route.tip = target ∧ path = route.nodes.reverse := by
  induction left generalizing rounds polls with
  | zero =>
    refine Or.inl ⟨all ▸ away, ended.symm.trans (path_search_of_cut _ _ _ fun route listed => ?_)⟩
    rw [(mem_wave listed).1]
    omega
  | succ left ih =>
    have even : ∀ route ∈ wave next source rounds, route.hops = rounds :=
      fun route listed => (mem_wave listed).1
    have deeper : rounds < maxDepth := by omega
    rw [← List.append_nil (wave next source rounds)] at ended
    cases found : (wave next source rounds).find? fun route => (next route.tip).contains target with
    | some route =>
      refine Or.inr ⟨rounds + 1, deeper, route.extend target, extend_mem_grow away found, rfl, ?_⟩
      exact ended.symm.trans (search_found deeper [] _ _ even found)
    | none =>
      have apart : ∀ route ∈ wave next source rounds, target ∉ next route.tip := by
        simpa using found
      rw [search_level deeper _ [] _ _ even apart, List.nil_append, map_tip_grow once,
        map_tip_wave once, ← sphere_succ, ← ball_succ] at ended
      refine @ih (rounds + 1) (by omega) (fun met => ?_) _ ended
      -- the target would be new, so a route of this round would lead to it
      rw [ball_succ, List.mem_append, sphere_succ, mem_newTo, ← map_tip_wave once] at met
      rcases met with old | ⟨new, -⟩
      · exact away old
      · obtain ⟨tip, isTip, leads⟩ := List.mem_flatMap.mp new
        obtain ⟨route, listed, rfl⟩ := List.mem_map.mp isTip
        exact apart route listed leads

/-- **The walk ends with a route in line**, or the target is out of reach. -/
theorem search_wave (once : ∀ name, (next name).Nodup) (maxDepth : Nat)
    (differ : source ≠ target) {path : List String}
    (ended : (search next maxDepth target .never [.start source] [source] 0).path = path) :
    (target ∉ ball next source maxDepth ∧ path = []) ∨
      ∃ last, last ≤ maxDepth ∧ ∃ route ∈ wave next source last,
        route.tip = target ∧ path = route.nodes.reverse :=
  search_from once maxDepth (Nat.zero_add maxDepth)
    (fun met => differ (List.mem_singleton.mp met).symm) 0 ended

/-- **The walk finds a shortest path**, or the target is out of reach. -/
theorem search_cases (once : ∀ name, (next name).Nodup) (maxDepth : Nat)
    (differ : source ≠ target) :
    Answers next maxDepth source target
      (search next maxDepth target .never [.start source] [source] 0).path := by
  rcases search_wave once maxDepth differ rfl with away | ⟨last, most, route, listed, tip, path⟩
  · exact Or.inl away
  · obtain ⟨rfl, shortest⟩ := mem_wave listed
    exact Or.inr ⟨route, shortest, tip, most, path⟩

end Link

end CallGraph
