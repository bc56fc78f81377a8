/-
**The stack walk is a recursive walk.**

`PathsTo.tour` walks from one route by recursion on the calls that are left. It lists what happens
at each route it comes to: a path is reported, or nothing is and the walk goes on to the neighbours
not yet on the route. The walk over a stack does what the tours of its routes list, one after the
other, until the signal or the cap ends it: `PathsTo.search_eq_replay`. When neither does, the paths
are those of the tour in its order (`PathsTo.search_never`), and `PathsTo.mem_tour` says which these
are: the trails (neighbours all along, no name twice) to where nothing leads on, or, cut short, to
where no call is left.
-/

import CallGraph.Proofs.Walk.Distance
import CallGraph.Walk.PathsTo
import Mathlib.Data.List.Chain

namespace CallGraph

/-- A way along neighbours, the latest name first, that meets no name twice. -/
structure IsTrail (next : String → List String) (nodes : List String) : Prop where
  linked : nodes.IsChain fun late early => late ∈ next early
  simple : nodes.Nodup

theorem IsTrail.of_append {next : String → List String} {added nodes : List String}
    (trail : IsTrail next (added ++ nodes)) : IsTrail next nodes :=
  ⟨trail.linked.right_of_append, trail.simple.of_append_right⟩

theorem IsTrail.mono {next other : String → List String} {nodes : List String}
    (keeps : ∀ a b, b ∈ next a → b ∈ other a) (trail : IsTrail next nodes) : IsTrail other nodes :=
  ⟨trail.linked.imp fun late early => keeps early late, trail.simple⟩

theorem IsTrail.start (next : String → List String) (target : String) :
    IsTrail next (Route.start target).nodes :=
  ⟨List.isChain_singleton target, List.nodup_singleton target⟩

theorem Route.eq_of_nodes_eq {first second : Route} (same : first.nodes = second.nodes) :
    first = second := by
  obtain ⟨tip, trail⟩ := first
  obtain ⟨rfl, rfl⟩ := List.cons.inj same
  rfl

namespace PathsTo

variable {next : String → List String} {maxDepth : Nat} {cap : Option Int} {signal : Signal}

/-! ### Tours -/

/-- The walk from a route with a number of calls left: a path where one is reported, `none` where
the walk goes on. -/
def tour (next : String → List String) : Nat → Route → List (Option CallPath)
  | 0, route => [some ⟨route.nodes, !(next route.tip).isEmpty⟩]
  | left + 1, route =>
    if (next route.tip).isEmpty then
      [some ⟨route.nodes, false⟩]
    else
      none :: (openNeighbours next route).flatMap fun name => tour next left (route.extend name)

/-- The tours of the routes on a stack, one after the other. -/
def agenda (next : String → List String) (maxDepth : Nat) (stack : List Route) :
    List (Option CallPath) :=
  stack.flatMap fun route => tour next (maxDepth - route.hops) route

theorem tour_of_ending {route : Route} {truncated : Bool}
    (ends : ending next maxDepth route = some truncated) :
    tour next (maxDepth - route.hops) route = [some ⟨route.nodes, truncated⟩] := by
  unfold ending at ends
  cases left : maxDepth - route.hops with
  | zero =>
    rw [tour]
    split at ends
    · rename_i stuck
      rw [stuck, ← Option.some.inj ends, Bool.not_true]
    · rename_i leads
      rw [if_pos (by omega)] at ends
      rw [← Option.some.inj ends, eq_false_of_ne_true leads, Bool.not_false]
  | succ left =>
    rw [tour]
    split at ends
    · rename_i stuck
      rw [if_pos stuck, ← Option.some.inj ends]
    · rw [if_neg (by omega)] at ends
      cases ends

theorem tour_of_ending_none {route : Route} (goesOn : ending next maxDepth route = none) :
    tour next (maxDepth - route.hops) route =
      none :: agenda next maxDepth ((openNeighbours next route).map route.extend) := by
  have deeper := lt_of_ending_eq_none goesOn
  obtain ⟨left, is⟩ : ∃ left, maxDepth - route.hops = left + 1 :=
    ⟨maxDepth - route.hops - 1, by omega⟩
  have leads : ¬ (next route.tip).isEmpty = true := by
    intro stuck
    rw [ending, if_pos stuck] at goesOn
    cases goesOn
  have fewer : ∀ name, maxDepth - (route.extend name).hops = left := by
    intro name
    show maxDepth - (route.hops + 1) = left
    omega
  rw [is, tour, if_neg leads, agenda, List.flatMap_map]
  simp only [fewer]

theorem tour_ne_nil (next : String → List String) (left : Nat) (route : Route) :
    tour next left route ≠ [] := by
  cases left with
  | zero => exact List.cons_ne_nil _ _
  | succ left =>
    rw [tour]
    split
    · exact List.cons_ne_nil _ _
    · exact List.cons_ne_nil _ _

theorem isEmpty_agenda (stack : List Route) :
    (agenda next maxDepth stack).isEmpty = stack.isEmpty := by
  cases stack with
  | nil => rfl
  | cons route rest =>
    have some := tour_ne_nil next (maxDepth - route.hops) route
    rw [agenda, List.flatMap_cons, List.isEmpty_cons, List.isEmpty_eq_false_iff]
    exact List.append_ne_nil_of_left_ne_nil some _

/-! ### Doing what a tour lists -/

/-- Adds a path to the result. -/
def report (result : PathsTo) (path : CallPath) : PathsTo :=
  { result with
    found := result.found.push path
    depthReached := result.depthReached || path.truncated }

/-- Does what is listed until the signal or the cap ends it. -/
def replay (cap : Option Int) (signal : Signal) : List (Option CallPath) → PathsTo → PathsTo
  | [], result => result
  | event :: rest, result =>
    if signal result.polls then
      { result.polled with cancelled := true }
    else
      match event with
      | none => replay cap signal rest result.polled
      | some path =>
        if (result.polled.report path).isFull cap then
          { result.polled.report path with limitReached := !rest.isEmpty }
        else
          replay cap signal rest (result.polled.report path)

theorem not_isFull_none (result : PathsTo) : ¬ result.isFull none = true := Bool.false_ne_true

theorem replay_of_signal {result : PathsTo} (stopped : signal result.polls = true)
    (event : Option CallPath) (rest : List (Option CallPath)) :
    replay cap signal (event :: rest) result = { result.polled with cancelled := true } := by
  cases event with
  | none => rw [replay, if_pos stopped]
  | some path => rw [replay, if_pos stopped]

/-- **The walk over a stack does what the tours of its routes list.** -/
theorem search_eq_replay (stack : List Route) (result : PathsTo) :
    search next maxDepth cap signal stack result =
      replay cap signal (agenda next maxDepth stack) result := by
  fun_induction search next maxDepth cap signal stack result with
  | case1 result => rfl
  | case2 result route rest stopped =>
    -- a stopped walk leaves its stack alone, and every tour lists something to be stopped at
    obtain ⟨event, others, is⟩ := List.exists_cons_of_ne_nil
      (tour_ne_nil next (maxDepth - route.hops) route)
    rw [agenda, List.flatMap_cons, is, List.cons_append]
    exact (replay_of_signal stopped _ _).symm
  | case3 result route rest goes truncated ends reported full =>
    rw [agenda, List.flatMap_cons, tour_of_ending ends, List.singleton_append, replay, if_neg goes,
      ← agenda, isEmpty_agenda]
    exact (if_pos full).symm
  | case4 result route rest goes truncated ends reported open_ ih =>
    rw [ih, agenda, agenda, List.flatMap_cons, tour_of_ending ends, List.singleton_append, replay,
      if_neg goes]
    exact (if_neg open_).symm
  | case5 result route rest goes ends grown ih =>
    rw [ih, agenda, agenda, List.flatMap_cons, tour_of_ending_none ends, List.cons_append, replay,
      if_neg goes, List.flatMap_append]
    rfl

theorem replay_never (events : List (Option CallPath)) (result : PathsTo) :
    replay none .never events result =
      { result with
        found := result.found ++ (events.filterMap id).toArray
        depthReached := result.depthReached || (events.filterMap id).any CallPath.truncated
        polls := result.polls + events.length } := by
  induction events generalizing result with
  | nil => simp [replay]
  | cons event rest ih =>
    cases event with
    | none =>
      rw [replay, if_neg (Signal.not_never _), ih, List.filterMap_cons_none rfl]
      simp [polled, Nat.add_comm, Nat.add_left_comm]
    | some path =>
      rw [replay, if_neg (Signal.not_never _)]
      dsimp only
      rw [if_neg (not_isFull_none _), ih]
      simp [polled, report, Nat.add_comm, Nat.add_left_comm, Bool.or_assoc]

/-- **An uninterrupted walk** reports the paths of the tour, in its order. -/
theorem search_never (target : String) :
    search next maxDepth none .never [.start target] (.start target) =
      { start target with
        found := ((tour next maxDepth (.start target)).filterMap id).toArray
        depthReached := ((tour next maxDepth (.start target)).filterMap id).any CallPath.truncated
        polls := (tour next maxDepth (.start target)).length } := by
  rw [search_eq_replay, replay_never]
  simp [agenda, start, Route.hops, Route.start]

/-! ### Which paths these are -/

/-- A route goes on to a name exactly when it stays a trail. -/
theorem mem_openNeighbours_iff {route : Route} {name : String} (trail : IsTrail next route.nodes) :
    name ∈ openNeighbours next route ↔ IsTrail next (name :: route.nodes) := by
  rw [openNeighbours, List.mem_filter]
  constructor
  · rintro ⟨leads, new⟩
    have unmet : name ∉ route.nodes := by simpa using new
    exact ⟨List.isChain_cons_cons.mpr ⟨leads, trail.linked⟩,
      List.nodup_cons.mpr ⟨unmet, trail.simple⟩⟩
  · rintro ⟨linked, simple⟩
    refine ⟨(List.isChain_cons_cons.mp linked).1, ?_⟩
    simpa using (List.nodup_cons.mp simple).1

/-- Where a walk stops that had `left` calls left and made `added` of them: where nothing leads on,
or, cut short, where no call is left. -/
def Stops (next : String → List String) (left added : Nat) (last : Route) : Bool → Prop
  | false => added ≤ left ∧ next last.tip = []
  | true => added = left ∧ next last.tip ≠ []

/-- The paths that a tour is to report: the trails from its route to where it stops. -/
def Due (next : String → List String) (left : Nat) (route : Route) (path : CallPath) : Prop :=
  ∃ (added : List String) (last : Route), path.nodes = last.nodes ∧
    last.nodes = added ++ route.nodes ∧ IsTrail next last.nodes ∧
    Stops next left added.length last path.truncated

/-- The due paths do not see the order of neighbours. -/
theorem due_congr {other : String → List String} (same : ∀ a b, b ∈ next a ↔ b ∈ other a)
    {left : Nat} {route : Route} {path : CallPath} :
    Due next left route path ↔ Due other left route path := by
  have trails : ∀ nodes, IsTrail next nodes ↔ IsTrail other nodes := fun nodes =>
    ⟨IsTrail.mono fun a b => (same a b).mp, IsTrail.mono fun a b => (same a b).mpr⟩
  have nowhere : ∀ name, next name = [] ↔ other name = [] := by
    intro name
    simp only [List.eq_nil_iff_forall_not_mem, same]
  have stops : ∀ added last truncated,
      Stops next left added last truncated ↔ Stops other left added last truncated := by
    intro added last truncated
    cases truncated with
    | false => exact and_congr_right fun _ => nowhere last.tip
    | true => exact and_congr_right fun _ => not_congr (nowhere last.tip)
  simp only [Due, trails, stops]

theorem stops_succ_iff (left added : Nat) (last : Route) (truncated : Bool) :
    Stops next (left + 1) (added + 1) last truncated ↔ Stops next left added last truncated := by
  cases truncated with
  | false => exact and_congr_left fun _ => Nat.succ_le_succ_iff
  | true => exact and_congr_left fun _ => Nat.succ_inj

theorem Stops.added_le {left added : Nat} {last : Route} {truncated : Bool}
    (stops : Stops next left added last truncated) : added ≤ left := by
  cases truncated with
  | false => exact stops.1
  | true => exact Nat.le_of_eq stops.1

theorem stops_zero_iff (route : Route) (truncated : Bool) :
    Stops next 0 0 route truncated ↔ truncated = !(next route.tip).isEmpty := by
  cases truncated with
  | false => simp [Stops]
  | true => simp [Stops]

/-- **One call of a due path**: it is the route itself, or goes on to an open neighbour. -/
theorem due_iff {left : Nat} {route : Route} {path : CallPath} (trail : IsTrail next route.nodes) :
    Due next left route path ↔
      (path.nodes = route.nodes ∧ Stops next left 0 route path.truncated) ∨
        ∃ fewer, left = fewer + 1 ∧
          ∃ name ∈ openNeighbours next route, Due next fewer (route.extend name) path := by
  constructor
  · rintro ⟨added, last, nodes, is, whole, stops⟩
    rcases List.eq_nil_or_concat added with rfl | ⟨before, name, rfl⟩
    · obtain rfl : last = route := Route.eq_of_nodes_eq is
      exact Or.inl ⟨nodes, stops⟩
    · rw [List.concat_append] at is
      rw [List.length_concat] at stops
      have further : IsTrail next (name :: route.nodes) := (is ▸ whole).of_append
      have most := stops.added_le
      obtain ⟨fewer, rfl⟩ : ∃ fewer, left = fewer + 1 := ⟨left - 1, by omega⟩
      rw [stops_succ_iff] at stops
      exact Or.inr ⟨fewer, rfl, name, (mem_openNeighbours_iff trail).mpr further, before, last,
        nodes, is, whole, stops⟩
  · rintro (⟨nodes, stops⟩ | ⟨fewer, rfl, name, -, added, last, nodes, is, whole, stops⟩)
    · exact ⟨[], route, nodes, rfl, trail, stops⟩
    · refine ⟨added ++ [name], last, nodes, ?_, whole, ?_⟩
      · rw [is, List.append_assoc]
        rfl
      · rw [List.length_append, List.length_singleton, stops_succ_iff]
        exact stops

/-- **A tour reports the due paths.** -/
theorem mem_tour {left : Nat} {route : Route} {path : CallPath} (trail : IsTrail next route.nodes) :
    some path ∈ tour next left route ↔ Due next left route path := by
  obtain ⟨nodes, truncated⟩ := path
  induction left generalizing route with
  | zero =>
    rw [tour, List.mem_singleton, Option.some.injEq, CallPath.mk.injEq, due_iff trail,
      stops_zero_iff]
    refine (or_iff_left ?_).symm
    rintro ⟨fewer, wrong, -⟩
    cases wrong
  | succ left ih =>
    have further : ∀ name ∈ openNeighbours next route,
        (some ⟨nodes, truncated⟩ ∈ tour next left (route.extend name) ↔
          Due next left (route.extend name) ⟨nodes, truncated⟩) :=
      fun name goesOn => ih ((mem_openNeighbours_iff trail).mp goesOn)
    rw [tour, due_iff trail]
    split
    · rename_i stuck
      have nowhere : next route.tip = [] := List.isEmpty_iff.mp stuck
      rw [List.mem_singleton, Option.some.injEq, CallPath.mk.injEq, openNeighbours, nowhere]
      cases truncated with
      | false => simp [Stops, nowhere]
      | true => simp [Stops, nowhere]
    · rename_i leads
      have goes : ¬ Stops next (left + 1) 0 route truncated := by
        cases truncated with
        | false => exact fun stops => leads (List.isEmpty_iff.mpr stops.2)
        | true => exact fun stops => Nat.succ_ne_zero left stops.1.symm
      rw [List.mem_cons, List.mem_flatMap]
      constructor
      · rintro (wrong | ⟨name, goesOn, listed⟩)
        · cases wrong
        · exact Or.inr ⟨left, rfl, name, goesOn, (further name goesOn).mp listed⟩
      · rintro (⟨-, stops⟩ | ⟨fewer, same, name, goesOn, due⟩)
        · exact (goes stops).elim
        · obtain rfl := Nat.succ.inj same
          exact Or.inr ⟨name, goesOn, (further name goesOn).mpr due⟩

end PathsTo

end CallGraph
