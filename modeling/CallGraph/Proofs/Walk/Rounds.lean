/-
**The backward walk pops each simple way once.**

`PathsTo.Round` is one round of the loop over the stack when neither a cap nor a signal can end it:
the route on top is popped, and is reported or gives way to the routes that it grows into.
`PathsTo.Rounds` are rounds one after the other, with the routes that they pop. The loop goes
through these rounds: `PathsTo.Round.search_eq` says that a round changes nothing about the end of
the loop.

The stack may grow and methods are met again on other routes, so neither tells that the rounds come
to an end. What falls is the load of the stack (`PathsTo.Round.load_lt`), whatever the depth. What
is popped is known beforehand: `PathsTo.offshoots` lists a route and all that grows out of it, and a
round takes the first of what the stack still has to offer (`PathsTo.Round.offers_eq`). The
offshoots of a route are the trails that go on from it, each listed once.

* `pathsTo_pops_once`: the loop ends, it pops each simple way back from the target once, and it
  polls as often as there are such ways.
-/

import CallGraph.Proofs.Walk.Cap
import CallGraph.Proofs.Walk.Enumeration
import Mathlib.Data.Set.Card

namespace CallGraph

namespace PathsTo

variable {next : String → List String} {maxDepth : Nat}

/-! ### Rounds -/

/-- The loop between two rounds. -/
structure Pending where
  stack : List Route
  result : PathsTo

/-- **One round**: the route on top is popped and reported where it ends; otherwise the routes that
go on from it take its place. -/
inductive Round (next : String → List String) (maxDepth : Nat) : Pending → Route → Pending → Prop
  | reports {route : Route} {rest : List Route} {result : PathsTo} {truncated : Bool}
      (ends : ending next maxDepth route = some truncated) :
      Round next maxDepth ⟨route :: rest, result⟩ route
        ⟨rest, result.polled.emit route truncated⟩
  | grows {route : Route} {rest : List Route} {result : PathsTo}
      (goesOn : ending next maxDepth route = none) :
      Round next maxDepth ⟨route :: rest, result⟩ route
        ⟨(openNeighbours next route).map route.extend ++ rest, result.polled⟩

/-- Rounds one after the other, with the routes that they pop. -/
inductive Rounds (next : String → List String) (maxDepth : Nat) :
    Pending → List Route → Pending → Prop
  | stay (pending : Pending) : Rounds next maxDepth pending [] pending
  | go {first second last : Pending} {route : Route} {popped : List Route}
      (round : Round next maxDepth first route second)
      (others : Rounds next maxDepth second popped last) :
      Rounds next maxDepth first (route :: popped) last

/-- As long as something is on the stack there is a round. -/
theorem exists_round (next : String → List String) (maxDepth : Nat) (route : Route)
    (rest : List Route) (result : PathsTo) :
    ∃ second, Round next maxDepth ⟨route :: rest, result⟩ route second := by
  cases ends : ending next maxDepth route with
  | some truncated => exact ⟨_, .reports ends⟩
  | none => exact ⟨_, .grows ends⟩

section Round

variable {first second : Pending} {route : Route} (round : Round next maxDepth first route second)
include round

/-- The loop goes on from where a round leads. -/
theorem Round.search_eq :
    search next maxDepth none .never first.stack first.result =
      search next maxDepth none .never second.stack second.result := by
  cases round with
  | reports ends =>
    rw [search, if_neg (Signal.not_never _)]
    split
    · rename_i truncated same
      obtain rfl := Option.some.inj (ends.symm.trans same)
      exact if_neg (not_isFull_none _)
    · rename_i goesOn
      rw [ends] at goesOn
      cases goesOn
  | grows goesOn =>
    rw [search, if_neg (Signal.not_never _)]
    split
    · rename_i truncated ends
      rw [goesOn] at ends
      cases ends
    · rfl

theorem Round.polls_eq : second.result.polls = first.result.polls + 1 := by
  cases round with
  | reports ends => rfl
  | grows goesOn => rfl

/-- **A round lessens the load of the stack.** -/
theorem Round.load_lt :
    Frontier.load next maxDepth (second.stack.map Route.entry) <
      Frontier.load next maxDepth (first.stack.map Route.entry) := by
  cases round with
  | reports ends =>
    have positive := Frontier.walkCount_pos next (maxDepth - route.hops) route.tip
    simp only [List.map_cons, Frontier.load_cons, Route.entry]
    omega
  | grows goesOn =>
    have lighter := Frontier.load_neighbours_lt next maxDepth
      (openNeighbours_sublist next route) (lt_of_ending_eq_none goesOn)
    simp only [List.map_append, Route.map_entry_extend, Frontier.load_append, List.map_cons,
      Frontier.load_cons, Route.entry]
    omega

end Round

/-- **The rounds come to an end**, by induction on the load of the stack. -/
theorem exists_rounds (next : String → List String) (maxDepth : Nat) (first : Pending) :
    ∃ popped result, Rounds next maxDepth first popped ⟨[], result⟩ := by
  induction load : Frontier.load next maxDepth (first.stack.map Route.entry) using
    Nat.strongRecOn generalizing first with
  | ind load ih =>
    obtain ⟨stack, result⟩ := first
    cases stack with
    | nil => exact ⟨[], result, .stay _⟩
    | cons route rest =>
      obtain ⟨second, round⟩ := exists_round next maxDepth route rest result
      have less := round.load_lt
      obtain ⟨popped, last, others⟩ := ih _ (load ▸ less) second rfl
      exact ⟨route :: popped, last, .go round others⟩

/-- Where the rounds end, the loop ends. -/
theorem Rounds.search_eq {first last : Pending} {popped : List Route}
    (rounds : Rounds next maxDepth first popped last) :
    search next maxDepth none .never first.stack first.result =
      search next maxDepth none .never last.stack last.result := by
  induction rounds with
  | stay pending => rfl
  | go round others ih => exact round.search_eq.trans ih

/-- There is one poll for each route that is popped. -/
theorem Rounds.polls_eq {first last : Pending} {popped : List Route}
    (rounds : Rounds next maxDepth first popped last) :
    last.result.polls = first.result.polls + popped.length := by
  induction rounds with
  | stay pending => rfl
  | go round others ih =>
    rw [ih, round.polls_eq, List.length_cons]
    omega

/-! ### Offshoots -/

/-- A route and all that grows out of it in a number of calls, depth first. -/
def offshoots (next : String → List String) : Nat → Route → List Route
  | 0, route => [route]
  | left + 1, route =>
    route :: (openNeighbours next route).flatMap fun name => offshoots next left (route.extend name)

/-- What a stack still has to offer. -/
def offers (next : String → List String) (maxDepth : Nat) (stack : List Route) : List Route :=
  stack.flatMap fun route => offshoots next (maxDepth - route.hops) route

theorem offshoots_of_ending {route : Route} {truncated : Bool}
    (ends : ending next maxDepth route = some truncated) :
    offshoots next (maxDepth - route.hops) route = [route] := by
  cases left : maxDepth - route.hops with
  | zero => rfl
  | succ left =>
    unfold ending at ends
    split at ends
    · rename_i stuck
      rw [offshoots, openNeighbours, List.isEmpty_iff.mp stuck]
      rfl
    · rw [if_neg (by omega)] at ends
      cases ends

theorem offshoots_of_ending_none {route : Route} (goesOn : ending next maxDepth route = none) :
    offshoots next (maxDepth - route.hops) route =
      route :: offers next maxDepth ((openNeighbours next route).map route.extend) := by
  have deeper := lt_of_ending_eq_none goesOn
  obtain ⟨left, is⟩ : ∃ left, maxDepth - route.hops = left + 1 :=
    ⟨maxDepth - route.hops - 1, by omega⟩
  have fewer : ∀ name, maxDepth - (route.extend name).hops = left := by
    intro name
    show maxDepth - (route.hops + 1) = left
    omega
  rw [is, offshoots, offers, List.flatMap_map]
  simp only [fewer]

/-- **A round pops the first of what the stack has to offer**, and leaves the rest. -/
theorem Round.offers_eq {first second : Pending} {route : Route}
    (round : Round next maxDepth first route second) :
    offers next maxDepth first.stack = route :: offers next maxDepth second.stack := by
  cases round with
  | reports ends =>
    unfold offers
    rw [List.flatMap_cons, offshoots_of_ending ends]
    rfl
  | grows goesOn =>
    unfold offers
    rw [List.flatMap_cons, offshoots_of_ending_none goesOn, List.flatMap_append]
    rfl

theorem Rounds.offers_eq {first last : Pending} {popped : List Route}
    (rounds : Rounds next maxDepth first popped last) :
    offers next maxDepth first.stack = popped ++ offers next maxDepth last.stack := by
  induction rounds with
  | stay pending => rfl
  | go round others ih => rw [round.offers_eq, ih, List.cons_append]

/-- **The offshoots of a trail** are the trails that go on from it by few enough calls. -/
theorem mem_offshoots_iff {left : Nat} {route last : Route} (trail : IsTrail next route.nodes) :
    last ∈ offshoots next left route ↔
      ∃ added, last.nodes = added ++ route.nodes ∧ added.length ≤ left ∧
        IsTrail next last.nodes := by
  induction left generalizing route with
  | zero =>
    rw [offshoots, List.mem_singleton]
    constructor
    · intro same
      exact ⟨[], congrArg Route.nodes same, Nat.le_refl 0, same ▸ trail⟩
    · rintro ⟨added, is, few, -⟩
      obtain rfl := List.length_eq_zero_iff.mp (Nat.le_zero.mp few)
      exact Route.eq_of_nodes_eq is
  | succ left ih =>
    rw [offshoots, List.mem_cons, List.mem_flatMap]
    constructor
    · intro member
      rcases member with rfl | ⟨name, goesOn, below⟩
      · exact ⟨[], rfl, Nat.zero_le _, trail⟩
      · have further : IsTrail next (route.extend name).nodes :=
          (mem_openNeighbours_iff trail).mp goesOn
        obtain ⟨added, is, most, whole⟩ := (ih further).mp below
        refine ⟨added ++ [name], ?_, ?_, whole⟩
        · rw [is, List.append_assoc]
          rfl
        · rw [List.length_append]
          exact Nat.succ_le_succ most
    · rintro ⟨added, is, most, whole⟩
      rcases List.eq_nil_or_concat added with rfl | ⟨before, name, rfl⟩
      · exact Or.inl (Route.eq_of_nodes_eq is)
      · rw [List.concat_append] at is
        rw [List.length_concat] at most
        have further : IsTrail next (route.extend name).nodes := (is ▸ whole).of_append
        exact Or.inr ⟨name, (mem_openNeighbours_iff trail).mpr further,
          (ih further).mpr ⟨before, is, Nat.le_of_succ_le_succ most, whole⟩⟩

theorem suffix_of_mem_offshoots {left : Nat} {route last : Route}
    (listed : last ∈ offshoots next left route) : route.nodes <:+ last.nodes := by
  induction left generalizing route with
  | zero =>
    obtain rfl := List.mem_singleton.mp listed
    exact List.suffix_refl _
  | succ left ih =>
    rw [offshoots, List.mem_cons, List.mem_flatMap] at listed
    rcases listed with rfl | ⟨name, -, below⟩
    · exact List.suffix_refl _
    · exact (List.suffix_cons name route.nodes).trans (ih below)

/-- **No offshoot is listed twice.** -/
theorem nodup_offshoots (once : ∀ name, (next name).Nodup) (left : Nat) (route : Route) :
    (offshoots next left route).Nodup := by
  induction left generalizing route with
  | zero => exact List.nodup_singleton route
  | succ left ih =>
    rw [offshoots, List.nodup_cons, List.nodup_flatMap]
    refine ⟨fun listed => ?_, fun name _ => ih _, ((once route.tip).filter _).imp ?_⟩
    · -- what grows out of a route is longer
      obtain ⟨name, -, below⟩ := List.mem_flatMap.mp listed
      have longer : route.nodes.length + 1 ≤ route.nodes.length :=
        (suffix_of_mem_offshoots below).length_le
      omega
    · intro first second apart last here there
      exact apart (Route.eq_of_extend_suffix (suffix_of_mem_offshoots here)
        (suffix_of_mem_offshoots there))

end PathsTo

/-! ### The ways back from a target -/

/-- A simple way back from a target: the target first, each method followed by one of its callers,
and none twice. -/
structure Index.IsWayBack (index : Index) (target : String) (nodes : List String) : Prop where
  starts : nodes.head? = some target
  linked : nodes.IsChain fun callee caller => caller ∈ (index.callersOf callee).map Ref.name
  simple : nodes.Nodup

variable {index : Index} {target : String} {depth : Int}

/-- The trails of callers that end at a target, read backwards, are the ways back from it. -/
theorem Index.isWayBack_iff (index : Index) (target : String) (nodes : List String) :
    index.IsWayBack target nodes ↔
      IsTrail index.callerNames nodes.reverse ∧ nodes.reverse.getLast? = some target := by
  have linked : nodes.reverse.IsChain (fun late early => late ∈ index.callerNames early) ↔
      nodes.IsChain fun callee caller => caller ∈ (index.callersOf callee).map Ref.name := by
    rw [List.isChain_reverse]
    simp only [Index.callerNames, List.mem_eraseDups]
  rw [List.getLast?_reverse]
  constructor
  · intro way
    exact ⟨⟨linked.mpr way.linked, List.nodup_reverse.mpr way.simple⟩, way.starts⟩
  · rintro ⟨trail, starts⟩
    exact ⟨starts, linked.mp trail.linked, List.nodup_reverse.mp trail.simple⟩

/-- The offshoots of a target are the ways back from it that have few enough calls. -/
theorem Index.mem_offshoots_start_iff (index : Index) (target : String) (most : Nat)
    (nodes : List String) :
    nodes ∈ (PathsTo.offshoots index.callerNames most (.start target)).map
        (fun route => route.nodes.reverse) ↔
      index.IsWayBack target nodes ∧ nodes.length ≤ most + 1 := by
  have start := IsTrail.start index.callerNames target
  rw [List.mem_map, index.isWayBack_iff]
  constructor
  · rintro ⟨route, listed, is⟩
    obtain ⟨added, ends, few, trail⟩ := (PathsTo.mem_offshoots_iff start).mp listed
    subst is
    rw [List.reverse_reverse, List.length_reverse, ends]
    refine ⟨⟨ends ▸ trail, List.getLast?_concat⟩, ?_⟩
    rw [List.length_append]
    exact Nat.succ_le_succ few
  · rintro ⟨⟨trail, ends⟩, few⟩
    obtain ⟨added, is⟩ := List.getLast?_eq_some_iff.mp ends
    have length : nodes.length = added.length + 1 := by
      rw [← List.length_reverse, is, List.length_append, List.length_singleton]
    have some : nodes.reverse ≠ [] := by
      rw [is]
      exact List.append_ne_nil_of_right_ne_nil added (List.cons_ne_nil _ _)
    obtain ⟨first, others, whole⟩ := List.exists_cons_of_ne_nil some
    rw [whole] at trail
    refine ⟨⟨first, others⟩, (PathsTo.mem_offshoots_iff start).mpr ⟨added, ?_, ?_, ?_⟩, ?_⟩
    · exact whole.symm.trans is
    · omega
    · exact trail
    · exact List.reverse_eq_iff.mpr whole.symm

/-- **The loop pops each way once.** To a known target, at every depth and without a cap or a
signal, the rounds of the loop come to an end where the walk ends, and no rounds go on beyond it.
They pop each simple way back from the target of at most so many calls, target first, exactly once
and nothing else; so the walk polls as often as there are such ways. -/
theorem pathsTo_pops_once (known : index.hasMethod target = true) (deep : 1 ≤ depth) :
    ∃ found popped,
      index.pathsTo target depth none .never = .ok found ∧
      PathsTo.Rounds index.callerNames depth.toNat ⟨[.start target], .start target⟩ popped
        ⟨[], found⟩ ∧
      (∀ others last, PathsTo.Rounds index.callerNames depth.toNat
        ⟨[.start target], .start target⟩ others last → others <+: popped) ∧
      (popped.map fun route => route.nodes.reverse).Nodup ∧
      (∀ nodes, nodes ∈ popped.map (fun route => route.nodes.reverse) ↔
        index.IsWayBack target nodes ∧ nodes.length ≤ depth + 1) ∧
      found.polls =
        {nodes : List String | index.IsWayBack target nodes ∧ nodes.length ≤ depth + 1}.ncard := by
  obtain ⟨popped, found, rounds⟩ := PathsTo.exists_rounds index.callerNames depth.toNat
    ⟨[.start target], .start target⟩
  have walked := Index.pathsTo_of_known known deep none .never
  rw [rounds.search_eq, PathsTo.search] at walked
  have offers : PathsTo.offers index.callerNames depth.toNat [.start target] =
      PathsTo.offshoots index.callerNames depth.toNat (.start target) :=
    List.flatMap_singleton _ _
  have isPopped : popped = PathsTo.offshoots index.callerNames depth.toNat (.start target) := by
    rw [← offers, rounds.offers_eq]
    exact (List.append_nil popped).symm
  have once : (popped.map fun route => route.nodes.reverse).Nodup := by
    refine List.Nodup.map (fun first second same => ?_) ?_
    · exact Route.eq_of_nodes_eq (List.reverse_injective same)
    · rw [isPopped]
      exact PathsTo.nodup_offshoots index.nodup_callerNames _ _
  have ways : ∀ nodes, nodes ∈ popped.map (fun route => route.nodes.reverse) ↔
      index.IsWayBack target nodes ∧ nodes.length ≤ depth + 1 := by
    intro nodes
    rw [isPopped, index.mem_offshoots_start_iff]
    refine and_congr_right fun _ => ?_
    omega
  refine ⟨found, popped, walked, rounds, fun others last run => ?_, once, ways, ?_⟩
  · rw [isPopped, ← offers, run.offers_eq]
    exact List.prefix_append _ _
  · have polls : found.polls = popped.length := rounds.polls_eq.trans (Nat.zero_add _)
    have all : {nodes : List String | index.IsWayBack target nodes ∧ nodes.length ≤ depth + 1} =
        ((popped.map fun route => route.nodes.reverse).toFinset : Set (List String)) := by
      ext nodes
      rw [Finset.mem_coe, List.mem_toFinset, ways]
      rfl
    rw [polls, all, Set.ncard_coe_finset, List.toFinset_card_of_nodup once, List.length_map]

theorem stockIndex_pops_take :
    stockIndex.hasMethod "Shop.Stock.Take" = true ∧
      ∃ found popped,
        stockIndex.pathsTo "Shop.Stock.Take" 1000000 none .never = .ok found ∧
        PathsTo.Rounds stockIndex.callerNames 1000000
          ⟨[.start "Shop.Stock.Take"], .start "Shop.Stock.Take"⟩ popped ⟨[], found⟩ ∧
        found.polls = 6 ∧
        ["Shop.Stock.Take", "Shop.Order.Price", "Web.Cart.Open"] ∈
          popped.map (fun route => route.nodes.reverse) := by
  have known : stockIndex.hasMethod "Shop.Stock.Take" = true := by decide
  have deep : (1 : Int) ≤ 1000000 := by decide
  obtain ⟨found, popped, walked, rounds, -, -, ways, -⟩ := pathsTo_pops_once known deep
  have six : found.polls = 6 := by
    have listed := stockIndex.pathsTo_eq_replay "Shop.Stock.Take" deep none .never
    rw [Except.ok.inj (walked.symm.trans listed)]
    decide
  refine ⟨known, found, popped, walked, rounds, six, (ways _).mpr ⟨⟨rfl, ?_, by decide⟩, ?_⟩⟩
  · decide
  · decide

end CallGraph
