/-
**The path between two methods is the first of the shortest.**

At each method its callees are ranked in the order of their first call, and `ranks` lists the ranks
of the steps of a path. Paths of one length are compared by these lists, lexicographically.

The routes in line after a round (`Link.wave`) ascend in this order, since each round puts the
unmarked callees of its routes in line route by route (`Link.pairwise_wave`). A method is therefore
met by the first route that leads to it (`Link.mem_grow_first`), and the route in line to a method
comes before every other way of its length (`Link.eq_or_ranks_lt`).

* `link_first_shortest`: the path between two methods is missing exactly when no call path is short
  enough, and otherwise comes first among the shortest call paths.
-/

import CallGraph.Proofs.Calls
import CallGraph.Proofs.Walk.DepthFirst

namespace CallGraph

/-! ### Ranks -/

/-- The rank of each step of a path among the neighbours of the method that it starts from. -/
def ranks (next : String → List String) : List String → List Nat
  | first :: second :: rest => (next first).idxOf second :: ranks next (second :: rest)
  | _ => []

section Ranks

variable {next : String → List String}

theorem length_ranks (next : String → List String) (path : List String) :
    (ranks next path).length = path.length - 1 := by
  induction path with
  | nil => rfl
  | cons first rest ih =>
    cases rest with
    | nil => rfl
    | cons second rest => rw [ranks, List.length_cons, ih]; rfl

theorem ranks_concat {path : List String} {last : String} (ends : path.getLast? = some last)
    (name : String) :
    ranks next (path ++ [name]) = ranks next path ++ [(next last).idxOf name] := by
  induction path with
  | nil => cases ends
  | cons first rest ih =>
    cases rest with
    | nil =>
      obtain rfl := Option.some.inj ends
      rfl
    | cons second rest =>
      have later := ih (List.getLast?_cons_cons.symm.trans ends)
      rw [List.cons_append, List.cons_append, ranks, ← List.cons_append, later, ranks,
        List.cons_append]

/-- Lists of one length stay in their order whatever is put behind them. -/
theorem concat_lt_concat {first second : List Nat} (less : first < second)
    (even : first.length = second.length) (a b : Nat) : first ++ [a] < second ++ [b] := by
  induction less with
  | nil => cases even
  | cons _ ih => exact .cons (ih (Nat.succ.inj even))
  | rel less => exact .rel less

/-- The members of a list without doubles are ranked in their order. -/
theorem pairwise_idxOf {names : List String} (once : names.Nodup) :
    names.Pairwise fun first second => names.idxOf first < names.idxOf second := by
  rw [List.pairwise_iff_getElem]
  intro i j inside insideToo less
  rw [once.idxOf_getElem i inside, once.idxOf_getElem j insideToo]
  exact less

/-- The ranks along a route, from its start on. -/
def Route.ranks (next : String → List String) (route : Route) : List Nat :=
  CallGraph.ranks next route.nodes.reverse

theorem Route.ranks_extend (route : Route) (name : String) :
    (route.extend name).ranks next = route.ranks next ++ [(next route.tip).idxOf name] := by
  have tip : route.nodes.reverse.getLast? = some route.tip := by
    rw [List.getLast?_reverse]
    rfl
  rw [Route.ranks, Route.ranks, ← ranks_concat tip name, ← List.reverse_cons]
  rfl

theorem Route.length_ranks (route : Route) : (route.ranks next).length = route.hops := by
  rw [Route.ranks, CallGraph.length_ranks, List.length_reverse]
  rfl

end Ranks

/-! ### The routes in line, in order -/

namespace Link

variable {next : String → List String} {source : String}

/-- A route that comes before another does so after a further step of each. -/
theorem ranks_extend_lt {first second : Route} (less : first.ranks next < second.ranks next)
    (even : first.hops = second.hops) (a b : String) :
    (first.extend a).ranks next < (second.extend b).ranks next := by
  rw [Route.ranks_extend, Route.ranks_extend]
  refine concat_lt_concat less ?_ _ _
  rw [Route.length_ranks, Route.length_ranks, even]

/-- Routes in order put routes in line in order. -/
theorem pairwise_grow (once : ∀ name, (next name).Nodup) {depth : Nat} {marked : List String}
    {routes : List Route} (even : ∀ route ∈ routes, route.hops = depth)
    (ordered : routes.Pairwise fun first second => first.ranks next < second.ranks next) :
    (grow next marked routes).Pairwise fun first second =>
      first.ranks next < second.ranks next := by
  induction routes generalizing marked with
  | nil => exact List.Pairwise.nil
  | cons route rest ih =>
    obtain ⟨before, ordered⟩ := List.pairwise_cons.mp ordered
    have evenRest : ∀ other ∈ rest, other.hops = depth :=
      fun other listed => even other (List.mem_cons_of_mem _ listed)
    rw [grow]
    refine List.pairwise_append.mpr ⟨?_, ih evenRest ordered, ?_⟩
    · -- the steps from one route are ranked by its own tip
      rw [List.pairwise_map]
      refine ((pairwise_idxOf (once route.tip)).sublist (unmarked_sublist next marked _)).imp ?_
      intro first second less
      rw [Route.ranks_extend, Route.ranks_extend]
      exact List.Lex.append_left _ (.rel less) _
    · intro here isHere later isLater
      obtain ⟨first, -, rfl⟩ := List.mem_map.mp isHere
      obtain ⟨other, listed, second, -, -, rfl⟩ := mem_grow isLater
      refine ranks_extend_lt (before other listed) ?_ first second
      rw [even route List.mem_cons_self, evenRest other listed]

/-- **The routes in line ascend.** -/
theorem pairwise_wave (once : ∀ name, (next name).Nodup) (rounds : Nat) :
    (wave next source rounds).Pairwise fun first second =>
      first.ranks next < second.ranks next := by
  induction rounds with
  | zero => exact List.pairwise_singleton _ _
  | succ rounds ih => exact pairwise_grow once (fun route listed => (mem_wave listed).1) ih

/-- A name is met by the first route that leads to it. -/
theorem mem_grow_first {marked : List String} {routes : List Route} {grown : Route}
    (ordered : routes.Pairwise fun first second => first.ranks next < second.ranks next)
    (listed : grown ∈ grow next marked routes) :
    ∃ route ∈ routes, ∃ name, name ∉ marked ∧ grown = route.extend name ∧
      ∀ other ∈ routes, name ∈ next other.tip →
        other = route ∨ route.ranks next < other.ranks next := by
  induction routes generalizing marked with
  | nil => exact (List.not_mem_nil listed).elim
  | cons route rest ih =>
    obtain ⟨before, ordered⟩ := List.pairwise_cons.mp ordered
    rcases List.mem_append.mp listed with here | later
    · obtain ⟨name, open_, rfl⟩ := List.mem_map.mp here
      obtain ⟨-, new⟩ := List.mem_filter.mp open_
      refine ⟨route, List.mem_cons_self, name, by simpa using new, rfl, fun other isOther _ => ?_⟩
      rcases List.mem_cons.mp isOther with same | isLater
      · exact Or.inl same
      · exact Or.inr (before other isLater)
    · obtain ⟨parent, isParent, name, new, is, first⟩ := ih ordered later
      refine ⟨parent, List.mem_cons_of_mem _ isParent, name,
        fun met => new (List.mem_append_left _ met), is, fun other isOther leads => ?_⟩
      rcases List.mem_cons.mp isOther with rfl | isLater
      · -- a route before would have marked the name
        refine absurd (List.mem_append_right _ (List.mem_filter.mpr ⟨leads, ?_⟩)) new
        simpa using fun met => new (List.mem_append_left _ met)
      · exact first other isLater leads

end Link

/-! ### The route in line against every other way -/

/-- A way from a source: each method on it is a neighbour of the one before. -/
structure Route.From (next : String → List String) (source : String) (route : Route) : Prop where
  linked : route.nodes.IsChain fun late early => late ∈ next early
  starts : route.nodes.getLast? = some source

section From

variable {next : String → List String} {source : String} {route : Route}

/-- A way has not left its source, or is a shorter way with one more step. -/
theorem Route.From.eq_start_or_extend (leaves : route.From next source) :
    route = .start source ∨ ∃ (before : Route) (name : String), before.From next source ∧
      name ∈ next before.tip ∧ route = before.extend name := by
  obtain ⟨tip, trail⟩ := route
  cases trail with
  | nil =>
    obtain rfl := Option.some.inj leaves.starts
    exact Or.inl rfl
  | cons early rest =>
    obtain ⟨leads, linked⟩ := List.isChain_cons_cons.mp leaves.linked
    have starts := List.getLast?_cons_cons.symm.trans leaves.starts
    exact Or.inr ⟨⟨early, rest⟩, tip, ⟨linked, starts⟩, leads, rfl⟩

theorem Route.From.steps (leaves : route.From next source) :
    Steps next route.hops source route.tip := by
  obtain ⟨tip, trail⟩ := route
  induction trail generalizing tip with
  | nil =>
    obtain rfl := Option.some.inj leaves.starts
    exact .refl tip
  | cons early rest ih =>
    obtain ⟨leads, linked⟩ := List.isChain_cons_cons.mp leaves.linked
    have starts := List.getLast?_cons_cons.symm.trans leaves.starts
    exact .step (ih early ⟨linked, starts⟩) leads

/-- **The route in line comes first** among the ways of its length to its tip. -/
theorem Link.eq_or_ranks_lt (once : ∀ name, (next name).Nodup) {rounds : Nat} {other : Route}
    (listed : route ∈ wave next source rounds) (leaves : other.From next source)
    (even : other.hops = rounds) (meets : other.tip = route.tip) :
    other = route ∨ route.ranks next < other.ranks next := by
  induction rounds generalizing route other with
  | zero =>
    obtain rfl : route = .start source := List.mem_singleton.mp listed
    rcases leaves.eq_start_or_extend with same | ⟨before, name, -, -, rfl⟩
    · exact Or.inl same
    · cases even
  | succ rounds ih =>
    obtain ⟨parent, isParent, name, new, rfl, first⟩ :=
      mem_grow_first (pairwise_wave once rounds) listed
    rcases leaves.eq_start_or_extend with rfl | ⟨before, step, isWay, leads, rfl⟩
    · cases even
    obtain rfl : step = name := meets
    have short : before.hops = rounds := Nat.succ.inj even
    -- up to its last step the way is shortest, or the name would have been met before
    have near : Nearest next rounds source before.tip := by
      refine ⟨short ▸ isWay.steps, fun calls walk => ?_⟩
      by_contra fewer
      exact new (mem_ball_iff.mpr ⟨calls + 1, by omega, .step walk leads⟩)
    have inLine : before.tip ∈ (wave next source rounds).map Route.tip := by
      rw [map_tip_wave once]
      exact mem_sphere_iff.mpr near
    obtain ⟨lined, isLined, tip⟩ := List.mem_map.mp inLine
    have ahead := first lined isLined (tip ▸ leads)
    have behind := ih isLined isWay short tip.symm
    have level : parent.hops = before.hops := (mem_wave isParent).1.trans short.symm
    rcases ahead with rfl | less
    · rcases behind with rfl | less
      · exact Or.inl rfl
      · exact Or.inr (ranks_extend_lt less level step step)
    · have all : parent.ranks next < before.ranks next := by
        rcases behind with rfl | more
        · exact less
        · exact List.lt_trans less more
      exact Or.inr (ranks_extend_lt all level step step)

end From

/-! ### Call paths of an index -/

variable {index : Index} {source target : String} {depth : Int}

/-- A call path: each method on it calls the next. -/
structure Index.IsCallPath (index : Index) (source target : String) (path : List String) :
    Prop where
  linked : path.IsChain index.Calls
  starts : path.head? = some source
  ends : path.getLast? = some target

/-- **The first of the shortest** call paths: it meets no method twice, no other is shorter, and
every other one of its length goes on to a callee of higher rank where the two part. -/
structure Index.IsFirstShortest (index : Index) (source target : String) (path : List String) :
    Prop where
  isPath : index.IsCallPath source target path
  simple : path.Nodup
  shortest : ∀ other, index.IsCallPath source target other → path.length ≤ other.length
  first : ∀ other, index.IsCallPath source target other → other.length = path.length →
    other ≠ path → ranks index.calleeNames path < ranks index.calleeNames other

/-- There is only one first of the shortest call paths. -/
theorem Index.IsFirstShortest.unique {path other : List String}
    (isFirst : index.IsFirstShortest source target path)
    (isFirstToo : index.IsFirstShortest source target other) : path = other := by
  have even : path.length = other.length :=
    Nat.le_antisymm (isFirst.shortest other isFirstToo.isPath)
      (isFirstToo.shortest path isFirst.isPath)
  by_contra differ
  have before := isFirst.first other isFirstToo.isPath even.symm fun same => differ same.symm
  have after := isFirstToo.first path isFirst.isPath even differ
  exact List.lt_irrefl _ (List.lt_trans before after)

/-- A call path is a way along callees, read from its source on. -/
theorem Index.isCallPath_iff {path : List String} :
    index.IsCallPath source target path ↔
      ∃ route : Route, route.From index.calleeNames source ∧ route.tip = target ∧
        path = route.nodes.reverse := by
  have calls : ∀ caller callee, index.Calls caller callee ↔ callee ∈ index.calleeNames caller :=
    fun _ _ => mem_calleeNames_iff_calls.symm
  constructor
  · intro isPath
    have ends : path.reverse.head? = some target := List.head?_reverse.trans isPath.ends
    obtain ⟨rest, nodes⟩ := List.head?_eq_some_iff.mp ends
    refine ⟨⟨target, rest⟩, ⟨?_, ?_⟩, rfl, ?_⟩
    · show (target :: rest).IsChain _
      rw [← nodes, List.isChain_reverse]
      exact isPath.linked.imp fun caller callee => (calls caller callee).mp
    · show (target :: rest).getLast? = some source
      rw [← nodes, List.getLast?_reverse]
      exact isPath.starts
    · show path = (target :: rest).reverse
      rw [← nodes, List.reverse_reverse]
  · rintro ⟨route, leaves, rfl, rfl⟩
    refine ⟨?_, ?_, ?_⟩
    · rw [List.isChain_reverse]
      exact leaves.linked.imp fun callee caller => (calls caller callee).mpr
    · rw [List.head?_reverse]
      exact leaves.starts
    · rw [List.getLast?_reverse]
      rfl

/-- A call path of few calls stays within reach. -/
theorem Index.IsCallPath.mem_ball {path : List String}
    (isPath : index.IsCallPath source target path) (short : path.length ≤ depth + 1) :
    target ∈ ball index.calleeNames source depth.toNat := by
  obtain ⟨route, leaves, rfl, rfl⟩ := isCallPath_iff.mp isPath
  refine mem_ball_iff.mpr ⟨route.hops, ?_, leaves.steps⟩
  have length : route.nodes.reverse.length = route.hops + 1 := List.length_reverse
  omega

/-- The route in line to a method is the first of the shortest call paths. -/
theorem Index.isFirstShortest_of_mem_wave {rounds : Nat} {route : Route}
    (listed : route ∈ Link.wave index.calleeNames source rounds) :
    index.IsFirstShortest source route.tip route.nodes.reverse := by
  obtain ⟨hops, shortest⟩ := Link.mem_wave listed
  refine ⟨isCallPath_iff.mpr ⟨route, ⟨shortest.linked, shortest.starts⟩, rfl, rfl⟩,
    List.nodup_reverse.mpr shortest.simple, fun other isPath => ?_,
    fun other isPath even differs => ?_⟩
  · obtain ⟨way, leaves, tip, rfl⟩ := isCallPath_iff.mp isPath
    have least := shortest.near.least way.hops (tip ▸ leaves.steps)
    rw [List.length_reverse, List.length_reverse]
    exact Nat.succ_le_succ least
  · obtain ⟨way, leaves, tip, rfl⟩ := isCallPath_iff.mp isPath
    rw [List.length_reverse, List.length_reverse] at even
    have level : way.hops = rounds := (Nat.succ.inj even).trans hops
    rcases Link.eq_or_ranks_lt index.nodup_calleeNames listed leaves level tip with rfl | less
    · exact absurd rfl differs
    · exact less

/-- **The path between two methods.** For two known methods, at every depth and without a signal,
there is no path exactly when every call path from the source to the target has more calls than the
depth allows, and otherwise the path is the first of the shortest call paths. -/
theorem link_first_shortest (sourceKnown : index.hasMethod source = true)
    (targetKnown : index.hasMethod target = true) (differ : source ≠ target) (deep : 1 ≤ depth) :
    ∃ link, index.link source target depth .never = .ok link ∧
      (link.path = [] ↔
        ¬ ∃ path, index.IsCallPath source target path ∧ path.length ≤ depth + 1) ∧
      (link.path ≠ [] → index.IsFirstShortest source target link.path) := by
  refine ⟨_, index.link_of_known sourceKnown targetKnown differ deep .never, ?_⟩
  rcases Link.search_wave index.nodup_calleeNames depth.toNat differ rfl with
    ⟨away, none⟩ | ⟨last, most, route, listed, rfl, path⟩
  · rw [none]
    refine ⟨iff_of_true rfl ?_, fun some => absurd rfl some⟩
    rintro ⟨other, isPath, short⟩
    exact away (isPath.mem_ball short)
  · have isFirst := index.isFirstShortest_of_mem_wave listed
    rw [path]
    refine ⟨iff_of_false ?_ ?_, fun _ => isFirst⟩
    · exact fun empty => List.cons_ne_nil _ _ (List.reverse_eq_nil_iff.mp empty)
    · refine fun none => none ⟨_, isFirst.isPath, ?_⟩
      have length : route.nodes.reverse.length = route.hops + 1 := List.length_reverse
      have hops := (Link.mem_wave listed).1
      omega

theorem stockIndex_link_open_take :
    stockIndex.hasMethod "Web.Cart.Open" = true ∧ stockIndex.hasMethod "Shop.Stock.Take" = true ∧
      ∃ link, stockIndex.link "Web.Cart.Open" "Shop.Stock.Take" 3 .never = .ok link ∧
        link.path = ["Web.Cart.Open", "Shop.Order.Place", "Shop.Stock.Take"] ∧
        stockIndex.IsFirstShortest "Web.Cart.Open" "Shop.Stock.Take" link.path := by
  have sourceKnown : stockIndex.hasMethod "Web.Cart.Open" = true := by decide
  have targetKnown : stockIndex.hasMethod "Shop.Stock.Take" = true := by decide
  have deep : (1 : Int) ≤ 3 := by decide
  obtain ⟨link, joined, missing, first⟩ :=
    link_first_shortest sourceKnown targetKnown (by decide) deep
  have lined : (⟨"Shop.Stock.Take", ["Shop.Order.Place", "Web.Cart.Open"]⟩ : Route) ∈
      Link.wave stockIndex.calleeNames "Web.Cart.Open" 2 := by decide
  have isFirst := stockIndex.isFirstShortest_of_mem_wave lined
  have found : link.path ≠ [] := fun none =>
    missing.mp none ⟨_, isFirst.isPath, by decide⟩
  exact ⟨sourceKnown, targetKnown, link, joined, (first found).unique isFirst, first found⟩

end CallGraph
