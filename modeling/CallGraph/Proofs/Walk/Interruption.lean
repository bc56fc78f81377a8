/-
**What a signal does to a walk.**

A signal that lets a number of polls pass ends a walk at its next poll, unless the walk has ended by
then. Either way the walk does up to there what it does without a signal: a walk that makes no more
polls than are let pass is the whole walk, and any other is the whole walk broken off after that
many steps. Each walk has one lemma that says so from any point on, by the recursion of the walk:
`PathsTo.replay_after`, `Reach.cutShort_search` and `Link.search_after`. What was found before stays
found, so a walk that is broken off has the first of all findings, and the walk between two methods,
which has nothing to show before its end, has none.

* `pathsTo_interrupted`: the walk to a method under every cap and every number of polls let pass;
* `walks_interrupted`: the walk over the methods within reach, and the walk between two methods.
-/

import CallGraph.Proofs.Walk.Cap
import CallGraph.Proofs.Walk.Depths

namespace CallGraph

theorem Signal.after_self (allowed : Nat) : Signal.after allowed allowed = true :=
  decide_eq_true (Nat.le_refl allowed)

theorem Signal.not_after {allowed poll : Nat} (early : poll < allowed) :
    ¬ Signal.after allowed poll = true :=
  fun stopped => absurd (of_decide_eq_true stopped) (Nat.not_le.mpr early)

/-! ### The walk to a method -/

namespace PathsTo

variable {cap : Option Int} {signal : Signal} {allowed : Nat}

theorem polls_le_replay (events : List (Option CallPath)) (result : PathsTo) :
    result.polls ≤ (replay cap signal events result).polls := by
  fun_induction replay cap signal events result with
  | case1 result => exact Nat.le_refl _
  | case2 result event rest stopped => exact Nat.le_succ _
  | case3 result rest goes ih => exact Nat.le_of_succ_le ih
  | case4 result rest goes path full => exact Nat.le_succ _
  | case5 result rest goes path roomy ih => exact Nat.le_of_succ_le ih

theorem polls_lt_replay (event : Option CallPath) (rest : List (Option CallPath))
    (result : PathsTo) :
    result.polls < (replay cap .never (event :: rest) result).polls := by
  cases event with
  | none =>
    rw [replay_pass]
    exact polls_le_replay rest result.polled
  | some path =>
    by_cases full : (result.polled.report path).isFull cap = true
    · rw [replay_full full]
      exact Nat.lt_succ_self _
    · rw [replay_roomy full]
      exact polls_le_replay rest (result.polled.report path)

/-- **A signal that lets polls pass**, from any point on: the walk is the whole one if that makes no
more polls, and otherwise does what is listed for the polls that are left, without any cap. -/
theorem replay_after (events : List (Option CallPath)) (result : PathsTo)
    (passed : result.polls ≤ allowed) :
    replay cap (.after allowed) events result =
      if (replay cap .never events result).polls ≤ allowed then replay cap .never events result
      else { replay none .never (events.take (allowed - result.polls)) result with
        cancelled := true
        polls := allowed + 1 } := by
  induction events generalizing result with
  | nil =>
    rw [replay, replay]
    exact (if_pos passed).symm
  | cons event rest ih =>
    rcases Nat.eq_or_lt_of_le passed with spent | early
    · -- the next poll is not let pass, and the whole walk makes it
      have more : result.polls < (replay cap .never (event :: rest) result).polls :=
        polls_lt_replay event rest result
      subst spent
      rw [replay_of_signal (Signal.after_self _), if_neg (Nat.not_le.mpr more), Nat.sub_self,
        List.take_zero, replay]
      rfl
    · have left : allowed - result.polls = (allowed - (result.polls + 1)) + 1 := by omega
      rw [left, List.take_succ_cons]
      cases event with
      | none =>
        rw [replay, if_neg (Signal.not_after early), replay_pass, replay_pass]
        exact ih result.polled early
      | some path =>
        rw [replay, if_neg (Signal.not_after early), replay_roomy (not_isFull_none _)]
        dsimp only
        by_cases full : (result.polled.report path).isFull cap = true
        · rw [if_pos full, replay_full full]
          exact (if_pos early).symm
        · rw [if_neg full, replay_roomy full]
          exact ih (result.polled.report path) early

theorem isPrefix_untilFull (room : Nat) (events : List (Option CallPath)) :
    untilFull room events <+: events := by
  fun_induction untilFull room events with
  | case1 events => exact List.nil_prefix
  | case2 room => exact List.prefix_rfl
  | case3 room rest ih => exact List.cons_prefix_cons.mpr ⟨rfl, ih⟩
  | case4 room path rest ih => exact List.cons_prefix_cons.mpr ⟨rfl, ih⟩

/-- Without a signal the walk does the first things that are listed, one for each poll. -/
theorem paths_replay_never (cap : Option Int) (events : List (Option CallPath)) (target : String) :
    (replay cap .never events (start target)).paths =
      (events.take (replay cap .never events (start target)).polls).filterMap id := by
  cases cap with
  | none =>
    rw [replay_never]
    simp [paths, start]
  | some most =>
    have done := List.prefix_iff_eq_take.mp (isPrefix_untilFull (max most 1).toNat events)
    rw [replay_capped_start, replay_never]
    simp [paths, start, ← done]

/-- **The paths of a walk that is broken off**: those listed for the polls that it lets pass. -/
theorem paths_replay_after (cap : Option Int) (events : List (Option CallPath)) (target : String)
    (allowed : Nat) :
    (replay cap (.after allowed) events (start target)).paths =
      (events.take (min allowed (replay cap .never events (start target)).polls)).filterMap id := by
  rw [replay_after events (start target) (Nat.zero_le allowed)]
  split
  · rename_i enough
    rw [Nat.min_eq_right enough, paths_replay_never]
  · rename_i short
    rw [Nat.min_eq_left (by omega), replay_never]
    simp [paths, start]

end PathsTo

variable {depth : Int}

/-- **The walk to a method under a signal**, at every depth and under every cap. A signal that lets
as many polls pass as the whole walk makes changes nothing. With fewer the walk says that it was
cancelled, and not that its limit was reached; it has polled once more than was let pass, its paths
are the first of the whole walk, and it says that the depth was reached exactly when one of these is
truncated. The more polls are let pass, the more of the paths there are. -/
theorem pathsTo_interrupted (index : Index) (target : String) (deep : 1 ≤ depth)
    (cap : Option Int) :
    ∃ (whole : PathsTo) (cut : Nat → PathsTo),
      index.pathsTo target depth cap .never = .ok whole ∧
      (∀ allowed, index.pathsTo target depth cap (.after allowed) = .ok (cut allowed)) ∧
      (∀ allowed, whole.polls ≤ allowed → cut allowed = whole) ∧
      (∀ allowed, allowed < whole.polls →
        (cut allowed).cancelled = true ∧ (cut allowed).limitReached = false ∧
        (cut allowed).polls = allowed + 1 ∧ (cut allowed).paths <+: whole.paths ∧
        ((cut allowed).depthReached = true ↔
          ∃ path ∈ (cut allowed).paths, path.truncated = true)) ∧
      ∀ fewer more, fewer ≤ more → (cut fewer).paths <+: (cut more).paths := by
  have walked := index.pathsTo_eq_replay target deep cap
  generalize index.pathEvents target depth.toNat = events at walked
  refine ⟨_, _, walked .never, fun allowed => walked (.after allowed), ?_, ?_, ?_⟩
  · intro allowed enough
    rw [PathsTo.replay_after events _ (Nat.zero_le allowed), if_pos enough]
  · intro allowed short
    have first := PathsTo.paths_replay_after cap events target allowed
    rw [PathsTo.paths_replay_never]
    rw [Nat.min_eq_left (by omega)] at first
    rw [first, PathsTo.replay_after events _ (Nat.zero_le allowed), if_neg (by omega),
      PathsTo.replay_never]
    refine ⟨rfl, rfl, rfl, ?_, ?_⟩
    · exact (List.take_prefix_take_left (Nat.le_of_lt short)).filterMap id
    · show (false || List.any _ _) = true ↔ _
      rw [Bool.false_or, List.any_eq_true]
      rfl
  · intro fewer more less
    simp only [PathsTo.paths_replay_after]
    exact (List.take_prefix_take_left (by omega)).filterMap id

theorem stockIndex_interrupted :
    ∃ (whole : PathsTo) (cut : Nat → PathsTo),
      stockIndex.pathsTo "Shop.Stock.Take" 2 (some 2) .never = .ok whole ∧
      (∀ allowed, stockIndex.pathsTo "Shop.Stock.Take" 2 (some 2) (.after allowed) =
        .ok (cut allowed)) ∧
      whole.polls = 5 ∧ whole.limitReached = true ∧ cut 5 = whole ∧
      (cut 4).cancelled = true ∧ (cut 4).limitReached = false ∧ (cut 4).polls = 5 ∧
      (cut 2).paths <+: (cut 4).paths ∧ (cut 4).paths <+: whole.paths := by
  have deep : (1 : Int) ≤ 2 := by decide
  obtain ⟨whole, cut, walked, walkedCut, same, short, grows⟩ :=
    pathsTo_interrupted stockIndex "Shop.Stock.Take" deep (some 2)
  have listed := stockIndex.pathsTo_eq_replay "Shop.Stock.Take" deep (some 2) .never
  have is := Except.ok.inj (walked.symm.trans listed)
  have five : whole.polls = 5 := by
    rw [is]
    decide
  have limited : whole.limitReached = true := by
    rw [is]
    decide
  obtain ⟨cancelled, unlimited, polls, first, -⟩ := short 4 (by omega)
  exact ⟨whole, cut, walked, walkedCut, five, limited, same 5 (by omega), cancelled, unlimited,
    polls, grows 2 4 (by decide), first⟩

/-! ### The methods within reach -/

namespace Reach

variable {next : String → List String} {maxDepth allowed depth : Nat} {signal : Signal}
  {name : String} {result : Reach}

/-- What was polled and visited stays so. -/
structure Keeps (earlier later : Reach) : Prop where
  polls : earlier.polls ≤ later.polls
  visits : earlier.visits.toList <+: later.visits.toList

theorem Keeps.trans {first second third : Reach} (early : first.Keeps second)
    (late : second.Keeps third) : first.Keeps third :=
  ⟨Nat.le_trans early.polls late.polls, early.visits.trans late.visits⟩

theorem keeps_polled (result : Reach) : result.Keeps result.polled :=
  ⟨Nat.le_succ _, List.prefix_rfl⟩

theorem keeps_visit (result : Reach) (name : String) (depth : Nat) :
    result.polled.Keeps (result.polled.visit name depth) := by
  refine ⟨Nat.le_refl _, ?_⟩
  show result.visits.toList <+: (result.visits.push (name, depth)).toList
  rw [Array.toList_push]
  exact List.prefix_append _ _

theorem keeps_search (line : List (String × Nat)) (result : Reach) :
    result.Keeps (search next maxDepth signal line result) := by
  fun_induction search next maxDepth signal line result with
  | case1 result => exact ⟨Nat.le_refl _, List.prefix_rfl⟩
  | case2 result name depth rest stopped => exact ⟨Nat.le_succ _, List.prefix_rfl⟩
  | case3 result name depth rest goes old ih => exact result.keeps_polled.trans ih
  | case4 result name depth rest goes new visited deeper added ih =>
    exact result.keeps_polled.trans ((result.keeps_visit name depth).trans ih)
  | case5 result name depth rest goes new visited last ih =>
    exact result.keeps_polled.trans ((result.keeps_visit name depth).trans ih)

theorem cancelled_search_never (line : List (String × Nat)) (result : Reach) :
    (search next maxDepth .never line result).cancelled = result.cancelled := by
  fun_induction search next maxDepth .never line result with
  | case1 result => rfl
  | case2 result name depth rest stopped => exact absurd stopped (Signal.not_never _)
  | case3 result name depth rest goes old ih => exact ih
  | case4 result name depth rest goes new visited deeper added ih => exact ih
  | case5 result name depth rest goes new visited last ih => exact ih

/-- What a walk has of the whole walk when a signal lets a number of polls pass. -/
structure CutShort (allowed : Nat) (whole cut : Reach) : Prop where
  same : whole.polls ≤ allowed → cut = whole
  cancelled : allowed < whole.polls → cut.cancelled = true
  visits : cut.visits.toList <+: whole.visits.toList

/-- A walk with no poll left to pass ends with what it has. -/
theorem cutShort_of_spent {whole : Reach} (keeps : result.polled.Keeps whole)
    (entry : String × Nat) (rest : List (String × Nat)) :
    CutShort result.polls whole
      (search next maxDepth (.after result.polls) (entry :: rest) result) := by
  rw [search, if_pos (Signal.after_self _)]
  exact ⟨fun enough => absurd keeps.polls (Nat.not_le.mpr (Nat.lt_succ_of_le enough)),
    fun _ => rfl, keeps.visits⟩

/-- **A signal that lets polls pass**, from any point on. -/
theorem cutShort_search (line : List (String × Nat)) (result : Reach)
    (passed : result.polls ≤ allowed) :
    CutShort allowed (search next maxDepth .never line result)
      (search next maxDepth (.after allowed) line result) := by
  fun_induction search next maxDepth .never line result with
  | case1 result =>
    rw [search]
    exact ⟨fun _ => rfl, fun short => absurd passed (Nat.not_le.mpr short), List.prefix_rfl⟩
  | case2 result name depth rest stopped => exact absurd stopped (Signal.not_never _)
  | case3 result name depth rest goes old ih =>
    rcases Nat.eq_or_lt_of_le passed with rfl | early
    · exact cutShort_of_spent (keeps_search rest _) _ rest
    · rw [search, if_neg (Signal.not_after early), if_pos old]
      exact ih early
  | case4 result name depth rest goes new visited deeper added ih =>
    rcases Nat.eq_or_lt_of_le passed with rfl | early
    · exact cutShort_of_spent ((result.keeps_visit name depth).trans (keeps_search _ _)) _ rest
    · rw [search, if_neg (Signal.not_after early), if_neg new, if_pos deeper]
      exact ih early
  | case5 result name depth rest goes new visited last ih =>
    rcases Nat.eq_or_lt_of_le passed with rfl | early
    · exact cutShort_of_spent ((result.keeps_visit name depth).trans (keeps_search _ _)) _ rest
    · rw [search, if_neg (Signal.not_after early), if_neg new, if_neg last]
      exact ih early

/-- What is within reach is the first part of all that is. -/
theorem CutShort.reachable_prefix {whole cut : Reach} (short : CutShort allowed whole cut)
    (ordered : whole.visits.toList.Pairwise fun first second => first.2 ≤ second.2) :
    cut.reachable <+: whole.reachable := by
  rw [reachable_of_pairwise ordered, reachable_of_pairwise (ordered.sublist short.visits.sublist)]
  exact short.visits.map Prod.fst

theorem CutShort.cancelled_iff {whole cut : Reach} (short : CutShort allowed whole cut)
    (quiet : whole.cancelled = false) : cut.cancelled = true ↔ allowed < whole.polls := by
  refine ⟨fun cancelled => ?_, short.cancelled⟩
  by_contra enough
  rw [short.same (Nat.not_lt.mp enough), quiet] at cancelled
  cases cancelled

/-- A walk that visits methods at their distances only has each of them at that depth, in the level
of that depth and in no other. -/
theorem depth_of_nearest {start : String}
    (near : ∀ name hops, (name, hops) ∈ result.visits.toList → Nearest next hops start name)
    (listed : name ∈ result.reachable) :
    ∃ hops, Nearest next hops start name ∧ result.depthOf? name = some hops ∧
      ∀ level, name ∈ result.level level ↔ level = hops := by
  obtain ⟨⟨other, hops⟩, visited, is⟩ := List.mem_map.mp ((result.mem_reachable_iff name).mp listed)
  obtain rfl : other = name := is
  have once : ∀ {level}, (other, level) ∈ result.visits.toList → level = hops :=
    fun again => (near _ _ again).unique (near _ _ visited)
  refine ⟨hops, near _ _ visited, ?_, fun level => ?_⟩
  · exact (depthOf?_eq_some_iff fun first second here there =>
      (once here).trans (once there).symm).mpr visited
  · rw [mem_level_iff]
    exact ⟨once, fun same => same ▸ visited⟩

end Reach

/-! ### The walk between two methods -/

namespace Link

variable {next : String → List String} {maxDepth allowed : Nat} {target : String}
  {signal : Signal}

theorem polls_le_search (line : List Route) (marked : List String) (polls : Nat) :
    polls ≤ (search next maxDepth target signal line marked polls).polls := by
  fun_induction search next maxDepth target signal line marked polls with
  | case1 marked polls => exact Nat.le_refl _
  | case2 marked polls route rest stopped => exact Nat.le_succ _
  | case3 marked polls route rest goes cut ih => exact Nat.le_of_succ_le ih
  | case4 marked polls route rest goes uncut found => exact Nat.le_succ _
  | case5 marked polls route rest goes uncut missed fresh ih => exact Nat.le_of_succ_le ih

/-- A walk with no poll left to pass ends without a path. -/
theorem search_of_spent {whole : Link} {polls : Nat} (more : polls < whole.polls) (route : Route)
    (rest : List Route) (marked : List String) :
    search next maxDepth target (.after polls) (route :: rest) marked polls =
      if whole.polls ≤ polls then whole else ⟨[], polls + 1⟩ := by
  rw [search, if_pos (Signal.after_self _), if_neg (Nat.not_le.mpr more)]

/-- **A signal that lets polls pass**, from any point on: the walk is the whole one if that makes no
more polls, and ends without a path otherwise. -/
theorem search_after (line : List Route) (marked : List String) (polls : Nat)
    (passed : polls ≤ allowed) :
    search next maxDepth target (.after allowed) line marked polls =
      if (search next maxDepth target .never line marked polls).polls ≤ allowed then
        search next maxDepth target .never line marked polls
      else ⟨[], allowed + 1⟩ := by
  fun_induction search next maxDepth target .never line marked polls with
  | case1 marked polls =>
    rw [search]
    exact (if_pos passed).symm
  | case2 marked polls route rest stopped => exact absurd stopped (Signal.not_never _)
  | case3 marked polls route rest goes cut ih =>
    rcases Nat.eq_or_lt_of_le passed with rfl | early
    · exact search_of_spent (polls_le_search rest marked _) route rest marked
    · rw [search, if_neg (Signal.not_after early), if_pos cut]
      exact ih early
  | case4 marked polls route rest goes uncut found =>
    rcases Nat.eq_or_lt_of_le passed with rfl | early
    · exact search_of_spent (Nat.lt_succ_self _) route rest marked
    · rw [search, if_neg (Signal.not_after early), if_neg uncut, if_pos found]
      exact (if_pos early).symm
  | case5 marked polls route rest goes uncut missed fresh ih =>
    rcases Nat.eq_or_lt_of_le passed with rfl | early
    · exact search_of_spent (polls_le_search _ _ _) route rest marked
    · rw [search, if_neg (Signal.not_after early), if_neg uncut, if_neg missed]
      exact ih early

end Link

/-! ### The walks over an index -/

/-- The walk over the methods within reach, with and without the signal. -/
theorem Index.exists_cutShort (index : Index) (start : String) (deep : 1 ≤ depth) (allowed : Nat) :
    ∃ whole cut,
      index.reach start depth .never = .ok whole ∧
      index.reach start depth (.after allowed) = .ok cut ∧
      Reach.CutShort allowed whole cut ∧ cut.reachable <+: whole.reachable ∧
      whole.cancelled = false := by
  by_cases known : index.hasMethod start = true
  · have short : Reach.CutShort allowed
        (Reach.search index.calleeNames depth.toNat .never [(start, 0)] (.initial start)) _ :=
      Reach.cutShort_search _ _ (Nat.zero_le allowed)
    refine ⟨_, _, index.reach_of_known known deep .never,
      index.reach_of_known known deep (.after allowed), short, short.reachable_prefix ?_,
      Reach.cancelled_search_never _ _⟩
    rw [Reach.visits_search]
    exact pairwise_timedBall _
  · unfold Index.reach
    rw [checkDepth_of_pos deep]
    refine ⟨.initial start, .initial start, if_neg known, if_neg known, ⟨?_, ?_, ?_⟩,
      List.prefix_rfl, rfl⟩
    · exact fun _ => rfl
    · exact fun short => absurd short (Nat.not_lt_zero allowed)
    · exact List.prefix_rfl

/-- The walk between two methods, with and without the signal. -/
theorem Index.exists_link_after (index : Index) (source target : String) (deep : 1 ≤ depth)
    (allowed : Nat) :
    ∃ whole cut,
      index.link source target depth .never = .ok whole ∧
      index.link source target depth (.after allowed) = .ok cut ∧
      cut = if whole.polls ≤ allowed then whole else ⟨[], allowed + 1⟩ := by
  unfold Index.link
  rw [checkDepth_of_pos deep]
  by_cases missing : (!(index.hasMethod source && index.hasMethod target)) = true
  · exact ⟨⟨[], 0⟩, ⟨[], 0⟩, if_pos missing, if_pos missing, (if_pos (Nat.zero_le allowed)).symm⟩
  · by_cases same : source = target
    · exact ⟨⟨[source], 0⟩, ⟨[source], 0⟩, (if_neg missing).trans (if_pos same),
        (if_neg missing).trans (if_pos same), (if_pos (Nat.zero_le allowed)).symm⟩
    · exact ⟨_, _, (if_neg missing).trans (if_neg same), (if_neg missing).trans (if_neg same),
        Link.search_after _ _ 0 (Nat.zero_le allowed)⟩

/-- **The breadth-first walks under a signal**, at every depth and for every number of polls let
pass. From any start, the methods within reach are the first of those of the whole walk, each at the
distance of a shortest call path; the walk says that it was cancelled exactly when the whole walk
makes more polls, and is the whole walk otherwise. Between any two methods the path is that of the
whole walk when this makes no more polls, and there is none otherwise; so there is no path but that
of the whole walk. -/
theorem walks_interrupted (index : Index) (deep : 1 ≤ depth) (allowed : Nat) :
    (∀ start, ∃ whole cut,
      index.reach start depth .never = .ok whole ∧
      index.reach start depth (.after allowed) = .ok cut ∧
      cut.reachable <+: whole.reachable ∧
      (∀ name ∈ cut.reachable, ∃ hops,
        Nearest (fun name => (index.calleesOf name).map Ref.name) hops start name ∧
        cut.depthOf? name = some hops ∧ ∀ level, name ∈ cut.level level ↔ level = hops) ∧
      (cut.cancelled = true ↔ allowed < whole.polls) ∧
      (whole.polls ≤ allowed → cut = whole)) ∧
    ∀ source target, ∃ whole cut,
      index.link source target depth .never = .ok whole ∧
      index.link source target depth (.after allowed) = .ok cut ∧
      (whole.polls ≤ allowed → cut = whole) ∧ (allowed < whole.polls → cut.path = []) ∧
      (cut.path ≠ [] → cut.path = whole.path) := by
  refine ⟨fun start => ?_, fun source target => ?_⟩
  · obtain ⟨whole, cut, walked, walkedCut, short, first, quiet⟩ :=
      index.exists_cutShort start deep allowed
    obtain ⟨same, walkedToo, visits⟩ := index.exists_visits start deep
    obtain rfl : whole = same := Except.ok.inj (walked.symm.trans walkedToo)
    have calls : ∀ caller callee, callee ∈ index.calleeNames caller ↔
        callee ∈ (index.calleesOf caller).map Ref.name := fun _ _ => List.mem_eraseDups
    refine ⟨whole, cut, walked, walkedCut, first, fun name listed => ?_,
      short.cancelled_iff quiet, short.same⟩
    refine Reach.depth_of_nearest (fun name hops visited => ?_) listed
    exact (nearest_congr calls).mp ((visits name hops).mp (short.visits.subset visited)).2.2
  · obtain ⟨whole, cut, walked, walkedCut, answer⟩ :=
      index.exists_link_after source target deep allowed
    refine ⟨whole, cut, walked, walkedCut, fun enough => ?_, fun short => ?_, fun found => ?_⟩
    · rw [answer, if_pos enough]
    · rw [answer, if_neg (Nat.not_le.mpr short)]
    · by_cases enough : whole.polls ≤ allowed
      · rw [answer, if_pos enough]
      · rw [answer, if_neg enough] at found
        exact absurd rfl found

/-- From a cart the whole walk polls five times for four methods, one of which stands in line twice;
the path to the stock takes two polls. -/
theorem stockIndex_walks_interrupted :
    (∃ whole cut,
      stockIndex.reach "Web.Cart.Open" 3 .never = .ok whole ∧
      stockIndex.reach "Web.Cart.Open" 3 (.after 4) = .ok cut ∧
      whole.polls = 5 ∧ cut.cancelled = true ∧ cut.reachable <+: whole.reachable) ∧
    ∃ whole enough short,
      stockIndex.link "Web.Cart.Open" "Shop.Stock.Take" 3 .never = .ok whole ∧
      stockIndex.link "Web.Cart.Open" "Shop.Stock.Take" 3 (.after 4) = .ok enough ∧
      stockIndex.link "Web.Cart.Open" "Shop.Stock.Take" 3 (.after 1) = .ok short ∧
      whole.polls = 2 ∧ enough = whole ∧ short.path = [] := by
  have deep : (1 : Int) ≤ 3 := by decide
  have known : stockIndex.hasMethod "Web.Cart.Open" = true := by decide
  have stockKnown : stockIndex.hasMethod "Shop.Stock.Take" = true := by decide
  have cart : stockIndex.calleeNames "Web.Cart.Open" =
    ["Shop.Order.Place", "Shop.Order.Price"] := by decide
  have place : stockIndex.calleeNames "Shop.Order.Place" = ["Shop.Stock.Take"] := by decide
  have price : stockIndex.calleeNames "Shop.Order.Price" = ["Shop.Stock.Take"] := by decide
  have take : stockIndex.calleeNames "Shop.Stock.Take" =
    ["Shop.Order.Place", "Shop.Stock.Take"] := by decide
  obtain ⟨reaches, links⟩ := walks_interrupted stockIndex deep 4
  constructor
  · obtain ⟨whole, cut, walked, walkedCut, first, -, cancelled, -⟩ := reaches "Web.Cart.Open"
    have five : whole.polls = 5 := by
      rw [Except.ok.inj (walked.symm.trans (Index.reach_of_known known deep .never))]
      simp [Reach.search, Signal.never, Reach.initial, Reach.has, Reach.polled, Reach.visit,
        Reach.unvisited, cart, place, price, take]
    exact ⟨whole, cut, walked, walkedCut, five, cancelled.mpr (by omega), first⟩
  · obtain ⟨whole, enough, walked, walkedEnough, same, -⟩ := links "Web.Cart.Open" "Shop.Stock.Take"
    obtain ⟨again, short, walkedAgain, walkedShort, -, none, -⟩ :=
      (walks_interrupted stockIndex deep 1).2 "Web.Cart.Open" "Shop.Stock.Take"
    obtain rfl : whole = again := Except.ok.inj (walked.symm.trans walkedAgain)
    have two : whole.polls = 2 := by
      rw [Except.ok.inj (walked.symm.trans
        (Index.link_of_known known stockKnown (by decide) deep .never))]
      simp [Link.search, Signal.never, Link.unmarked, Route.start, Route.extend, Route.hops,
        Route.nodes, cart, place]
    exact ⟨whole, enough, short, walked, walkedEnough, walkedShort, two, same (by omega),
      none (by omega)⟩

end CallGraph
