/-
**What a cap does to the backward walk.**

Without a cap the walk does everything that its tour lists. With one it does the same up to the path
that fills the cap, and a cap below one is filled by the first path: `PathsTo.replay_capped`, where
`PathsTo.untilFull` is what is done by then. The limit is said to be reached when something that
the tour lists was left out. What is left out need not hold a path. The walk passes by a method
whose callers are all on the route already, and reports nothing there; when it looks at such a
method last (`PathsTo.endsDead`), a cap as great as the number of all paths leaves that look out.

* `pathsTo_capped`: the paths under a cap are the first ones of all paths;
* `limitReached_iff_more_or_dead`: the limit is reached exactly when there are more paths than the
  cap, or as many and the walk ends without a path.
-/

import CallGraph.Proofs.Walk.DepthFirst

namespace CallGraph

namespace PathsTo

variable {next : String → List String}

/-! ### Until the cap is filled -/

/-- What is done until the given number of paths is reported. -/
def untilFull : Nat → List (Option CallPath) → List (Option CallPath)
  | 0, _ => []
  | _ + 1, [] => []
  | room + 1, none :: rest => none :: untilFull (room + 1) rest
  | room + 1, some path :: rest => some path :: untilFull room rest

theorem filterMap_untilFull (room : Nat) (events : List (Option CallPath)) :
    (untilFull room events).filterMap id = (events.filterMap id).take room := by
  fun_induction untilFull room events with
  | case1 events => rfl
  | case2 room => rfl
  | case3 room rest ih => rw [List.filterMap_cons_none rfl, List.filterMap_cons_none rfl, ih]
  | case4 room path rest ih =>
    rw [List.filterMap_cons_some (f := id) rfl, List.filterMap_cons_some (f := id) rfl,
      List.take_succ_cons, ih]

/-- **Something is left out** when there are more paths than fit, or just as many and the last of
them does not come last. -/
theorem untilFull_ne_self_iff (room : Nat) (events : List (Option CallPath)) :
    untilFull room events ≠ events ↔
      room < (events.filterMap id).length ∨
        (events.filterMap id).length = room ∧ events.getLast? = some none := by
  fun_induction untilFull room events with
  | case1 events =>
    rcases List.eq_nil_or_concat events with rfl | ⟨before, event, rfl⟩
    · simp
    · rw [List.concat_eq_append, List.getLast?_concat]
      refine iff_of_true (List.append_ne_nil_of_right_ne_nil _ (List.cons_ne_nil _ _)).symm ?_
      cases event with
      | none => exact (Nat.eq_zero_or_pos _).symm.imp_right fun zero => ⟨zero, rfl⟩
      | some path => simp
  | case2 room => simp
  | case3 room rest ih =>
    rw [ne_eq, List.cons_inj_right, ← ne_eq, ih, List.filterMap_cons_none rfl]
    cases rest with
    | nil => simp
    | cons event others => rw [List.getLast?_cons_cons]
  | case4 room path rest ih =>
    rw [ne_eq, List.cons_inj_right, ← ne_eq, ih, List.filterMap_cons_some (f := id) rfl,
      List.length_cons, Nat.succ_lt_succ_iff, Nat.succ_inj]
    cases rest with
    | nil => simp
    | cons event others => rw [List.getLast?_cons_cons]

/-! ### One look without a signal -/

section Look

variable {cap : Option Int} {path : CallPath} {rest : List (Option CallPath)} {result : PathsTo}

theorem replay_pass : replay cap .never (none :: rest) result =
    replay cap .never rest result.polled := by
  rw [replay, if_neg (Signal.not_never _)]

theorem replay_roomy (roomy : ¬ (result.polled.report path).isFull cap = true) :
    replay cap .never (some path :: rest) result =
      replay cap .never rest (result.polled.report path) := by
  rw [replay, if_neg (Signal.not_never _)]
  exact if_neg roomy

theorem replay_full (full : (result.polled.report path).isFull cap = true) :
    replay cap .never (some path :: rest) result =
      { result.polled.report path with limitReached := !rest.isEmpty } := by
  rw [replay, if_neg (Signal.not_never _)]
  exact if_pos full

end Look

/-- **Under a cap** the walk does what it does without one until the cap is filled, by induction on
what is listed; the room is what the cap still has for paths. -/
theorem replay_capped (most : Int) {room : Nat} (events : List (Option CallPath))
    {result : PathsTo} (fits : max most 1 = result.found.size + (room + 1 : Nat))
    (fresh : result.limitReached = false) :
    replay (some most) .never events result =
      { replay none .never (untilFull (room + 1) events) result with
        limitReached := decide (untilFull (room + 1) events ≠ events) } := by
  induction events generalizing room result with
  | nil =>
    rw [untilFull, replay, replay]
    simp only [← fresh, ne_eq, not_true_eq_false, decide_false]
  | cons event rest ih =>
    cases event with
    | none =>
      have kept : max most 1 = result.polled.found.size + (room + 1 : Nat) := fits
      rw [untilFull, replay_pass, replay_pass, ih kept fresh]
      simp only [ne_eq, List.cons_inj_right]
    | some path =>
      have grown : (result.polled.report path).found.size = result.found.size + 1 :=
        Array.size_push _
      rw [untilFull, replay_roomy (not_isFull_none _)]
      cases room with
      | zero =>
        have full : (result.polled.report path).isFull (some most) = true := by
          rw [isFull, grown, decide_eq_true_iff]
          omega
        have leftOver : (!rest.isEmpty) = decide ([some path] ≠ some path :: rest) := by
          cases rest with
          | nil => simp
          | cons event others => simp
        rw [replay_full full, leftOver, untilFull, replay]
      | succ room =>
        have roomy : ¬ (result.polled.report path).isFull (some most) = true := by
          rw [isFull, grown, decide_eq_true_iff]
          omega
        have kept : max most 1 = (result.polled.report path).found.size + (room + 1 : Nat) := by
          rw [grown, fits]
          omega
        rw [replay_roomy roomy, ih kept fresh]
        simp only [ne_eq, List.cons_inj_right]

/-- Under a cap of any size, from the start of the walk. -/
theorem replay_capped_start (most : Int) (events : List (Option CallPath)) (target : String) :
    replay (some most) .never events (start target) =
      { replay none .never (untilFull (max most 1).toNat events) (start target) with
        limitReached := decide (untilFull (max most 1).toNat events ≠ events) } := by
  obtain ⟨room, is⟩ : ∃ room, (max most 1).toNat = room + 1 :=
    ⟨(max most 1).toNat - 1, by omega⟩
  have fits : max most 1 = (start target).found.size + (room + 1 : Nat) := by
    show max most 1 = ((0 : Nat) : Int) + (room + 1 : Nat)
    omega
  rw [is]
  exact replay_capped most events fits rfl

/-! ### The last look -/

/-- Whether the walk ends without a path: with some calls left it goes on to the last open
neighbour each time, and comes to where something leads on, but only back to the route. -/
def endsDead (next : String → List String) : Nat → Route → Bool
  | 0, _ => false
  | left + 1, route =>
    if (next route.tip).isEmpty then
      false
    else
      match (openNeighbours next route).getLast? with
      | none => true
      | some name => endsDead next left (route.extend name)

/-- **The last thing that a tour lists.** -/
theorem getLast?_tour_eq_iff (left : Nat) (route : Route) :
    (tour next left route).getLast? = some none ↔ endsDead next left route = true := by
  induction left generalizing route with
  | zero => simp [tour, endsDead]
  | succ left ih =>
    rw [tour, endsDead]
    split
    · simp
    · rcases List.eq_nil_or_concat (openNeighbours next route) with closed | ⟨before, name, is⟩
      · simp [closed]
      · -- the tour of the last open neighbour comes last, and it lists something
        have some := tour_ne_nil next left (route.extend name)
        rw [is, List.concat_eq_append, List.getLast?_concat, ← ih, List.flatMap_append,
          List.flatMap_singleton, ← List.cons_append, List.getLast?_append_of_ne_nil _ some]

end PathsTo

/-! ### The walk over an index -/

variable {index : Index} {depth : Int}

/-- What the walk to a target lists; nothing when the target is unknown. -/
def Index.pathEvents (index : Index) (target : String) (maxDepth : Nat) : List (Option CallPath) :=
  if index.hasMethod target then PathsTo.tour index.callerNames maxDepth (.start target) else []

/-- The walk does what it lists, until the signal or the cap ends it. -/
theorem Index.pathsTo_eq_replay (index : Index) (target : String) (deep : 1 ≤ depth)
    (cap : Option Int) (signal : Signal) :
    index.pathsTo target depth cap signal =
      .ok (PathsTo.replay cap signal (index.pathEvents target depth.toNat) (.start target)) := by
  unfold pathEvents
  by_cases known : index.hasMethod target = true
  · have alone : PathsTo.agenda index.callerNames depth.toNat [.start target] =
        PathsTo.tour index.callerNames depth.toNat (.start target) := List.flatMap_singleton _ _
    rw [if_pos known, pathsTo_of_known known deep, PathsTo.search_eq_replay, alone]
  · rw [if_neg known, Index.pathsTo, checkDepth_of_pos deep]
    exact if_neg known

/-- The walk to a target leaves something out when there are more paths than fit, or just as many
and it ends without a path. -/
theorem Index.untilFull_pathEvents_ne_iff (index : Index) (target : String) (maxDepth : Nat)
    {room : Nat} (roomy : 0 < room) :
    PathsTo.untilFull room (index.pathEvents target maxDepth) ≠ index.pathEvents target maxDepth ↔
      room < ((index.pathEvents target maxDepth).filterMap id).length ∨
        ((index.pathEvents target maxDepth).filterMap id).length = room ∧
          PathsTo.endsDead index.callerNames maxDepth (.start target) = true := by
  rw [PathsTo.untilFull_ne_self_iff]
  refine or_congr_right (and_congr_right fun full => ?_)
  by_cases known : index.hasMethod target = true
  · rw [Index.pathEvents, if_pos known, PathsTo.getLast?_tour_eq_iff]
  · rw [Index.pathEvents, if_neg known] at full
    exact absurd full (Nat.ne_of_lt roomy)

/-- The walks with and without a cap, side by side. -/
theorem Index.exists_capped (index : Index) (target : String) (deep : 1 ≤ depth) (most : Int) :
    ∃ whole capped,
      index.pathsTo target depth none .never = .ok whole ∧
      index.pathsTo target depth (some most) .never = .ok capped ∧
      whole.paths = (index.pathEvents target depth.toNat).filterMap id ∧
      capped.paths = whole.paths.take (max most 1).toNat ∧
      capped.depthReached = capped.paths.any CallPath.truncated ∧
      capped.limitReached = decide (PathsTo.untilFull (max most 1).toNat
        (index.pathEvents target depth.toNat) ≠ index.pathEvents target depth.toNat) ∧
      (capped.limitReached = false → capped = whole) := by
  refine ⟨_, _, index.pathsTo_eq_replay target deep none .never,
    index.pathsTo_eq_replay target deep (some most) .never, ?_⟩
  generalize index.pathEvents target depth.toNat = events
  rw [PathsTo.replay_capped_start, PathsTo.replay_never, PathsTo.replay_never,
    PathsTo.filterMap_untilFull]
  refine ⟨by simp [PathsTo.paths, PathsTo.start], by simp [PathsTo.paths, PathsTo.start],
    by simp [PathsTo.paths, PathsTo.start], rfl, fun unlimited => ?_⟩
  have all : PathsTo.untilFull (max most 1).toNat events = events := by simpa using unlimited
  rw [← PathsTo.filterMap_untilFull, all]
  simp [PathsTo.start]

/-- **Under a cap** of any size the walk to any target returns the first paths that it returns
without one: as many as the cap says, but one at least, or all if there are fewer. It says that the
depth was reached exactly when one of these is truncated, and when it does not say that the limit
was reached it is the walk without a cap in everything. -/
theorem pathsTo_capped (index : Index) (target : String) (deep : 1 ≤ depth) (most : Int) :
    ∃ whole capped,
      index.pathsTo target depth none .never = .ok whole ∧
      index.pathsTo target depth (some most) .never = .ok capped ∧
      capped.paths = whole.paths.take (min (max most 1) whole.paths.length).toNat ∧
      (capped.depthReached = true ↔ ∃ path ∈ capped.paths, path.truncated = true) ∧
      (capped.limitReached = false → capped = whole) := by
  obtain ⟨whole, capped, walked, walkedCapped, -, paths, cut, -, unlimited⟩ :=
    index.exists_capped target deep most
  refine ⟨whole, capped, walked, walkedCapped, ?_, ?_, unlimited⟩
  · have least : (min (max most 1) (whole.paths.length : Int)).toNat =
        min (max most 1).toNat whole.paths.length := by omega
    rw [paths, least, ← List.take_eq_take_min]
  · rw [cut, List.any_eq_true]

theorem stockIndex_capped :
    ∃ whole capped,
      stockIndex.pathsTo "Shop.Stock.Take" 2 none .never = .ok whole ∧
      stockIndex.pathsTo "Shop.Stock.Take" 2 (some (-4)) .never = .ok capped ∧
      whole.paths.length = 3 ∧ capped.paths = whole.paths.take 1 ∧
      (capped.depthReached = true ↔ ∃ path ∈ capped.paths, path.truncated = true) ∧
      (capped.limitReached = false → capped = whole) := by
  have deep : (1 : Int) ≤ 2 := by decide
  obtain ⟨whole, capped, walked, walkedCapped, first, cut, unlimited⟩ :=
    pathsTo_capped stockIndex "Shop.Stock.Take" deep (-4)
  have three : whole.paths.length = 3 := by
    have listed := stockIndex.pathsTo_eq_replay "Shop.Stock.Take" deep none .never
    rw [Except.ok.inj (walked.symm.trans listed)]
    decide
  rw [three] at first
  exact ⟨whole, capped, walked, walkedCapped, three, first, cut, unlimited⟩

/-- **When the limit is reached.** Under a cap of one or more the walk says that its limit was
reached exactly when there are more paths than the cap, or as many and the walk ends without a
path. So it says this only where there are more paths, unless there are as many as the cap and the
walk ends without a path. -/
theorem limitReached_iff_more_or_dead (index : Index) (target : String) (deep : 1 ≤ depth)
    {most : Int} (least : 1 ≤ most) :
    ∃ whole capped,
      index.pathsTo target depth none .never = .ok whole ∧
      index.pathsTo target depth (some most) .never = .ok capped ∧
      (capped.limitReached = true ↔ most < whole.paths.length ∨
        whole.paths.length = most ∧
          PathsTo.endsDead index.callerNames depth.toNat (.start target) = true) ∧
      ((capped.limitReached = true → most < whole.paths.length) ↔
        ¬ (whole.paths.length = most ∧
          PathsTo.endsDead index.callerNames depth.toNat (.start target) = true)) := by
  obtain ⟨whole, capped, walked, walkedCapped, paths, -, -, limited, -⟩ :=
    index.exists_capped target deep most
  have law : capped.limitReached = true ↔ most < whole.paths.length ∨
      whole.paths.length = most ∧
        PathsTo.endsDead index.callerNames depth.toNat (.start target) = true := by
    have room : (max most 1).toNat = most.toNat := by omega
    have more : most.toNat < whole.paths.length ↔ most < whole.paths.length := by omega
    have asMany : whole.paths.length = most.toNat ↔ (whole.paths.length : Int) = most := by omega
    rw [limited, decide_eq_true_iff, room,
      index.untilFull_pathEvents_ne_iff target depth.toNat (by omega), ← paths, more, asMany]
  refine ⟨whole, capped, walked, walkedCapped, law, ?_, ?_⟩
  · intro more ends
    have wrong := more (law.mpr (Or.inr ends))
    omega
  · intro goesOn reached
    exact (law.mp reached).resolve_right goesOn

/-- The retries of a job lead only back to it, and a cap of one is said to be reached by the only
path. -/
theorem jobIndex_limit_without_more :
    ∃ whole capped,
      jobIndex.pathsTo "App.Job.Start" 5 none .never = .ok whole ∧
      jobIndex.pathsTo "App.Job.Start" 5 (some 1) .never = .ok capped ∧
      whole.paths = [⟨["App.Main.Run", "App.Job.Start"], false⟩] ∧ whole.isComplete = true ∧
      capped.paths = whole.paths ∧ capped.limitReached = true := by
  have deep : (1 : Int) ≤ 5 := by decide
  obtain ⟨whole, capped, walked, walkedCapped, law, -⟩ :=
    limitReached_iff_more_or_dead jobIndex "App.Job.Start" deep (by decide : (1 : Int) ≤ 1)
  obtain rfl := Except.ok.inj (walked.symm.trans (jobIndex.pathsTo_eq_replay _ deep none .never))
  obtain rfl :=
    Except.ok.inj (walkedCapped.symm.trans (jobIndex.pathsTo_eq_replay _ deep (some 1) .never))
  exact ⟨_, _, walked, walkedCapped, by decide, by decide, by decide,
    law.mpr (Or.inr ⟨by decide, by decide⟩)⟩

end CallGraph
