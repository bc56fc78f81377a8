/-
**The breadth-first walk records the levels.**

The line of the walk holds the methods of one depth and behind them what they have put in line for
the next. `Reach.search_level` takes the walk through all of one depth at once: the methods not met
before are visited, each once, and `Reach.gather` is what stands in line afterwards. The line may
hold a method several times, or methods that are met while it waits; those change nothing
(`Reach.newTo_gather`). Depth by depth the visits are therefore the levels around the start.

* `Reach.visits_search`: the visits of the walk are `timedBall`, in order;
* `Reach.reachable_of_pairwise`: when the depths of the visits never fall, the methods level by
  level are the methods in the order of the walk;
* `Reach.depthOf?_eq_some_iff`: the depth that is looked up is the one recorded.
-/

import CallGraph.Walk.Reach
import CallGraph.Proofs.Walk.Distance

namespace CallGraph.Reach

variable {next : String → List String} {maxDepth : Nat}

/-! ### One depth -/

/-- What a line of methods puts in line: the neighbours of those not seen before, without the ones
seen by then. -/
def gather (next : String → List String) : List String → List String → List String
  | _, [] => []
  | seen, name :: rest =>
    if name ∈ seen then
      gather next seen rest
    else
      (next name).filter (fun neighbour => !(seen ++ [name]).contains neighbour) ++
        gather next (seen ++ [name]) rest

theorem gather_nowhere (seen names : List String) : gather (fun _ => []) seen names = [] := by
  induction names generalizing seen with
  | nil => rfl
  | cons name rest ih =>
    rw [gather]
    split
    · exact ih seen
    · exact ih (seen ++ [name])

theorem filter_gather {seen names later : List String}
    (covers : ∀ name ∈ seen ++ newTo seen names, name ∈ later) :
    (gather next seen names).filter (fun name => !later.contains name) =
      ((newTo seen names).flatMap next).filter fun name => !later.contains name := by
  induction names generalizing seen with
  | nil => rfl
  | cons name rest ih =>
    rw [gather]
    by_cases old : name ∈ seen
    · rw [newTo_cons_of_mem old] at covers ⊢
      rw [if_pos old, ih covers]
    · rw [newTo_cons_of_not_mem old] at covers ⊢
      rw [if_neg old, List.filter_append, List.flatMap_cons, List.filter_append, List.filter_filter]
      congr 1
      · refine List.filter_congr fun neighbour _ => ?_
        by_cases covered : neighbour ∈ later
        · simp [covered]
        · have unseen : neighbour ∉ seen ++ [name] := by
            intro met
            refine covered (covers neighbour ?_)
            rw [List.mem_append, List.mem_singleton] at met
            rcases met with met | rfl
            · exact List.mem_append_left _ met
            · exact List.mem_append_right _ List.mem_cons_self
          simp only [List.contains_eq_mem, covered, unseen, decide_false, Bool.not_false,
            Bool.and_self]
      · refine ih fun other listed => covers other ?_
        rw [List.append_assoc, List.singleton_append] at listed
        exact listed

/-- Standing in line twice, or being met while in line, makes no difference. -/
theorem newTo_gather (next : String → List String) (seen names : List String) :
    newTo (seen ++ newTo seen names) (gather next seen names) =
      newTo (seen ++ newTo seen names) ((newTo seen names).flatMap next) :=
  congrArg List.eraseDups (filter_gather fun _ listed => listed)

/-- The result after all methods of one depth had their turn. -/
def pass (result : Reach) (names : List String) (depth : Nat) : Reach :=
  { result with
    visits := result.visits ++
      ((newTo result.order names).map fun name => (name, depth)).toArray
    polls := result.polls + names.length }

theorem has_iff (result : Reach) (name : String) :
    result.has name = true ↔ name ∈ result.order := by
  rw [has, order, Array.any_toList.symm, List.any_eq_true, List.mem_map]
  simp

theorem order_visit (result : Reach) (name : String) (depth : Nat) :
    (result.polled.visit name depth).order = result.order ++ [name] := by
  simp [order, visit, polled]

/-- **One depth**: at the greatest depth nothing more is put in line. -/
theorem search_level (next : String → List String) (maxDepth depth : Nat)
    (names later : List String) (result : Reach) :
    search next maxDepth .never
        (names.map (fun name => (name, depth)) ++ later.map fun name => (name, depth + 1)) result =
      search next maxDepth .never
        ((later ++ gather (if depth < maxDepth then next else fun _ => []) result.order
          names).map fun name => (name, depth + 1))
        (result.pass names depth) := by
  induction names generalizing later result with
  | nil =>
    have same : result.pass [] depth = result := by simp [pass, newTo]
    rw [same, gather, List.append_nil]
    rfl
  | cons name rest ih =>
    rw [List.map_cons, List.cons_append, search, if_neg (Signal.not_never _), gather]
    by_cases old : name ∈ result.order
    · have same : result.polled.pass rest depth = result.pass (name :: rest) depth := by
        simp only [pass, newTo_cons_of_mem old, List.length_cons]
        simp only [polled, order]
        congr 1
        omega
      rw [if_pos ((has_iff result name).mpr old), if_pos old, ih, same]
      rfl
    · have same : (result.polled.visit name depth).pass rest depth =
          result.pass (name :: rest) depth := by
        simp only [pass, newTo_cons_of_not_mem old, order_visit]
        simp only [visit, polled, List.length_cons]
        congr 1
        · simp
        · omega
      rw [if_neg (fun has => old ((has_iff result name).mp has)), if_neg old, ← same,
        ← order_visit result name depth]
      by_cases deeper : depth < maxDepth
      · simp only [if_pos deeper]
        rw [List.append_assoc, ← List.map_append, ih, if_pos deeper, List.append_assoc]
        congr 4
        refine List.filter_congr fun neighbour _ => ?_
        rw [Bool.eq_iff_iff, Bool.not_eq_true', Bool.not_eq_true', ← Bool.not_eq_true, has_iff]
        simp
      · simp only [if_neg deeper]
        rw [ih, if_neg deeper]
        rfl

/-! ### All depths -/

theorem order_of_visits {result : Reach} {start : String} {rounds : Nat}
    (visits : result.visits.toList = timedBall next start rounds) :
    result.order = ball next start rounds := by
  rw [order, visits, map_fst_timedBall]

theorem toList_visits_pass {result : Reach} {start : String} {rounds : Nat} {names : List String}
    (visits : result.visits.toList = timedBall next start rounds)
    (adds : newTo (ball next start rounds) names = sphere next start (rounds + 1)) :
    (result.pass names (rounds + 1)).visits.toList = timedBall next start (rounds + 1) := by
  rw [pass, order_of_visits visits, adds, Array.toList_append, visits, timedBall]

/-- The walk from the end of one depth on, by induction on the depths left. -/
theorem visits_search_from {start : String} (left : Nat) {rounds : Nat} {names : List String}
    {result : Reach} (all : rounds + left = maxDepth)
    (visits : result.visits.toList = timedBall next start rounds)
    (finished : left = 0 → names = [])
    (adds : left ≠ 0 → newTo (ball next start rounds) names = sphere next start (rounds + 1)) :
    (search next maxDepth .never (names.map fun name => (name, rounds + 1)) result).visits.toList =
      timedBall next start maxDepth := by
  induction left generalizing rounds names result with
  | zero =>
    rw [finished rfl, List.map_nil, search, visits, ← all, Nat.add_zero]
  | succ left ih =>
    have adds := adds (Nat.succ_ne_zero left)
    have turn := search_level next maxDepth (rounds + 1) names [] result
    rw [List.map_nil, List.append_nil, List.nil_append] at turn
    rw [turn]
    refine ih (by omega) (toList_visits_pass visits adds) ?_ ?_
    · intro last
      rw [if_neg (by omega), gather_nowhere]
    · intro more
      rw [if_pos (by omega), order_of_visits visits, sphere_succ, ball_succ, ← adds,
        newTo_gather]

/-- **The walk records the levels**, in order. -/
theorem visits_search (start : String) :
    (search next maxDepth .never [(start, 0)] (.initial start)).visits.toList =
      timedBall next start maxDepth := by
  have turn := search_level next maxDepth 0 [start] [] (.initial start)
  have first : newTo [] [start] = [start] := newTo_cons_of_not_mem List.not_mem_nil
  have seen : (initial start).order = [] := rfl
  rw [List.map_nil, List.append_nil, List.nil_append, List.map_singleton, seen] at turn
  rw [turn]
  refine visits_search_from maxDepth (Nat.zero_add _) ?_ ?_ ?_
  · rw [pass, seen, first]
    rfl
  · intro last
    rw [if_neg (by omega), gather_nowhere]
  · intro more
    have met := newTo_gather next [] [start]
    rw [first] at met
    rw [if_pos (by omega)]
    exact met

/-! ### Looking up a depth -/

theorem mem_level_iff (result : Reach) (name : String) (depth : Nat) :
    name ∈ result.level depth ↔ (name, depth) ∈ result.visits.toList := by
  rw [level, List.mem_map]
  constructor
  · rintro ⟨⟨other, found⟩, listed, rfl⟩
    rw [List.mem_filter, decide_eq_true_iff] at listed
    exact listed.2 ▸ listed.1
  · intro listed
    exact ⟨(name, depth), List.mem_filter.mpr ⟨listed, decide_eq_true rfl⟩, rfl⟩

theorem depthOf?_eq_some_iff {result : Reach} {name : String} {depth : Nat}
    (once : ∀ first second, (name, first) ∈ result.visits.toList →
      (name, second) ∈ result.visits.toList → first = second) :
    result.depthOf? name = some depth ↔ (name, depth) ∈ result.visits.toList := by
  have recorded : ∀ found, result.depthOf? name = some found →
      (name, found) ∈ result.visits.toList := by
    intro found is
    obtain ⟨⟨place, names⟩, hit, rfl⟩ := Option.map_eq_some_iff.mp is
    obtain ⟨other, -, same⟩ := List.mem_map.mp (List.mem_of_find?_eq_some hit)
    obtain ⟨rfl, rfl⟩ := Prod.mk.inj same
    exact (result.mem_level_iff name other).mp (by simpa using List.find?_some hit)
  refine ⟨recorded depth, fun listed => ?_⟩
  have level : (depth, result.level depth) ∈ result.levels :=
    List.mem_map.mpr ⟨depth, List.mem_eraseDups.mpr (List.mem_map.mpr ⟨_, listed, rfl⟩), rfl⟩
  have hit : (result.levels.find? fun level => level.2.contains name).isSome = true :=
    List.find?_isSome.mpr
      ⟨_, level, by simpa using (result.mem_level_iff name depth).mpr listed⟩
  obtain ⟨⟨place, names⟩, found⟩ := Option.isSome_iff_exists.mp hit
  have is : result.depthOf? name = some place := by rw [depthOf?, found]; rfl
  rw [is, once depth place listed (recorded place is)]

/-! ### Level by level -/

theorem mem_reachable_iff (result : Reach) (name : String) :
    name ∈ result.reachable ↔ name ∈ result.order := by
  rw [reachable, order, List.mem_flatMap, List.mem_map]
  constructor
  · rintro ⟨level, listed, member⟩
    obtain ⟨depth, -, rfl⟩ := List.mem_map.mp (List.mem_mergeSort.mp listed)
    exact ⟨(name, depth), (result.mem_level_iff name depth).mp member, rfl⟩
  · rintro ⟨⟨other, depth⟩, visited, rfl⟩
    refine ⟨(depth, result.level depth), List.mem_mergeSort.mpr (List.mem_map.mpr ⟨depth, ?_, rfl⟩),
      (result.mem_level_iff other depth).mpr visited⟩
    exact List.mem_eraseDups.mpr (List.mem_map_of_mem visited)

/-- The first occurrences of depths that never fall always rise. -/
theorem pairwise_eraseDups {depths : List Nat} (ordered : depths.Pairwise (· ≤ ·)) :
    depths.eraseDups.Pairwise (· < ·) := by
  induction depths using List.reverseRecOn with
  | nil => exact .nil
  | append_singleton depths depth ih =>
    obtain ⟨before, -, last⟩ := List.pairwise_append.mp ordered
    rw [eraseDups_concat]
    split
    · exact ih before
    · rename_i new
      refine List.pairwise_append.mpr ⟨ih before, List.pairwise_singleton _ _, ?_⟩
      intro earlier listed other single
      obtain rfl := List.mem_singleton.mp single
      rw [List.mem_eraseDups] at listed
      exact Nat.lt_of_le_of_ne (last earlier listed _ single) fun same => new (same ▸ listed)

/-- The visits at the least depth come first. -/
theorem filter_append_filter {visits : List (String × Nat)} {depth : Nat}
    (ordered : visits.Pairwise fun first second => first.2 ≤ second.2)
    (least : ∀ visit ∈ visits, depth ≤ visit.2) :
    visits.filter (fun visit => visit.2 = depth) ++ visits.filter (fun visit => visit.2 ≠ depth) =
      visits := by
  induction visits with
  | nil => rfl
  | cons visit rest ih =>
    obtain ⟨first, rest'⟩ := List.pairwise_cons.mp ordered
    by_cases here : visit.2 = depth
    · rw [List.filter_cons_of_pos (by simpa using here),
        List.filter_cons_of_neg (by simpa using here), List.cons_append,
        ih rest' fun other listed => least other (List.mem_cons_of_mem _ listed)]
    · have deeper : ∀ other ∈ visit :: rest, other.2 ≠ depth := by
        intro other listed
        have above := least visit List.mem_cons_self
        rcases List.mem_cons.mp listed with rfl | later
        · exact here
        · have further := first other later
          omega
      rw [List.filter_eq_nil_iff.mpr fun other listed => by simpa using deeper other listed,
        List.filter_eq_self.mpr fun other listed => by simpa using deeper other listed,
        List.nil_append]

/-- Visits whose depths never fall, depth by depth. -/
theorem flatMap_filter {depths : List Nat} {visits : List (String × Nat)}
    (rising : depths.Pairwise (· < ·))
    (ordered : visits.Pairwise fun first second => first.2 ≤ second.2)
    (covers : ∀ visit ∈ visits, visit.2 ∈ depths) :
    depths.flatMap (fun depth => visits.filter fun visit => visit.2 = depth) = visits := by
  induction depths generalizing visits with
  | nil =>
    exact (List.eq_nil_iff_forall_not_mem.mpr fun visit => List.not_mem_nil ∘ covers visit).symm
  | cons depth deeper ih =>
    obtain ⟨first, rest⟩ := List.pairwise_cons.mp rising
    have others : deeper.flatMap (fun other => visits.filter fun visit => visit.2 = other) =
        visits.filter fun visit => visit.2 ≠ depth := by
      rw [← ih rest (ordered.filter fun visit => visit.2 ≠ depth) ?_]
      · refine List.flatMap_congr fun other listed => ?_
        rw [List.filter_filter]
        refine List.filter_congr fun visit _ => ?_
        have above := first other listed
        by_cases same : visit.2 = other
        · simp [same, Nat.ne_of_gt above]
        · simp [same]
      · intro visit listed
        obtain ⟨visited, other⟩ := List.mem_filter.mp listed
        exact (List.mem_cons.mp (covers visit visited)).resolve_left (of_decide_eq_true other)
    rw [List.flatMap_cons, others]
    refine filter_append_filter ordered fun visit listed => ?_
    rcases List.mem_cons.mp (covers visit listed) with same | below
    · exact Nat.le_of_eq same.symm
    · exact Nat.le_of_lt (first _ below)

/-- **Level by level is the order of the walk**, when the depths of the visits never fall. -/
theorem reachable_of_pairwise {result : Reach}
    (ordered : result.visits.toList.Pairwise fun first second => first.2 ≤ second.2) :
    result.reachable = result.order := by
  have rising : result.depths.Pairwise (· < ·) :=
    pairwise_eraseDups (List.pairwise_map.mpr ordered)
  have sorted : result.levels.Pairwise fun first second => decide (first.1 ≤ second.1) = true :=
    List.pairwise_map.mpr (rising.imp fun less => decide_eq_true (Nat.le_of_lt less))
  rw [reachable, List.mergeSort_of_pairwise sorted, levels, List.flatMap_map]
  show (result.depths.flatMap fun depth => (result.visits.toList.filter _).map Prod.fst) = _
  rw [← List.map_flatMap, flatMap_filter rising ordered]
  · rfl
  · exact fun visit listed => List.mem_eraseDups.mpr (List.mem_map_of_mem listed)

end CallGraph.Reach
