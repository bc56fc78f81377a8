/-
**The levels of the breadth-first walk, in order.**

The visits of the walk are the timed ball around its start (`Reach.visits_search`), so everything
that it reports can be read off spheres. A level is a sphere (`Reach.level_of_visits`); the spheres
that are not empty are those up to a last one, so the levels are numbered without gaps
(`exists_lastRound`); and a sphere adds to the ball of all earlier ones what the callees of the
sphere before it add, each at its first occurrence.

* `reach_by_distance`: from a known start, the walk records every method within its depth once, at
  the distance of a shortest call path, and each level in the order of first discovery.
-/

import CallGraph.Proofs.Walk.DepthFirst

namespace CallGraph

/-! ### Spheres -/

section Spheres

variable {next : String → List String} {start : String}

theorem nodup_ball (next : String → List String) (start : String) (rounds : Nat) :
    (ball next start rounds).Nodup := by
  induction rounds with
  | zero => exact List.nodup_singleton start
  | succ rounds ih =>
    rw [ball_succ]
    refine ih.append (nodup_eraseDups _) fun name old new => ?_
    rw [sphere_succ, mem_newTo] at new
    exact new.2 old

/-- A ball is its spheres, one after the other. -/
theorem flatMap_sphere (next : String → List String) (start : String) (rounds : Nat) :
    (List.range (rounds + 1)).flatMap (sphere next start) = ball next start rounds := by
  induction rounds with
  | zero => exact List.flatMap_singleton _ _
  | succ rounds ih =>
    rw [List.range_succ, List.flatMap_append, ih, ball_succ, List.flatMap_singleton]

theorem sphere_ne_nil_iff {round : Nat} :
    sphere next start round ≠ [] ↔ ∃ name, Nearest next round start name := by
  simp only [ne_eq, List.eq_nil_iff_forall_not_mem, mem_sphere_iff, not_forall, not_not]

theorem succ_not_mem_timedBall (next : String → List String) (start : String) (rounds : Nat) :
    rounds + 1 ∉ (timedBall next start rounds).map Prod.snd := by
  intro listed
  obtain ⟨⟨name, round⟩, visited, isLater⟩ := List.mem_map.mp listed
  have within := (mem_timedBall_iff.mp visited).1
  have later : round = rounds + 1 := isLater
  omega

/-- Copies of a new member count once. -/
theorem eraseDups_append_const {items : List Nat} {item : Nat} (new : item ∉ items)
    {names : List String} (some : names ≠ []) :
    (items ++ names.map fun _ => item).eraseDups = items.eraseDups ++ [item] := by
  induction names using List.reverseRecOn with
  | nil => exact absurd rfl some
  | append_singleton names name ih =>
    rw [List.map_append, ← List.append_assoc, List.map_singleton, eraseDups_concat]
    by_cases first : names = []
    · subst first
      simp [new]
    · obtain ⟨other, listed⟩ := List.exists_mem_of_ne_nil names first
      rw [if_pos (List.mem_append_right _ (List.mem_map.mpr ⟨other, listed, rfl⟩)), ih first]

/-- **The rounds that meet something** are those up to a last one, in order. -/
theorem exists_lastRound (next : String → List String) (start : String) (rounds : Nat) :
    ∃ last, last ≤ rounds ∧
      (∀ round, round ≤ rounds → (sphere next start round ≠ [] ↔ round ≤ last)) ∧
      ((timedBall next start rounds).map Prod.snd).eraseDups = List.range (last + 1) := by
  induction rounds with
  | zero =>
    refine ⟨0, Nat.le_refl 0, fun round within => ?_, rfl⟩
    obtain rfl : round = 0 := by omega
    exact iff_of_true (List.cons_ne_nil _ _) (Nat.le_refl 0)
  | succ rounds ih =>
    obtain ⟨last, most, nonempty, ordered⟩ := ih
    rw [timedBall, List.map_append, List.map_map]
    by_cases empty : sphere next start (rounds + 1) = []
    · refine ⟨last, by omega, fun round within => ?_, ?_⟩
      · by_cases isLast : round = rounds + 1
        · subst isLast
          exact iff_of_false (not_not.mpr empty) (by omega)
        · exact nonempty round (by omega)
      · rw [empty, List.map_nil, List.append_nil, ordered]
    · -- where there is a distance there are all smaller ones, so no round before was empty
      obtain ⟨name, near⟩ := sphere_ne_nil_iff.mp empty
      have all : ∀ round, round ≤ rounds + 1 → sphere next start round ≠ [] :=
        fun round within => sphere_ne_nil_iff.mpr (near.exists_of_le within)
      have full : last = rounds := Nat.le_antisymm most
        ((nonempty rounds (Nat.le_refl _)).mp (all rounds (Nat.le_succ _)))
      subst full
      refine ⟨last + 1, Nat.le_refl _, fun round within => ?_, ?_⟩
      · exact iff_of_true (all round within) within
      · rw [List.range_succ, ← ordered]
        exact eraseDups_append_const (succ_not_mem_timedBall next start last) empty

end Spheres

/-! ### Reading a walk off its visits -/

namespace Reach

variable {reach : Reach} {next : String → List String} {start : String} {most : Nat}

/-- A level is a sphere. -/
theorem level_of_visits (visits : reach.visits.toList = timedBall next start most) (round : Nat) :
    reach.level round = if round ≤ most then sphere next start round else [] := by
  rw [level, visits]
  clear visits
  induction most with
  | zero =>
    by_cases first : round = 0
    · subst first
      rfl
    · have other : ¬ 0 = round := fun same => first same.symm
      rw [if_neg (by omega)]
      simp [timedBall, other]
  | succ most ih =>
    rw [timedBall, List.filter_append, List.map_append, ih, List.filter_map, List.map_map]
    by_cases last : round = most + 1
    · subst last
      rw [if_neg (by omega), if_pos (Nat.le_refl _)]
      simp [Function.comp_def]
    · have other : ¬ most + 1 = round := fun same => last same.symm
      have within : round ≤ most + 1 ↔ round ≤ most := by omega
      simp [Function.comp_def, other, within]

theorem level_of_le (visits : reach.visits.toList = timedBall next start most) {round : Nat}
    (within : round ≤ most) : reach.level round = sphere next start round :=
  (level_of_visits visits round).trans (if_pos within)

/-- The levels up to one of them hold the ball of that radius. -/
theorem flatMap_level (visits : reach.visits.toList = timedBall next start most) {round : Nat}
    (within : round ≤ most) :
    (List.range (round + 1)).flatMap reach.level = ball next start round := by
  rw [← flatMap_sphere]
  refine List.flatMap_congr fun earlier listed => level_of_le visits ?_
  have before := List.mem_range.mp listed
  omega

/-- **Levels by distance**: what a walk of at most `most` calls records of the methods that calls
lead to from its start. -/
structure ByDistance (reach : Reach) (callees : String → List String) (start : String)
    (most : Nat) : Prop where
  /-- The levels are numbered from 0 to a last one, in this order; those have members, and no
  others. -/
  numbered : ∃ last, last ≤ most ∧ (∀ level, reach.level level ≠ [] ↔ level ≤ last) ∧
    reach.levels = (List.range (last + 1)).map fun level => (level, reach.level level)
  /-- The start stands alone before all calls. -/
  origin : reach.level 0 = [start]
  /-- A level holds the methods at that distance. -/
  recorded : ∀ name level,
    name ∈ reach.level level ↔ level ≤ most ∧ Nearest callees level start name
  /-- No method is recorded twice. -/
  once : (reach.levels.flatMap Prod.snd).Nodup
  /-- The depth of a method is its distance. -/
  depthOf : ∀ name depth,
    reach.depthOf? name = some depth ↔ depth ≤ most ∧ Nearest callees depth start name
  /-- A method has no depth when no call path leads to it within the depth of the walk. -/
  beyond : ∀ name,
    reach.depthOf? name = none ↔ ∀ calls, calls ≤ most → ¬ Steps callees calls start name
  /-- A level lists what the callees of the level before it add to all earlier levels. -/
  discovery : ∀ level, level < most → reach.level (level + 1) =
    newTo ((List.range (level + 1)).flatMap reach.level) ((reach.level level).flatMap callees)

section

variable (visits : reach.visits.toList = timedBall next start most)
include visits

theorem numbered_of_visits :
    ∃ last, last ≤ most ∧ (∀ level, reach.level level ≠ [] ↔ level ≤ last) ∧
      reach.levels = (List.range (last + 1)).map fun level => (level, reach.level level) := by
  obtain ⟨last, within, nonempty, ordered⟩ := exists_lastRound next start most
  refine ⟨last, within, fun level => ?_, ?_⟩
  · rw [level_of_visits visits]
    split
    · rename_i inside
      exact nonempty level inside
    · exact iff_of_false (fun wrong => wrong rfl) (by omega)
  · rw [levels, depths, visits, ordered]

theorem nodup_levels : (reach.levels.flatMap Prod.snd).Nodup := by
  obtain ⟨last, within, -, levels⟩ := numbered_of_visits visits
  rw [levels, List.flatMap_map, flatMap_level visits within]
  exact nodup_ball next start last

theorem depthOf?_of_visits (name : String) (depth : Nat) :
    reach.depthOf? name = some depth ↔ depth ≤ most ∧ Nearest next depth start name := by
  rw [depthOf?_eq_some_iff, visits, mem_timedBall_iff]
  intro first second
  rw [visits, mem_timedBall_iff, mem_timedBall_iff]
  exact fun near other => near.2.unique other.2

theorem depthOf?_eq_none_of_visits (name : String) :
    reach.depthOf? name = none ↔ ∀ calls, calls ≤ most → ¬ Steps next calls start name := by
  rw [Option.eq_none_iff_forall_ne_some]
  simp only [ne_eq, depthOf?_of_visits visits, not_and]
  refine ⟨fun none calls within walk => ?_, fun none depth within near => ?_⟩
  · obtain ⟨depth, fewer, near⟩ := walk.exists_nearest
    exact none depth (by omega) near
  · exact none depth within near.steps

end

/-- **A walk whose visits are a timed ball** over distinct callees records levels by distance. -/
theorem byDistance_of_visits {callees : String → List String}
    (visits : reach.visits.toList = timedBall (fun name => (callees name).eraseDups) start most) :
    reach.ByDistance callees start most := by
  have same : ∀ a b, b ∈ (callees a).eraseDups ↔ b ∈ callees a := fun a b => List.mem_eraseDups
  have walks : ∀ calls name, Steps (fun name => (callees name).eraseDups) calls start name ↔
      Steps callees calls start name := fun calls name =>
    ⟨Steps.mono fun a b => (same a b).mp, Steps.mono fun a b => (same a b).mpr⟩
  refine ⟨numbered_of_visits visits, ?_, fun name level => ?_, nodup_levels visits,
    fun name depth => ?_, fun name => ?_, fun level deeper => ?_⟩
  · exact level_of_le visits (Nat.zero_le most)
  · rw [mem_level_iff, visits, mem_timedBall_iff, nearest_congr same]
  · rw [depthOf?_of_visits visits, nearest_congr same]
  · simp only [depthOf?_eq_none_of_visits visits, walks]
  · rw [level_of_le visits deeper, level_of_le visits (Nat.le_of_lt deeper),
      flatMap_level visits (Nat.le_of_lt deeper), sphere_succ, newTo_flatMap_eraseDups]

end Reach

/-! ### The walk over an index -/

variable {index : Index} {start : String} {depth : Int}

/-- **The walk records methods by distance.** From a known start, at every depth and without a
signal, a method stands at the level of its shortest call path and nowhere else, the levels are
numbered without gaps, and each is in the order in which the callees of the level before it first
name its methods. -/
theorem reach_by_distance (known : index.hasMethod start = true) (deep : 1 ≤ depth) :
    ∃ reach, index.reach start depth .never = .ok reach ∧
      reach.ByDistance (fun name => (index.calleesOf name).map Ref.name) start depth.toNat :=
  ⟨_, index.reach_of_known known deep .never,
    Reach.byDistance_of_visits (Reach.visits_search start)⟩

theorem stockIndex_reach_from_open :
    stockIndex.hasMethod "Web.Cart.Open" = true ∧
      ∃ reach, stockIndex.reach "Web.Cart.Open" 3 .never = .ok reach ∧
        reach.levels = [(0, ["Web.Cart.Open"]), (1, ["Shop.Order.Place", "Shop.Order.Price"]),
          (2, ["Shop.Stock.Take"])] ∧
        reach.depthOf? "Shop.Stock.Take" = some 2 ∧ reach.depthOf? "Job.Audit.Run" = none := by
  have known : stockIndex.hasMethod "Web.Cart.Open" = true := by decide
  have deep : (1 : Int) ≤ 3 := by decide
  obtain ⟨reach, walked, chart⟩ := reach_by_distance known deep
  have zero : reach.level 0 = ["Web.Cart.Open"] := chart.origin
  have one : reach.level 1 = ["Shop.Order.Place", "Shop.Order.Price"] := by
    rw [chart.discovery 0 (by decide)]
    simp only [List.range_succ, List.range_zero, List.nil_append, List.flatMap_singleton, zero]
    decide
  have two : reach.level 2 = ["Shop.Stock.Take"] := by
    rw [chart.discovery 1 (by decide)]
    simp only [List.range_succ, List.range_zero, List.nil_append, List.flatMap_append,
      List.flatMap_singleton, zero, one]
    decide
  have three : reach.level 3 = [] := by
    rw [chart.discovery 2 (by decide)]
    simp only [List.range_succ, List.range_zero, List.nil_append, List.flatMap_append,
      List.flatMap_singleton, zero, one, two]
    decide
  obtain ⟨last, -, nonempty, levels⟩ := chart.numbered
  have reached : 2 ≤ last := (nonempty 2).mp (by rw [two]; exact List.cons_ne_nil _ _)
  have ended : ¬ 3 ≤ last := fun more => (nonempty 3).mpr more three
  obtain rfl : last = 2 := by omega
  simp only [List.range_succ, List.range_zero, List.nil_append, List.cons_append, List.map_cons,
    List.map_nil, zero, one, two] at levels
  refine ⟨known, reach, walked, levels, ?_, ?_⟩
  · rw [Reach.depthOf?, levels]
    decide
  · rw [Reach.depthOf?, levels]
    decide

end CallGraph
