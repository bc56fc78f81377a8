/-
**Distances in a graph of neighbours.**

`Steps next n a b` says that `n` steps lead from `a` to `b`, and `Nearest next n a b` that no fewer
do. The spheres around a start are computed round by round: `sphere (k + 1)` holds what the
neighbours of `sphere k` add to everything met before (`ball k`), each name at its first occurrence.

* `nearest_congr`, `nearest_reverse`: distances are those of any order of neighbours, and those of
  the graph with all its steps turned around;
* `mem_sphere_iff`: the sphere of radius `k` holds exactly the names at distance `k`;
* `mem_ball_iff`: the ball of radius `k` holds exactly the names at most `k` steps away.
-/

import CallGraph.Proofs.Tables
import CallGraph.Walk.Signal

namespace CallGraph

theorem Signal.not_never (poll : Nat) : ¬ Signal.never poll = true := Bool.false_ne_true

/-- A walk of a given number of steps. -/
inductive Steps (next : String → List String) : Nat → String → String → Prop
  | refl (name : String) : Steps next 0 name name
  | step {n : Nat} {first last name : String} (walk : Steps next n first last)
      (leads : name ∈ next last) : Steps next (n + 1) first name

/-- The number of steps of a shortest walk. -/
structure Nearest (next : String → List String) (n : Nat) (first last : String) : Prop where
  steps : Steps next n first last
  least : ∀ m, Steps next m first last → n ≤ m

section Distance

variable {next : String → List String} {n : Nat} {first last name : String}

theorem Steps.cons (leads : last ∈ next first) (walk : Steps next n last name) :
    Steps next (n + 1) first name := by
  induction walk with
  | refl => exact .step (.refl first) leads
  | step _ goesOn ih => exact .step (ih leads) goesOn

theorem Nearest.unique {m : Nat} (near : Nearest next n first last)
    (other : Nearest next m first last) : n = m :=
  Nat.le_antisymm (near.least m other.steps) (other.least n near.steps)

theorem Steps.exists_nearest (walk : Steps next n first last) :
    ∃ m, m ≤ n ∧ Nearest next m first last := by
  induction n using Nat.strongRecOn with
  | ind n ih =>
    by_cases shorter : ∃ m, m < n ∧ Steps next m first last
    · obtain ⟨m, less, steps⟩ := shorter
      obtain ⟨k, most, near⟩ := ih m less steps
      exact ⟨k, by omega, near⟩
    · refine ⟨n, Nat.le_refl n, walk, fun m steps => ?_⟩
      by_contra less
      exact shorter ⟨m, by omega, steps⟩

theorem nearest_zero_iff : Nearest next 0 first name ↔ name = first := by
  constructor
  · rintro ⟨⟨⟩, -⟩
    rfl
  · rintro rfl
    exact ⟨.refl _, fun m _ => Nat.zero_le m⟩

/-- **One step further**: a name is at distance `n + 1` when a name at distance `n` leads to it and
no walk of at most `n` steps does. -/
theorem nearest_succ_iff : Nearest next (n + 1) first name ↔
    (∃ last, Nearest next n first last ∧ name ∈ next last) ∧
      ¬ ∃ m, m ≤ n ∧ Steps next m first name := by
  constructor
  · rintro ⟨walk, least⟩
    refine ⟨?_, ?_⟩
    · obtain - | ⟨before, leads⟩ := walk
      refine ⟨_, ⟨before, fun m other => ?_⟩, leads⟩
      have longer := least (m + 1) (.step other leads)
      omega
    · rintro ⟨m, most, other⟩
      have longer := least m other
      omega
  · rintro ⟨⟨last, near, leads⟩, none⟩
    refine ⟨.step near.steps leads, fun m other => ?_⟩
    by_contra less
    exact none ⟨m, by omega, other⟩

/-- Where there is a distance, there are all smaller ones. -/
theorem Nearest.exists_of_le {m : Nat} (near : Nearest next n first last) (less : m ≤ n) :
    ∃ other, Nearest next m first other := by
  induction n generalizing last with
  | zero =>
    obtain rfl : m = 0 := by omega
    exact ⟨last, near⟩
  | succ n ih =>
    by_cases same : m = n + 1
    · exact ⟨last, same ▸ near⟩
    · obtain ⟨⟨before, nearer, -⟩, -⟩ := nearest_succ_iff.mp near
      exact ih nearer (by omega)

/-! ### Other neighbours -/

variable {other : String → List String}

theorem Steps.mono (keeps : ∀ a b, b ∈ next a → b ∈ other a) (walk : Steps next n first last) :
    Steps other n first last := by
  induction walk with
  | refl => exact .refl _
  | step _ leads ih => exact .step ih (keeps _ _ leads)

theorem Steps.reverse (turns : ∀ a b, b ∈ next a → a ∈ other b) (walk : Steps next n first last) :
    Steps other n last first := by
  induction walk with
  | refl => exact .refl _
  | step _ leads ih => exact .cons (turns _ _ leads) ih

/-- Distances do not see the order of neighbours. -/
theorem nearest_congr (same : ∀ a b, b ∈ next a ↔ b ∈ other a) :
    Nearest next n first last ↔ Nearest other n first last := by
  constructor
  · rintro ⟨walk, least⟩
    exact ⟨walk.mono fun a b => (same a b).mp, fun m back => least m <|
      back.mono fun a b => (same a b).mpr⟩
  · rintro ⟨walk, least⟩
    exact ⟨walk.mono fun a b => (same a b).mpr, fun m back => least m <|
      back.mono fun a b => (same a b).mp⟩

/-- **Distances are the same in both directions.** -/
theorem nearest_reverse (turns : ∀ a b, b ∈ next a ↔ a ∈ other b) :
    Nearest next n first last ↔ Nearest other n last first := by
  constructor
  · rintro ⟨walk, least⟩
    exact ⟨walk.reverse fun a b => (turns a b).mp, fun m back => least m <|
      back.reverse fun a b => (turns b a).mpr⟩
  · rintro ⟨walk, least⟩
    exact ⟨walk.reverse fun a b => (turns b a).mpr, fun m back => least m <|
      back.reverse fun a b => (turns a b).mp⟩

end Distance

/-! ### What a list of names adds -/

/-- The names that are not among those seen, each at its first occurrence. -/
def newTo (seen names : List String) : List String :=
  (names.filter fun name => !seen.contains name).eraseDups

section NewTo

variable {seen names : List String} {name : String}

theorem mem_newTo : name ∈ newTo seen names ↔ name ∈ names ∧ name ∉ seen := by
  simp [newTo]

theorem newTo_cons_of_mem (old : name ∈ seen) : newTo seen (name :: names) = newTo seen names := by
  simp [newTo, old]

theorem newTo_cons_of_not_mem (new : name ∉ seen) :
    newTo seen (name :: names) = name :: newTo (seen ++ [name]) names := by
  have kept : (name :: names).filter (fun other => !seen.contains other) =
      name :: names.filter (fun other => !seen.contains other) := by
    simp [new]
  rw [newTo, kept, List.eraseDups_cons, List.filter_filter, newTo]
  congr 2
  refine List.filter_congr fun other _ => ?_
  by_cases same : other = name <;> simp [same]

/-- A list adds what its first part adds, and then what the rest adds to that. -/
theorem newTo_append (seen first second : List String) :
    newTo seen (first ++ second) = newTo seen first ++ newTo (seen ++ newTo seen first) second := by
  induction first generalizing seen with
  | nil => simp [newTo]
  | cons name rest ih =>
    by_cases old : name ∈ seen
    · rw [List.cons_append, newTo_cons_of_mem old, newTo_cons_of_mem old, ih]
    · rw [List.cons_append, newTo_cons_of_not_mem old, newTo_cons_of_not_mem old, ih,
        List.cons_append, List.append_assoc, List.singleton_append]

theorem newTo_of_nodup (seen : List String) (once : names.Nodup) :
    newTo seen names = names.filter fun name => !seen.contains name := by
  induction names generalizing seen with
  | nil => rfl
  | cons name rest ih =>
    obtain ⟨single, once⟩ := List.nodup_cons.mp once
    by_cases old : name ∈ seen
    · rw [newTo_cons_of_mem old, ih seen once, List.filter_cons_of_neg (by simpa using old)]
    · rw [newTo_cons_of_not_mem old, ih (seen ++ [name]) once,
        List.filter_cons_of_pos (by simpa using old)]
      congr 1
      refine List.filter_congr fun other listed => ?_
      have differs : other ≠ name := fun same => single (same ▸ listed)
      simp [differs]

theorem newTo_eraseDups (seen names : List String) :
    newTo seen names.eraseDups = newTo seen names := by
  induction names using List.reverseRecOn with
  | nil => rfl
  | append_singleton names name ih =>
    rw [eraseDups_concat, newTo_append seen names]
    split
    · rename_i listed
      have met : name ∈ seen ++ newTo seen names := by
        rw [List.mem_append, mem_newTo]
        by_cases old : name ∈ seen
        · exact Or.inl old
        · exact Or.inr ⟨listed, old⟩
      rw [ih, newTo_cons_of_mem met]
      exact (List.append_nil _).symm
    · rw [newTo_append, ih]

/-- Doubles among the neighbours of one name add nothing. -/
theorem newTo_flatMap_eraseDups (next : String → List String) (seen names : List String) :
    newTo seen (names.flatMap fun name => (next name).eraseDups) =
      newTo seen (names.flatMap next) := by
  induction names generalizing seen with
  | nil => rfl
  | cons name rest ih =>
    rw [List.flatMap_cons, List.flatMap_cons, newTo_append, newTo_append, newTo_eraseDups, ih]

end NewTo

/-! ### Spheres and balls -/

/-- All that is met within `rounds` rounds of looking at neighbours, and what the last round met
first. -/
def sweep (next : String → List String) (start : String) : Nat → List String × List String
  | 0 => ([start], [start])
  | rounds + 1 =>
    let (met, last) := sweep next start rounds
    (met ++ newTo met (last.flatMap next), newTo met (last.flatMap next))

/-- The names met within a number of rounds. -/
def ball (next : String → List String) (start : String) (rounds : Nat) : List String :=
  (sweep next start rounds).1

/-- The names first met in a round. -/
def sphere (next : String → List String) (start : String) (round : Nat) : List String :=
  (sweep next start round).2

/-- The names met within a number of rounds, each with the round that met it first. -/
def timedBall (next : String → List String) (start : String) : Nat → List (String × Nat)
  | 0 => [(start, 0)]
  | rounds + 1 => timedBall next start rounds ++
      (sphere next start (rounds + 1)).map fun name => (name, rounds + 1)

section Spheres

variable {next : String → List String} {start : String}

theorem sphere_succ (round : Nat) : sphere next start (round + 1) =
    newTo (ball next start round) ((sphere next start round).flatMap next) := rfl

theorem ball_succ (rounds : Nat) : ball next start (rounds + 1) =
    ball next start rounds ++ sphere next start (rounds + 1) := rfl

theorem mem_sphere_and_ball (round : Nat) (name : String) :
    (name ∈ sphere next start round ↔ Nearest next round start name) ∧
      (name ∈ ball next start round ↔ ∃ n, n ≤ round ∧ Steps next n start name) := by
  induction round generalizing name with
  | zero =>
    refine ⟨List.mem_singleton.trans nearest_zero_iff.symm, ?_⟩
    refine List.mem_singleton.trans ⟨?_, ?_⟩
    · rintro rfl
      exact ⟨0, Nat.le_refl 0, .refl _⟩
    · rintro ⟨n, most, walk⟩
      obtain rfl : n = 0 := by omega
      cases walk
      rfl
  | succ round ih =>
    have onSphere : name ∈ sphere next start (round + 1) ↔ Nearest next (round + 1) start name := by
      rw [sphere_succ, mem_newTo, (ih name).2, List.mem_flatMap, nearest_succ_iff]
      simp only [(ih _).1]
    refine ⟨onSphere, ?_⟩
    rw [ball_succ, List.mem_append, onSphere, (ih name).2]
    constructor
    · rintro (⟨n, most, walk⟩ | near)
      · exact ⟨n, by omega, walk⟩
      · exact ⟨round + 1, Nat.le_refl _, near.steps⟩
    · rintro ⟨n, most, walk⟩
      obtain ⟨m, less, near⟩ := walk.exists_nearest
      by_cases last : m = round + 1
      · exact Or.inr (last ▸ near)
      · exact Or.inl ⟨m, by omega, near.steps⟩

/-- **A sphere is a distance.** -/
theorem mem_sphere_iff {round : Nat} {name : String} :
    name ∈ sphere next start round ↔ Nearest next round start name :=
  (mem_sphere_and_ball round name).1

theorem mem_ball_iff {rounds : Nat} {name : String} :
    name ∈ ball next start rounds ↔ ∃ n, n ≤ rounds ∧ Steps next n start name :=
  (mem_sphere_and_ball rounds name).2

theorem map_fst_timedBall (rounds : Nat) :
    (timedBall next start rounds).map Prod.fst = ball next start rounds := by
  induction rounds with
  | zero => rfl
  | succ rounds ih =>
    rw [timedBall, List.map_append, ih, ball_succ, List.map_map]
    congr 1
    exact List.map_id _

theorem mem_timedBall_iff {rounds round : Nat} {name : String} :
    (name, round) ∈ timedBall next start rounds ↔
      round ≤ rounds ∧ Nearest next round start name := by
  induction rounds with
  | zero =>
    rw [timedBall, List.mem_singleton, Prod.mk.injEq]
    constructor
    · rintro ⟨rfl, rfl⟩
      exact ⟨Nat.le_refl 0, nearest_zero_iff.mpr rfl⟩
    · rintro ⟨most, near⟩
      obtain rfl : round = 0 := by omega
      exact ⟨nearest_zero_iff.mp near, rfl⟩
  | succ rounds ih =>
    rw [timedBall, List.mem_append, ih, List.mem_map]
    constructor
    · rintro (⟨most, near⟩ | ⟨other, listed, same⟩)
      · exact ⟨by omega, near⟩
      · obtain ⟨rfl, rfl⟩ := Prod.mk.inj same
        exact ⟨Nat.le_refl _, mem_sphere_iff.mp listed⟩
    · rintro ⟨most, near⟩
      by_cases last : round = rounds + 1
      · subst last
        exact Or.inr ⟨name, mem_sphere_iff.mpr near, rfl⟩
      · exact Or.inl ⟨by omega, near⟩

/-- The rounds never fall. -/
theorem pairwise_timedBall (rounds : Nat) :
    (timedBall next start rounds).Pairwise fun first second => first.2 ≤ second.2 := by
  induction rounds with
  | zero => exact List.pairwise_singleton _ _
  | succ rounds ih =>
    rw [timedBall]
    refine List.pairwise_append.mpr ⟨ih, ?_, ?_⟩
    · exact List.pairwise_map.mpr (List.pairwise_of_forall fun _ _ => Nat.le_refl _)
    · rintro ⟨name, round⟩ listed late last
      obtain ⟨other, -, rfl⟩ := List.mem_map.mp last
      exact Nat.le_succ_of_le (mem_timedBall_iff.mp listed).1

end Spheres

end CallGraph
