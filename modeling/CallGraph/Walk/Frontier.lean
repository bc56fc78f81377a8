/-
**Why walks end.**

A walk keeps a frontier of methods still to be looked at, each with its depth, and looking at one
adds at most its neighbours at the next depth, never beyond the greatest depth. `walks` lists the
walks of bounded length from a method, and `load` counts those of a frontier. Looking at a method
makes the load smaller (`load_neighbours_lt`), so every walk ends, whatever the depth.
-/

namespace CallGraph.Frontier

/-- The walks of at most `steps` steps from a method. -/
def walks (next : String → List String) : Nat → String → List (List String)
  | 0, name => [[name]]
  | steps + 1, name => [name] :: ((next name).flatMap (walks next steps)).map (name :: ·)

/-- The number of walks of at most `steps` steps from a method. -/
def walkCount (next : String → List String) (steps : Nat) (name : String) : Nat :=
  (walks next steps name).length

/-- The walks still to be taken from a frontier of methods and depths. -/
def load (next : String → List String) (maxDepth : Nat) (frontier : List (String × Nat)) : Nat :=
  (frontier.flatMap fun entry => walks next (maxDepth - entry.2) entry.1).length

variable (next : String → List String) (maxDepth : Nat)

theorem walkCount_pos (steps : Nat) (name : String) : 0 < walkCount next steps name := by
  cases steps with
  | zero => exact Nat.one_pos
  | succ steps => exact Nat.succ_pos _

@[simp]
theorem load_cons (entry : String × Nat) (frontier : List (String × Nat)) :
    load next maxDepth (entry :: frontier) =
      walkCount next (maxDepth - entry.2) entry.1 + load next maxDepth frontier := by
  rw [load, List.flatMap_cons, List.length_append, load, walkCount]

@[simp]
theorem load_append (first second : List (String × Nat)) :
    load next maxDepth (first ++ second) =
      load next maxDepth first + load next maxDepth second := by
  rw [load, List.flatMap_append, List.length_append, load, load]

/-- Fewer methods have fewer walks. -/
theorem length_flatMap_walks_le {names more : List String} (sub : names.Sublist more)
    (steps : Nat) :
    (names.flatMap (walks next steps)).length ≤ (more.flatMap (walks next steps)).length := by
  induction sub with
  | slnil => exact Nat.le_refl _
  | cons name _ ih =>
    rw [List.flatMap_cons, List.length_append]
    omega
  | cons_cons name _ ih =>
    rw [List.flatMap_cons, List.flatMap_cons, List.length_append, List.length_append]
    omega

/-- **Looking at a method lessens the load**: neighbours at the next depth weigh less than the
method itself. -/
theorem load_neighbours_lt {name : String} {names : List String} {depth : Nat}
    (sub : names.Sublist (next name)) (within : depth < maxDepth) :
    load next maxDepth (names.map fun neighbour => (neighbour, depth + 1)) <
      walkCount next (maxDepth - depth) name := by
  obtain ⟨rest, split⟩ : ∃ rest, maxDepth - depth = rest + 1 := ⟨maxDepth - depth - 1, by omega⟩
  have fewer := length_flatMap_walks_le next sub rest
  have same : load next maxDepth (names.map fun neighbour => (neighbour, depth + 1)) =
      (names.flatMap (walks next rest)).length := by
    rw [load, List.flatMap_map]
    dsimp only
    rw [show maxDepth - (depth + 1) = rest by omega]
  rw [same, split, walkCount, walks, List.length_cons, List.length_map]
  omega

end CallGraph.Frontier
