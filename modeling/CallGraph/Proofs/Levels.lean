/-
**What the walk by levels reports, and that its two directions are dual.**

A reference is `Related.Met` at a depth when its method is that many steps away and a method one
step nearer has the reference. `Related.foldl_meet` is what a list of references does to a sweep; it
takes the sweep of one round to that of the next (`Sweep.After.over`), whose level is the next
sphere around the start. From there:

* `Related.levels_reports`: the walk reports exactly what is met within its depth, and stops at the
  first level that is empty (`LastLevel`);
* `Service.exists_entry_iff`: a query lists a method at the depth of its distance;
* `callers_callees_dual`: `a` is so many calls above `b` exactly when `b` is as many below `a`.
-/

import CallGraph.Proofs.Adjacency
import CallGraph.Proofs.Queries
import CallGraph.Proofs.Walk.Agreement

namespace CallGraph

/-- The methods that the references of a method lead to, each once. -/
def refNames (next : String → List Ref) (name : String) : List String :=
  ((next name).map Ref.name).eraseDups

/-- The last level that a walk by levels looks at: every level before it has members, and it has
none unless the depth ends the walk. -/
structure LastLevel (next : String → List String) (start : String) (most last : Nat) : Prop where
  within : last ≤ most
  before : ∀ round, round < last → ∃ name, Nearest next round start name
  empty : last < most → ∀ name, ¬ Nearest next last start name

theorem LastLevel.unique {next : String → List String} {start : String} {most first second : Nat}
    (isLast : LastLevel next start most first) (other : LastLevel next start most second) :
    first = second := by
  rcases Nat.lt_trichotomy first second with less | same | more
  · obtain ⟨name, near⟩ := other.before first less
    have within := other.within
    exact absurd near (isLast.empty (by omega) name)
  · exact same
  · obtain ⟨name, near⟩ := isLast.before second more
    have within := isLast.within
    exact absurd near (other.empty (by omega) name)

/-- The last level does not depend on the order of neighbours. -/
theorem LastLevel.congr {next other : String → List String} {start : String} {most last : Nat}
    (same : ∀ a b, b ∈ next a ↔ b ∈ other a) (isLast : LastLevel next start most last) :
    LastLevel other start most last where
  within := isLast.within
  before round less := by
    obtain ⟨name, near⟩ := isLast.before round less
    exact ⟨name, (nearest_congr same).mp near⟩
  empty less name near := isLast.empty less name ((nearest_congr same).mpr near)

/-- References with the same identities lead to the same methods. -/
theorem mem_refNames_congr {next other : String → List Ref}
    (same : ∀ name key, key ∈ (next name).map Ref.key ↔ key ∈ (other name).map Ref.key)
    (a b : String) : b ∈ refNames next a ↔ b ∈ refNames other a := by
  have names : ∀ refs : List Ref, refs.map Ref.name = (refs.map Ref.key).map Prod.fst := by
    intro refs
    rw [List.map_map]
    rfl
  rw [refNames, refNames, List.mem_eraseDups, List.mem_eraseDups, names, names, List.mem_map,
    List.mem_map]
  exact exists_congr fun key => and_congr_left fun _ => same a key

namespace Related

variable {next : String → List Ref} {start : String}

/-- A reference is met at a depth: its method is that far away, and a method one step nearer has the
reference. -/
def Met (next : String → List Ref) (start : String) (key : String × Option Site.Key) : Nat → Prop
  | 0 => False
  | before + 1 => Nearest (refNames next) (before + 1) start key.1 ∧
      ∃ method, Nearest (refNames next) before start method ∧ key ∈ (next method).map Ref.key

theorem Met.nearest {key : String × Option Site.Key} {depth : Nat}
    (met : Met next start key depth) : Nearest (refNames next) depth start key.1 := by
  cases depth with
  | zero => exact met.elim
  | succ before => exact met.1

/-- What is met does not depend on the order of references. -/
theorem met_congr {other : String → List Ref}
    (same : ∀ name key, key ∈ (next name).map Ref.key ↔ key ∈ (other name).map Ref.key)
    {key : String × Option Site.Key} {depth : Nat} :
    Met next start key depth ↔ Met other start key depth := by
  have near : ∀ hops name, Nearest (refNames next) hops start name ↔
      Nearest (refNames other) hops start name :=
    fun hops name => nearest_congr (mem_refNames_congr same)
  cases depth with
  | zero => exact Iff.rfl
  | succ before => simp only [Met, near, same]

/-- Every method but the start is met at its distance, at some site. -/
theorem exists_met_iff {name : String} {depth : Nat} :
    (∃ site, Met next start (name, site) depth) ↔
      1 ≤ depth ∧ Nearest (refNames next) depth start name := by
  cases depth with
  | zero => simp [Met]
  | succ before =>
    constructor
    · rintro ⟨site, met⟩
      exact ⟨Nat.succ_pos before, met.nearest⟩
    · rintro ⟨-, near⟩
      obtain ⟨⟨method, nearer, leads⟩, -⟩ := nearest_succ_iff.mp near
      obtain ⟨site, listed⟩ := Index.Built.mem_names_iff.mp leads
      exact ⟨site.key?, near, method, nearer, List.mem_map_of_mem (f := Ref.key) listed⟩

/-! ### One level -/

/-- The references to methods that are not marked, the first of each identity not seen before. -/
def newRefs (marked : List String) (seen : List (String × Option Site.Key)) : List Ref → List Ref
  | [] => []
  | ref :: rest =>
    if ref.name ∈ marked ∨ ref.key ∈ seen then newRefs marked seen rest
    else ref :: newRefs marked (ref.key :: seen) rest

theorem mem_key_newRefs {marked : List String} {seen : List (String × Option Site.Key)}
    {refs : List Ref} {key : String × Option Site.Key} :
    key ∈ (newRefs marked seen refs).map Ref.key ↔
      key ∈ refs.map Ref.key ∧ key.1 ∉ marked ∧ key ∉ seen := by
  induction refs generalizing seen with
  | nil => simp [newRefs]
  | cons ref rest ih =>
    rw [newRefs, List.map_cons, List.mem_cons]
    split
    · rename_i old
      rw [ih]
      refine and_congr_left fun new => ⟨Or.inr, ?_⟩
      rintro (rfl | later)
      · exact absurd old (not_or.mpr new)
      · exact later
    · rename_i new
      rw [List.map_cons, List.mem_cons, ih, List.mem_cons, not_or]
      by_cases same : key = ref.key
      · subst same
        exact iff_of_true (Or.inl rfl) ⟨Or.inl rfl, not_or.mp new⟩
      · simp [same]

/-- **What references do to a sweep.** A reference seen before belongs to a method that is marked or
already on the level, so it never keeps a method off the level. -/
theorem foldl_meet (marked : List String) (depth : Nat) (refs : List Ref) (sweep : Sweep)
    (covered : ∀ key ∈ sweep.seen, key.1 ∈ marked ++ sweep.level) :
    refs.foldl (Sweep.meet marked depth) sweep =
      { entries := sweep.entries ++ (newRefs marked sweep.seen refs).map fun ref => (ref, depth)
        seen := ((newRefs marked sweep.seen refs).map Ref.key).reverse ++ sweep.seen
        level := sweep.level ++ newTo (marked ++ sweep.level) (refs.map Ref.name) } := by
  induction refs generalizing sweep with
  | nil => simp [newRefs, newTo]
  | cons ref rest ih =>
    rw [List.foldl_cons, newRefs, List.map_cons]
    by_cases skipped : ref.name ∈ marked ∨ ref.key ∈ sweep.seen
    · have same : sweep.meet marked depth ref = sweep := by simp [Sweep.meet, skipped]
      have old : ref.name ∈ marked ++ sweep.level := by
        rcases skipped with isMarked | isSeen
        · exact List.mem_append_left _ isMarked
        · exact covered ref.key isSeen
      rw [same, ih sweep covered, if_pos skipped, newTo_cons_of_mem old]
    · rw [if_neg skipped]
      obtain ⟨unmarked, unseen⟩ := not_or.mp skipped
      by_cases here : ref.name ∈ sweep.level
      · have met : sweep.meet marked depth ref =
            ⟨sweep.entries ++ [(ref, depth)], ref.key :: sweep.seen, sweep.level⟩ := by
          simp [Sweep.meet, unmarked, unseen, here]
        have old : ref.name ∈ marked ++ sweep.level := List.mem_append_right _ here
        rw [met, ih, newTo_cons_of_mem old]
        · simp
        · intro key listed
          rcases List.mem_cons.mp listed with rfl | earlier
          · exact old
          · exact covered key earlier
      · have met : sweep.meet marked depth ref =
            ⟨sweep.entries ++ [(ref, depth)], ref.key :: sweep.seen,
              sweep.level ++ [ref.name]⟩ := by
          simp [Sweep.meet, unmarked, unseen, here]
        have new : ref.name ∉ marked ++ sweep.level := by simp [unmarked, here]
        rw [met, ih, newTo_cons_of_not_mem new]
        · simp
        · intro key listed
          rw [← List.append_assoc]
          rcases List.mem_cons.mp listed with rfl | earlier
          · exact List.mem_append_right _ (List.mem_singleton_self _)
          · exact List.mem_append_left _ (covered key earlier)

/-- What is reported, by identity and depth. -/
def reports (entries : List (Ref × Nat)) : List ((String × Option Site.Key) × Nat) :=
  entries.map fun entry => (entry.1.key, entry.2)

theorem mem_reports_append {entries : List (Ref × Nat)} {refs : List Ref} {depth found : Nat}
    {key : String × Option Site.Key} :
    (key, found) ∈ reports (entries ++ refs.map fun ref => (ref, depth)) ↔
      (key, found) ∈ reports entries ∨ found = depth ∧ key ∈ refs.map Ref.key := by
  simp only [reports, List.map_append, List.map_map, List.mem_append, List.mem_map,
    Function.comp_apply, Prod.mk.injEq]
  constructor
  · rintro (old | ⟨ref, listed, rfl, rfl⟩)
    · exact Or.inl old
    · exact Or.inr ⟨rfl, ref, listed, rfl⟩
  · rintro (old | ⟨rfl, ref, listed, rfl⟩)
    · exact Or.inl old
    · exact Or.inr ⟨ref, listed, rfl, rfl⟩

/-- The sweep after a number of rounds: its level is the last sphere, and it has reported what is
met within these rounds. -/
structure Sweep.After (next : String → List Ref) (start : String) (rounds : Nat) (sweep : Sweep) :
    Prop where
  level : sweep.level = sphere (refNames next) start rounds
  seen : ∀ key ∈ sweep.seen, key.1 ∈ ball (refNames next) start rounds
  entries : ∀ key depth,
    (key, depth) ∈ reports sweep.entries ↔ depth ≤ rounds ∧ Met next start key depth

theorem Sweep.After.initial (next : String → List Ref) (start : String) :
    Sweep.After next start 0 ⟨[], [], [start]⟩ where
  level := rfl
  seen _ listed := (List.not_mem_nil listed).elim
  entries key depth := by
    refine iff_of_false List.not_mem_nil ?_
    rintro ⟨most, met⟩
    obtain rfl : depth = 0 := by omega
    exact met

/-- What a round adds is what is met at its depth. -/
theorem Sweep.After.mem_key_newRefs_iff {rounds : Nat} {sweep : Sweep}
    (after : sweep.After next start rounds) (key : String × Option Site.Key) :
    key ∈ (newRefs (ball (refNames next) start rounds) sweep.seen
        (sweep.level.flatMap next)).map Ref.key ↔ Met next start key (rounds + 1) := by
  rw [mem_key_newRefs, after.level, List.map_flatMap, List.mem_flatMap]
  simp only [mem_sphere_iff]
  constructor
  · rintro ⟨⟨method, near, listed⟩, new, -⟩
    obtain ⟨ref, isRef, rfl⟩ := List.mem_map.mp listed
    have leads : ref.name ∈ refNames next method := Index.Built.mem_names_iff.mpr ⟨ref.site, isRef⟩
    refine ⟨nearest_succ_iff.mpr ⟨⟨method, near, leads⟩, ?_⟩, method, near, listed⟩
    exact fun nearer => new (mem_ball_iff.mpr nearer)
  · rintro ⟨near, method, nearer, listed⟩
    have new : key.1 ∉ ball (refNames next) start rounds := fun inside =>
      (nearest_succ_iff.mp near).2 (mem_ball_iff.mp inside)
    exact ⟨⟨method, nearer, listed⟩, new, fun old => new (after.seen key old)⟩

/-- **One round** reports what is met at its depth. -/
theorem Sweep.After.over {rounds : Nat} {sweep : Sweep} (after : sweep.After next start rounds) :
    (sweep.over next (ball (refNames next) start rounds) (rounds + 1) sweep.level).After next start
      (rounds + 1) := by
  have covered : ∀ key ∈ sweep.seen, key.1 ∈ ball (refNames next) start rounds ++ [] := by
    intro key listed
    rw [List.append_nil]
    exact after.seen key listed
  unfold Sweep.over
  rw [foldl_meet _ _ _ { sweep with level := [] } covered]
  refine ⟨?_, ?_, ?_⟩
  · show [] ++ newTo (_ ++ []) _ = _
    rw [List.nil_append, List.append_nil, sphere_succ, ← after.level, List.map_flatMap]
    exact (newTo_flatMap_eraseDups (fun name => (next name).map Ref.name) _ _).symm
  · intro key listed
    rw [ball_succ, List.mem_append]
    rcases List.mem_append.mp listed with new | old
    · have met := (after.mem_key_newRefs_iff key).mp (List.mem_reverse.mp new)
      exact Or.inr (mem_sphere_iff.mpr met.nearest)
    · exact Or.inl (after.seen key old)
  · intro key depth
    rw [mem_reports_append, after.entries, after.mem_key_newRefs_iff]
    constructor
    · rintro (⟨most, met⟩ | ⟨rfl, met⟩)
      · exact ⟨by omega, met⟩
      · exact ⟨Nat.le_refl _, met⟩
    · rintro ⟨most, met⟩
      by_cases last : depth = rounds + 1
      · exact Or.inr ⟨last, last ▸ met⟩
      · exact Or.inl ⟨by omega, met⟩

theorem Sweep.After.ball_append_level {rounds : Nat} {sweep : Sweep}
    (after : sweep.After next start (rounds + 1)) :
    ball (refNames next) start rounds ++ sweep.level = ball (refNames next) start (rounds + 1) := by
  rw [after.level, ball_succ]

/-! ### The whole walk -/

/-- The walk from the end of a round on, by induction on the levels left. -/
theorem levels_from (more : Nat) {rounds : Nat} {sweep : Sweep}
    (after : sweep.After next start rounds) {name : String}
    (reached : Nearest (refNames next) rounds start name) :
    (∀ key depth, (key, depth) ∈
        reports (levels next more rounds (ball (refNames next) start rounds) sweep).1 ↔
          depth ≤ rounds + more ∧ Met next start key depth) ∧
      LastLevel (refNames next) start (rounds + more)
        (levels next more rounds (ball (refNames next) start rounds) sweep).2 := by
  induction more generalizing rounds sweep name with
  | zero =>
    refine ⟨after.entries, Nat.le_refl _, fun round less => ?_, fun less => ?_⟩
    · exact reached.exists_of_le (Nat.le_of_lt less)
    · exact absurd less (Nat.lt_irrefl _)
  | succ more ih =>
    have swept := after.over
    rw [levels]
    split
    · rename_i stuck
      have nobody : ∀ name, ¬ Nearest (refNames next) (rounds + 1) start name := by
        intro name near
        rw [swept.level, List.isEmpty_iff] at stuck
        have inside := mem_sphere_iff.mpr near
        rw [stuck] at inside
        exact List.not_mem_nil inside
      refine ⟨fun key depth => ?_, by omega, fun round less => ?_, fun _ => nobody⟩
      · rw [swept.entries]
        refine ⟨fun ⟨most, met⟩ => ⟨by omega, met⟩, fun ⟨_, met⟩ => ⟨?_, met⟩⟩
        -- beyond an empty level there is nothing to meet
        by_contra beyond
        obtain ⟨other, near⟩ := met.nearest.exists_of_le (m := rounds + 1) (by omega)
        exact nobody other near
      · exact reached.exists_of_le (Nat.le_of_lt_succ less)
    · rename_i goes
      rw [List.isEmpty_iff] at goes
      obtain ⟨other, listed⟩ := List.exists_mem_of_ne_nil _ goes
      rw [swept.level] at listed
      have all : rounds + (more + 1) = rounds + 1 + more := by omega
      rw [all, swept.ball_append_level]
      exact ih swept (mem_sphere_iff.mp listed)

/-- **The walk by levels** reports what is met within its depth. -/
theorem levels_reports (next : String → List Ref) (start : String) (most : Nat) :
    (∀ key depth, (key, depth) ∈ reports (levels next most 0 [start] ⟨[], [], [start]⟩).1 ↔
        depth ≤ most ∧ Met next start key depth) ∧
      LastLevel (refNames next) start most (levels next most 0 [start] ⟨[], [], [start]⟩).2 := by
  have walk := levels_from most (Sweep.After.initial next start) (nearest_zero_iff.mpr rfl)
  rw [Nat.zero_add] at walk
  exact walk

end Related

/-! ### Queries -/

/-- What tells the entries of an answer apart: the name, the depth and the identity of the site. -/
def RelatedMethod.key (entry : RelatedMethod) : String × Nat × Option (Option Site.Key) :=
  (entry.name, entry.depth, entry.site.map Site.key?)

namespace Service

variable {service : Service}

/-- The answer to a query about a known method. -/
def answer (service : Service) (next : String → List Ref) (includeSelf : Bool)
    (query : String × Nat) : Related :=
  let found := Related.levels next query.2 0 [query.1] ⟨[], [], [query.1]⟩
  let self := if includeSelf then [service.relatedMethod query.1 0 none] else []
  ⟨query.1, self ++ found.1.map fun entry =>
    service.relatedMethod entry.1.name entry.2 (some entry.1.site), found.2⟩

theorem related_eq (next : String → List Ref) (given : Value) (depth : Option Int)
    (includeSelf : Bool) :
    service.related next given depth includeSelf =
      (service.checkedMethod given depth).map (service.answer next includeSelf) := by
  unfold related
  cases service.checkedMethod given depth with
  | error cause => rfl
  | ok query => rfl

theorem key_relatedMethod (name : String) (depth : Nat) (site : Option Site) :
    (service.relatedMethod name depth site).key = (name, depth, site.map Site.key?) := by
  unfold relatedMethod
  split
  · rfl
  · rfl

/-- **The entries of an answer**: the method itself where it is asked for, and what is met. -/
theorem mem_key_answer_iff {next : String → List Ref} {includeSelf : Bool} {name other : String}
    {levels depth : Nat} {site : Option (Option Site.Key)} :
    (other, depth, site) ∈
        (service.answer next includeSelf (name, levels)).entries.map RelatedMethod.key ↔
      includeSelf = true ∧ (other, depth, site) = (name, 0, none) ∨
        depth ≤ levels ∧
          ∃ place, site = some place ∧ Related.Met next name (other, place) depth := by
  obtain ⟨reported, -⟩ := Related.levels_reports next name levels
  rw [answer, List.map_append, List.mem_append, List.map_map]
  refine or_congr ?_ ?_
  · cases includeSelf with
    | false => simp
    | true => simp [key_relatedMethod]
  · rw [← exists_and_left]
    simp only [and_left_comm (a := depth ≤ levels), ← reported, Related.reports, List.mem_map,
      Function.comp_apply, key_relatedMethod, Option.map_some, Prod.mk.injEq]
    constructor
    · rintro ⟨entry, listed, rfl, rfl, rfl⟩
      exact ⟨_, rfl, entry, listed, rfl, rfl⟩
    · rintro ⟨place, rfl, entry, listed, same, rfl⟩
      obtain ⟨rfl, rfl⟩ := Prod.mk.inj same
      exact ⟨entry, listed, rfl, rfl, rfl⟩

/-- A method is listed at the depth of its distance. -/
theorem exists_entry_iff {next : String → List Ref} {includeSelf : Bool} {name other : String}
    {levels hops : Nat} (deep : 1 ≤ hops) :
    (∃ entry ∈ (service.answer next includeSelf (name, levels)).entries,
        entry.name = other ∧ entry.depth = hops) ↔
      hops ≤ levels ∧ Nearest (refNames next) hops name other := by
  have keyed : (∃ entry ∈ (service.answer next includeSelf (name, levels)).entries,
      entry.name = other ∧ entry.depth = hops) ↔ ∃ site, (other, hops, site) ∈
        (service.answer next includeSelf (name, levels)).entries.map RelatedMethod.key := by
    simp only [List.mem_map]
    constructor
    · rintro ⟨entry, listed, rfl, rfl⟩
      exact ⟨_, entry, listed, rfl⟩
    · rintro ⟨site, entry, listed, same⟩
      obtain ⟨rfl, rfl, -⟩ := Prod.mk.inj same
      exact ⟨entry, listed, rfl, rfl⟩
  have met : (∃ site, Related.Met next name (other, site) hops) ↔
      Nearest (refNames next) hops name other := by
    rw [Related.exists_met_iff]
    exact and_iff_right deep
  rw [keyed, ← met]
  simp only [mem_key_answer_iff]
  constructor
  · rintro ⟨site, ⟨-, self⟩ | ⟨most, place, -, met⟩⟩
    · obtain ⟨-, rfl, -⟩ := Prod.mk.inj self
      exact absurd deep (by decide)
    · exact ⟨most, place, met⟩
  · rintro ⟨most, place, met⟩
    exact ⟨some place, Or.inr ⟨most, place, rfl, met⟩⟩

/-- A name under which a service finds a method: trimmed, with content, and known. -/
structure Knows (service : Service) (name : String) : Prop where
  trimmed : Text.trim name = name
  full : name ≠ ""
  known : service.index.hasMethod name = true

theorem Knows.related_eq_ok {name : String} (knows : service.Knows name) {depth : Int}
    (deep : 1 ≤ depth) (within : depth ≤ service.settings.maxDepthLimit.1)
    (next : String → List Ref) (includeSelf : Bool) :
    service.related next (.text name) (some depth) includeSelf =
      .ok (service.answer next includeSelf (name, depth.toNat)) := by
  have named := requireName_of_trim knows.trimmed knows.full .methodRequired
  rw [related_eq, checkedMethod_of_known _ named knows.known, checkedDepth_of_le deep within]
  rfl

end Service

/-! ### Duality -/

/-- **Callers and callees are dual.** Of two known methods, the first is listed among the callers of
the second at a depth exactly when the second is listed among the callees of the first at that
depth; and that is when the shortest chain of calls from the first to the second has as many calls,
within the depth of the queries. -/
theorem callers_callees_dual {service : Service} (built : service.index.Built)
    {caller callee : String} (knowsCaller : service.Knows caller)
    (knowsCallee : service.Knows callee) {depth : Int} (deep : 1 ≤ depth)
    (within : depth ≤ service.settings.maxDepthLimit.1) (callersSelf calleesSelf : Bool) :
    ∃ callers callees,
      service.callers (.text callee) (some depth) callersSelf = .ok callers ∧
      service.callees (.text caller) (some depth) calleesSelf = .ok callees ∧
      ∀ hops, 1 ≤ hops →
        ((∃ entry ∈ callers.entries, entry.name = caller ∧ entry.depth = hops) ↔
          ∃ entry ∈ callees.entries, entry.name = callee ∧ entry.depth = hops) ∧
        ((∃ entry ∈ callees.entries, entry.name = callee ∧ entry.depth = hops) ↔
          hops ≤ depth.toNat ∧ Nearest service.index.calleeNames hops caller callee) := by
  refine ⟨_, _, knowsCallee.related_eq_ok deep within _ callersSelf,
    knowsCaller.related_eq_ok deep within _ calleesSelf, fun hops least => ?_⟩
  rw [Service.exists_entry_iff least, Service.exists_entry_iff least]
  have turned : Nearest (refNames service.index.calleesOf) hops caller callee ↔
      Nearest (refNames service.index.callersOf) hops callee caller :=
    nearest_reverse built.mem_calleeNames_iff
  exact ⟨by rw [turned], Iff.rfl⟩

theorem jobIndex_callers_callees :
    jobIndex.Built ∧ Service.Knows ⟨jobIndex, .standard⟩ "App.Main.Run" ∧
      Service.Knows ⟨jobIndex, .standard⟩ "App.Log.Report" ∧
      ∃ callers callees,
        Service.callers ⟨jobIndex, .standard⟩ (.text "App.Log.Report") (some 3) true = .ok callers ∧
        Service.callees ⟨jobIndex, .standard⟩ (.text "App.Main.Run") (some 3) false = .ok callees ∧
        (∃ entry ∈ callers.entries, entry.name = "App.Main.Run" ∧ entry.depth = 3) ∧
        ∃ entry ∈ callees.entries, entry.name = "App.Log.Report" ∧ entry.depth = 3 := by
  have built : jobIndex.Built := .of_ofEdges jobIndex_eq
  have knowsRun : Service.Knows ⟨jobIndex, .standard⟩ "App.Main.Run" :=
    ⟨by decide, by decide, by decide⟩
  have knowsReport : Service.Knows ⟨jobIndex, .standard⟩ "App.Log.Report" :=
    ⟨by decide, by decide, by decide⟩
  have near : Nearest jobIndex.calleeNames 3 "App.Main.Run" "App.Log.Report" :=
    mem_sphere_iff.mp (by decide)
  obtain ⟨callers, callees, above, below, dual⟩ :=
    callers_callees_dual built knowsRun knowsReport (by decide : (1 : Int) ≤ 3) (by decide) true
      false
  obtain ⟨turned, listed⟩ := dual 3 (by decide)
  have called := listed.mpr ⟨Nat.le_refl 3, near⟩
  exact ⟨built, knowsRun, knowsReport, callers, callees, above, below, turned.mpr called, called⟩

end CallGraph
