/-
**Which method queries are answered.**

Callers, callees, paths to a method and methods within reach are asked for in the same way: by a
name, which may be missing, and a depth, which may be left out. `Service.Checks` has one rule for
each outcome of the checks, and every query follows one of them (`Service.checks_checkedMethod`).
The walk behind a query gets a depth of at least 1 whenever the checks are passed, so it cannot
refuse it (`checkDepth_of_pos`), and nothing but the checks decides (`Service.Checks.screens`).

* `method_queries_screened`: each of the four queries is refused for its input, refused for an
  unknown method or answered, and says which by the name, the depth and the limits alone; a path
  query that is answered is the walk of the engine under the cap of the settings.
-/

import CallGraph.Proofs.Queries
import CallGraph.Proofs.Walk.Agreement
import CallGraph.Service.Paths

namespace CallGraph

/-! ### Names that may be missing -/

/-- The value by which a query names its method, null when it names none. -/
def nameValue : Option String → Value
  | none => .null
  | some s => .text s

/-- There is no name, or it has no content. -/
def IsBlank (name : Option String) : Prop := ∀ s, name = some s → Text.trim s = ""

theorem requireName_of_isBlank {name : Option String} (blank : IsBlank name)
    (refusal : QueryError) : requireName (nameValue name) refusal = .error refusal := by
  cases name with
  | none => rfl
  | some s =>
    have empty : Text.trim s = "" := blank s rfl
    unfold requireName
    split
    · rfl
    · exact if_pos (by rw [empty]; rfl)

theorem exists_of_not_isBlank {name : Option String} (full : ¬ IsBlank name) :
    ∃ s, name = some s ∧ Text.trim s ≠ "" := by
  simpa [IsBlank] using full

namespace Service

variable {service : Service} {name : Option String} {depth : Option Int}

/-! ### The checks of a method query -/

/-- **How the checks of a query end.** -/
inductive Checks (service : Service) (name : Option String) (depth : Option Int) :
    Except QueryError (String × Nat) → Prop
  | nameless (blank : IsBlank name) : Checks service name depth (.error .methodRequired)
  | outside {cause : QueryError} (full : ¬ IsBlank name) (outside : ¬ service.Within depth)
      (refuses : Refuses (service.depthFor depth) cause) : Checks service name depth (.error cause)
  | unknown {s : String} (named : name = some s) (full : ¬ IsBlank name)
      (within : service.Within depth) (absent : ¬ service.index.hasMethod (Text.trim s) = true) :
      Checks service name depth (.error (.methodUnknown (Text.trim s)))
  | passed {s : String} (named : name = some s) (full : ¬ IsBlank name)
      (within : service.Within depth) (known : service.index.hasMethod (Text.trim s) = true) :
      Checks service name depth (.ok (Text.trim s, (service.depthFor depth).toNat))

/-- **Every query is checked in one of these ways.** -/
theorem checks_checkedMethod (service : Service) (name : Option String) (depth : Option Int) :
    service.Checks name depth (service.checkedMethod (nameValue name) depth) := by
  by_cases blank : IsBlank name
  · rw [checkedMethod, requireName_of_isBlank blank]
    exact .nameless blank
  · obtain ⟨s, rfl, full⟩ := exists_of_not_isBlank blank
    rw [checkedMethod, nameValue, requireName_of_trim rfl full]
    by_cases within : service.Within depth
    · rw [checkedDepth_of_within within]
      by_cases known : service.index.hasMethod (Text.trim s) = true
      · simp only [bind, Except.bind, known, if_true]
        exact .passed rfl blank within known
      · simp only [bind, Except.bind, known]
        exact .unknown rfl blank within known
    · obtain ⟨cause, refused, refuses⟩ := checkedDepth_of_not_within within
      rw [refused]
      exact .outside blank within refuses

/-- The method that the name stands for is known. -/
def Finds (service : Service) (name : Option String) : Prop :=
  ∃ s, name = some s ∧ service.index.hasMethod (Text.trim s) = true

/-- **The answer to a query is decided by its name and its depth.** -/
structure Screens (service : Service) (name : Option String) (depth : Option Int) {α : Type}
    (answer : Except QueryError α) : Prop where
  /-- The input is at fault exactly when the name is blank, or the depth is out of the limits and
  can be written. -/
  input : (∃ cause, answer = .error cause ∧ cause.isInput = true) ↔
    IsBlank name ∨ (¬ service.Within depth ∧ Text.isWritable (service.depthFor depth) = true)
  /-- A depth out of the limits that cannot be written is not the fault of the input. -/
  misused : ∀ misuse, answer = .error (.misuse misuse) ↔ misuse = .tooLong ∧ ¬ IsBlank name ∧
    ¬ service.Within depth ∧ Text.isWritable (service.depthFor depth) = false
  /-- Otherwise the method is unknown exactly when the index does not have it. -/
  unknown : ¬ IsBlank name → service.Within depth →
    ((∃ method, answer = .error (.methodUnknown method)) ↔ ¬ service.Finds name)
  /-- Otherwise there is an answer. -/
  answered : ¬ IsBlank name → service.Within depth → service.Finds name →
    ∃ value, answer = .ok value
  /-- The engine never refuses the depth. -/
  engine : ∀ cause, answer ≠ .error (.depth cause)

/-- A query that is answered, or refused for its method, passed the checks of its input. -/
theorem screens_of_within {α : Type} {answer : Except QueryError α} (full : ¬ IsBlank name)
    (within : service.Within depth)
    (sort : (∃ method, answer = .error (.methodUnknown method) ∧ ¬ service.Finds name) ∨
      ∃ value, answer = .ok value ∧ service.Finds name) :
    service.Screens name depth answer := by
  have passes : ¬ (IsBlank name ∨
      (¬ service.Within depth ∧ Text.isWritable (service.depthFor depth) = true)) :=
    fun wrong => wrong.elim full fun outside => outside.1 within
  have kept : ∀ misuse : Misuse, ¬ (misuse = .tooLong ∧ ¬ IsBlank name ∧ ¬ service.Within depth ∧
      Text.isWritable (service.depthFor depth) = false) :=
    fun _ wrong => wrong.2.2.1 within
  rcases sort with ⟨method, rfl, lost⟩ | ⟨value, rfl, found⟩
  · refine ⟨iff_of_false ?_ passes, fun misuse => iff_of_false ?_ (kept misuse),
      fun _ _ => iff_of_true ⟨_, rfl⟩ lost, fun _ _ found => absurd found lost,
      fun cause wrong => by cases wrong⟩
    · rintro ⟨cause, refused, input⟩
      obtain rfl := Except.error.inj refused
      cases input
    · intro wrong
      cases wrong
  · refine ⟨iff_of_false ?_ passes, fun misuse => iff_of_false ?_ (kept misuse),
      fun _ _ => iff_of_false ?_ (fun lost => lost found), fun _ _ _ => ⟨value, rfl⟩,
      fun cause wrong => by cases wrong⟩
    · rintro ⟨cause, wrong, -⟩
      cases wrong
    · intro wrong
      cases wrong
    · rintro ⟨method, wrong⟩
      cases wrong

theorem screens_of_refuses {α : Type} {cause : QueryError} (full : ¬ IsBlank name)
    (outside : ¬ service.Within depth) (refuses : Refuses (service.depthFor depth) cause) :
    service.Screens name depth (.error cause : Except QueryError α) := by
  rcases refuses with ⟨writable, input⟩ | ⟨long, rfl⟩
  · refine ⟨iff_of_true ⟨_, rfl, input⟩ (Or.inr ⟨outside, writable⟩),
      fun misuse => iff_of_false ?_ ?_, fun _ inside => absurd inside outside,
      fun _ inside => absurd inside outside, fun other wrong => ?_⟩
    · intro wrong
      obtain rfl := Except.error.inj wrong
      cases input
    · rintro ⟨-, -, -, long⟩
      exact Bool.false_ne_true (long.symm.trans writable)
    · obtain rfl := Except.error.inj wrong
      cases input
  · refine ⟨iff_of_false ?_ ?_, fun misuse => ⟨fun same => ?_, fun both => both.1 ▸ rfl⟩,
      fun _ inside => absurd inside outside, fun _ inside => absurd inside outside,
      fun other wrong => by cases wrong⟩
    · rintro ⟨cause, wrong, input⟩
      obtain rfl := Except.error.inj wrong
      cases input
    · rintro (blank | ⟨-, writable⟩)
      · exact full blank
      · exact Bool.false_ne_true (long.symm.trans writable)
    · exact ⟨(QueryError.misuse.inj (Except.error.inj same)).symm, full, outside, long⟩

theorem Checks.screens {checked : Except QueryError (String × Nat)}
    (checks : service.Checks name depth checked) {α : Type}
    {walk : String × Nat → Except QueryError α}
    (walks : ∀ method levels, 1 ≤ levels → ∃ value, walk (method, levels) = .ok value) :
    service.Screens name depth (checked >>= walk) := by
  cases checks with
  | nameless blank =>
    refine ⟨iff_of_true ⟨_, rfl, rfl⟩ (Or.inl blank),
      fun misuse => iff_of_false ?_ fun wrong => wrong.2.1 blank, fun full => absurd blank full,
      fun full => absurd blank full, fun cause wrong => by cases wrong⟩
    intro wrong
    cases wrong
  | outside full outside refuses => exact screens_of_refuses full outside refuses
  | unknown named full within absent =>
    refine screens_of_within full within (Or.inl ⟨_, rfl, ?_⟩)
    rintro ⟨other, same, known⟩
    obtain rfl := Option.some.inj (named.symm.trans same)
    exact absent known
  | passed named full within known =>
    have deep := ((service.within_iff depth).mp within).1
    obtain ⟨value, answers⟩ := walks _ (service.depthFor depth).toNat (by omega)
    exact screens_of_within full within (Or.inr ⟨value, answers, _, named, known⟩)

/-- A query that passes the checks walks from its trimmed name at its depth. -/
theorem Checks.eq_of_ok {method : String} {levels : Nat}
    (checks : service.Checks name depth (.ok (method, levels))) :
    ∃ s, name = some s ∧ method = Text.trim s ∧ (levels : Int) = service.depthFor depth := by
  cases checks with
  | passed named full within known =>
    have deep := ((service.within_iff depth).mp within).1
    exact ⟨_, named, rfl, Int.toNat_of_nonneg (by omega)⟩

/-! ### Queries that walk -/

section Walks

variable {β : Type}

/-- A query that is answered by a walk from its method, with the log lines of the walk. -/
def walkQuery (service : Service) (walk : String → Int → Except DepthError β)
    (log : β → Nat → List LogLine) (given : Value) (depth : Option Int) :
    Except QueryError (β × List LogLine) := do
  let (name, depth) ← service.checkedMethod given depth
  let result ← (walk name depth).mapError QueryError.depth
  return (result, log result depth)

variable {walk : String → Int → Except DepthError β} {log : β → Nat → List LogLine}

/-- A walk that accepts every depth from 1 on leaves all refusals to the checks. -/
theorem screens_walkQuery (name : Option String) (depth : Option Int)
    (walks : ∀ method levels, 1 ≤ levels → ∃ found, walk method levels = .ok found) :
    service.Screens name depth (service.walkQuery walk log (nameValue name) depth) := by
  apply (service.checks_checkedMethod name depth).screens
  intro method levels deep
  obtain ⟨found, walked⟩ := walks method levels (Int.ofNat_le.mpr deep)
  dsimp only
  rw [walked]
  exact ⟨_, rfl⟩

/-- An answer is what the walk finds from the trimmed name at the depth of the query. -/
theorem walkQuery_eq_ok {found : β × List LogLine}
    (answered : service.walkQuery walk log (nameValue name) depth = .ok found) :
    ∃ s, name = some s ∧ walk (Text.trim s) (service.depthFor depth) = .ok found.1 := by
  have checks := service.checks_checkedMethod name depth
  unfold walkQuery at answered
  cases checked : service.checkedMethod (nameValue name) depth with
  | error cause =>
    rw [checked] at answered
    cases answered
  | ok query =>
    rw [checked] at answered checks
    obtain ⟨s, named, method, levels⟩ := checks.eq_of_ok
    refine ⟨s, named, ?_⟩
    rw [← method, ← levels]
    dsimp only [bind, Except.bind] at answered
    cases walked : walk query.1 query.2 with
    | error cause =>
      rw [walked] at answered
      cases answered
    | ok result =>
      rw [walked] at answered
      rw [← Except.ok.inj answered]

end Walks

theorem signal_of_untimed (untimed : service.settings.timeout = none) (stopwatch : Stopwatch)
    (given : Signal) : service.signal stopwatch given = given := by
  rw [Service.signal, untimed]

/-- The paths to a method as the engine finds them under the cap of the settings. -/
def enginePathsTo (service : Service) (signal : Signal) (target : String) (depth : Int) :
    Except DepthError PathsTo :=
  service.index.pathsTo target depth (service.settings.maxPaths.map fun most => (most.1 : Int))
    signal

theorem pathsTo_eq_walkQuery (stopwatch : Stopwatch) (given : Value) (depth : Option Int)
    (signal : Signal) :
    service.pathsTo stopwatch given depth signal =
      service.walkQuery (service.enginePathsTo (service.signal stopwatch signal))
        (fun found depth => found.log depth ++ found.partialLog) given depth :=
  rfl

theorem reach_eq_walkQuery (stopwatch : Stopwatch) (given : Value) (depth : Option Int)
    (signal : Signal) :
    service.reach stopwatch given depth signal =
      service.walkQuery
        (fun start depth => service.index.reach start depth (service.signal stopwatch signal))
        (fun found _ => found.log) given depth :=
  rfl

end Service

/-! ### The four queries -/

/-- **Method queries are screened by their name and depth.** Whatever the index, the settings, the
name and the depth, callers, callees, paths and reach are refused for their input exactly when the
name is missing or blank, or the depth is given, out of the limits and short enough to be written; a
longer one out of the limits is not refused as input but ends in the wording of the refusal. With a
name and a depth within the limits they are refused for an unknown method exactly when the index
does not have the trimmed name, and otherwise they are answered. The engine never refuses a depth,
and a depth that is left out is the default one. Without a time limit, the answers of the two path
queries are those of the engine for the trimmed name, at the depth of the query and under the cap of
the settings. -/
theorem method_queries_screened (service : Service) (untimed : service.settings.timeout = none)
    (name : Option String) (depth : Option Int) (includeSelf : Bool) (stopwatch : Stopwatch)
    (signal : Signal) :
    service.Screens name depth (service.callers (nameValue name) depth includeSelf) ∧
      service.Screens name depth (service.callees (nameValue name) depth includeSelf) ∧
      service.Screens name depth (service.pathsTo stopwatch (nameValue name) depth signal) ∧
      service.Screens name depth (service.reach stopwatch (nameValue name) depth signal) ∧
      service.checkedDepth none = .ok service.settings.defaultDepth.1 ∧
      (∀ found, service.pathsTo stopwatch (nameValue name) depth signal = .ok found →
        ∃ s, name = some s ∧
          service.index.pathsTo (Text.trim s) (depth.getD service.settings.defaultDepth.1)
            (service.settings.maxPaths.map fun most => (most.1 : Int)) signal = .ok found.1) ∧
      ∀ found, service.reach stopwatch (nameValue name) depth signal = .ok found →
        ∃ s, name = some s ∧
          service.index.reach (Text.trim s) (depth.getD service.settings.defaultDepth.1) signal =
            .ok found.1 := by
  have related : ∀ next,
      service.Screens name depth (service.related next (nameValue name) depth includeSelf) :=
    fun next => (service.checks_checkedMethod name depth).screens fun _ _ _ => ⟨_, rfl⟩
  have omitted : service.Within none := fun given wrong => by cases wrong
  refine ⟨related _, related _, ?_, ?_, Service.checkedDepth_of_within omitted,
    fun found answered => ?_, fun found answered => ?_⟩
  · rw [Service.pathsTo_eq_walkQuery]
    apply Service.screens_walkQuery
    intro method levels deep
    exact service.index.exists_pathsTo_eq method deep _ _
  · rw [Service.reach_eq_walkQuery]
    apply Service.screens_walkQuery
    intro method levels deep
    exact service.index.exists_reach_eq method deep _
  · rw [Service.pathsTo_eq_walkQuery, Service.signal_of_untimed untimed] at answered
    exact Service.walkQuery_eq_ok answered
  · rw [Service.reach_eq_walkQuery, Service.signal_of_untimed untimed] at answered
    exact Service.walkQuery_eq_ok answered

/-- Settings with narrow limits. -/
def narrowSettings : Settings :=
  { Settings.standard with
    defaultDepth := ⟨2, by decide⟩
    maxDepthLimit := ⟨3, by decide⟩
    maxPaths := some ⟨1, Nat.one_pos⟩
    default_le_limit := by decide }

theorem not_isBlank_some {s : String} (full : Text.trim s ≠ "") : ¬ IsBlank (some s) :=
  fun blank => full (blank s rfl)

theorem not_within_narrow {index : Index} {given : Int} (deep : 3 < given) :
    ¬ Service.Within ⟨index, narrowSettings⟩ (some given) := by
  intro within
  have most : given ≤ 3 := (within given rfl).2
  omega

theorem narrow_queries_screened :
    narrowSettings.timeout = none ∧
      (∃ found, Service.pathsTo ⟨jobIndex, narrowSettings⟩ (fun _ => 0)
          (.text " App.Log.Report ") none .never = .ok found ∧
        jobIndex.pathsTo "App.Log.Report" 2 (some 1) .never = .ok found.1) ∧
      (∃ cause, Service.reach ⟨jobIndex, narrowSettings⟩ (fun _ => 0) (.text "App.Log.Report")
          (some 4) .never = .error cause ∧ cause.isInput = true) ∧
      ∃ method, Service.callers ⟨jobIndex, narrowSettings⟩ (.text "App.Log") (some 3) false =
        .error (.methodUnknown method) := by
  obtain ⟨-, -, paths, -, -, engine, -⟩ := method_queries_screened ⟨jobIndex, narrowSettings⟩ rfl
    (some " App.Log.Report ") none false (fun _ => 0) .never
  have omitted : Service.Within ⟨jobIndex, narrowSettings⟩ none := fun given wrong => by cases wrong
  obtain ⟨found, answered⟩ :=
    paths.answered (not_isBlank_some (by decide)) omitted ⟨_, rfl, by decide⟩
  obtain ⟨s, same, walked⟩ := engine found answered
  obtain rfl := Option.some.inj same
  obtain ⟨-, -, -, reach, -⟩ := method_queries_screened ⟨jobIndex, narrowSettings⟩ rfl
    (some "App.Log.Report") (some 4) false (fun _ => 0) .never
  obtain ⟨callers, -⟩ := method_queries_screened ⟨jobIndex, narrowSettings⟩ rfl
    (some "App.Log") (some 3) false (fun _ => 0) .never
  have within : Service.Within ⟨jobIndex, narrowSettings⟩ (some 3) := by
    intro given same
    obtain rfl := Option.some.inj same
    decide
  have lost : ¬ Service.Finds ⟨jobIndex, narrowSettings⟩ (some "App.Log") := by
    rintro ⟨s, same, known⟩
    obtain rfl := Option.some.inj same
    exact absurd known (by decide)
  have trims : Text.trim " App.Log.Report " = "App.Log.Report" := by decide
  rw [trims] at walked
  refine ⟨rfl, ⟨found, answered, walked⟩, ?_, ?_⟩
  · exact reach.input.mpr (Or.inr ⟨not_within_narrow (by decide), rfl⟩)
  · exact (callers.unknown (not_isBlank_some (by decide)) within).mpr lost

/-- **A depth too long to be shown.** It is out of the limits, but it is not refused as input. -/
theorem overlong_depth_misused :
    ¬ Service.Within ⟨jobIndex, narrowSettings⟩ (some Text.overlong) ∧
      Service.callers ⟨jobIndex, narrowSettings⟩ (.text "App.Log.Report") (some Text.overlong)
        false = .error (.misuse .tooLong) ∧
      (QueryError.misuse .tooLong).isInput = false := by
  have outside : ¬ Service.Within ⟨jobIndex, narrowSettings⟩ (some Text.overlong) :=
    not_within_narrow (Text.lt_overlong (by decide))
  have screens : Service.Screens ⟨jobIndex, narrowSettings⟩ (some "App.Log.Report")
      (some Text.overlong) (Service.callers ⟨jobIndex, narrowSettings⟩ (.text "App.Log.Report")
        (some Text.overlong) false) :=
    (Service.checks_checkedMethod _ (some "App.Log.Report") _).screens fun _ _ _ => ⟨_, rfl⟩
  refine ⟨outside, (screens.misused .tooLong).mpr ⟨rfl, ?_, outside, ?_⟩, rfl⟩
  · exact not_isBlank_some (by decide)
  · exact Text.not_isWritable_overlong

end CallGraph
