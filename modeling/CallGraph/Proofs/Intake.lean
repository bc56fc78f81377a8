/-
**Taking in facts.**

An assembly writes the place of every fact that it takes in, the names of a dispatch chain that is
too long, and the name that the call of an edge was bound to. `Fact.Showable` says that these can be
written. Such a fact becomes an edge or is left out (`Assembly.take_of_showable`); any other ends
the assembly (`Assembly.take_of_not_showable`), wherever it stands (`Assembly.foldlM_of_bad`).

A fact that is read from a value that can be written is showable (`Fact.showable_of_decode`): its
names are those that the value states at some level (`Symbol.Reads.isWritable`), and its line has no
more digits than the value has.
-/

import CallGraph.Assembly
import CallGraph.Proofs.Codec
import CallGraph.Proofs.Grammar
import CallGraph.Proofs.Numerals

namespace CallGraph

variable {limit : HopLimit}

namespace Fact

/-! ### What is written of a fact -/

theorem location_eq (fact : Fact) :
    fact.location =
      if fact.file.isWritable = true ∧ fact.line.isWritable = true then
        .ok (fact.file.display ++ ":" ++ fact.line.display)
      else .error .tooLong := by
  unfold location
  cases file : fact.file.isWritable with
  | false => simp [Value.shown_of_not_isWritable file, bind, Except.bind]
  | true =>
    cases line : fact.line.isWritable with
    | false =>
      simp [Value.shown_of_isWritable file, Value.shown_of_not_isWritable line, bind, Except.bind]
    | true =>
      simp [Value.shown_of_isWritable file, Value.shown_of_isWritable line, bind, Except.bind, pure,
        Except.pure]

/-- **Whatever taking in a fact writes can be written.** -/
structure Showable (limit : HopLimit) (fact : Fact) : Prop where
  file : fact.file.isWritable = true
  line : fact.line.isWritable = true
  /-- The names that the refusal of a callee shows. -/
  chain : ∀ callee, fact.callee = some callee → callee.resolve? limit = none →
    Value.areWritable (callee.unsettledShows limit) = true
  /-- The name that the call of an edge was bound to. -/
  bound : ∀ callee resolved, fact.callee = some callee → fact.resolveCallee limit = .ok resolved →
    resolved.report.isValid = true → callee.member.name.isWritable = true

/-- A showable fact is refused for its own faults. -/
theorem Showable.misuse?_eq_none {fact : Fact} {cause : FactError} (showable : fact.Showable limit)
    (refused : fact.toEdge limit = .error cause) : cause.misuse? = none := by
  rw [toEdge_eq] at refused
  cases resolving : fact.resolveCallee limit with
  | error first =>
    rw [resolving] at refused
    obtain rfl := Except.error.inj refused
    obtain ⟨callee, isCallee, unsettled, rfl⟩ := resolveCallee_eq_error_iff.mp resolving
    rw [Value.refusal_of_writable (showable.chain callee isCallee unsettled)]
    rfl
  | ok resolved =>
    rw [resolving] at refused
    dsimp only at refused
    split at refused
    · rename_i valid
      obtain ⟨callee, isCallee⟩ := exists_callee_of_isValid resolving valid
      rw [isCallee, boundName_eq, if_pos (showable.bound callee resolved isCallee resolving valid)]
        at refused
      cases refused
    · rw [check_of_isWritable ((line_of_resolveCallee resolving).symm ▸ showable.line)] at refused
      obtain rfl := Except.error.inj refused
      rfl

/-- Any other fact whose place can be written is not refused for a fault of its own. -/
theorem exists_misuse_of_not_showable {fact : Fact} (file : fact.file.isWritable = true)
    (line : fact.line.isWritable = true) (unshowable : ¬ fact.Showable limit) :
    ∃ cause, fact.toEdge limit = .error cause ∧ cause.misuse? = some .tooLong := by
  rw [toEdge_eq]
  cases resolving : fact.resolveCallee limit with
  | error cause =>
    refine ⟨cause, rfl, ?_⟩
    obtain ⟨callee, isCallee, unsettled, rfl⟩ := resolveCallee_eq_error_iff.mp resolving
    rcases Value.refusal_cases FactError.misuse (.unsettled callee limit)
      (callee.unsettledShows limit) with ⟨writable, -⟩ | ⟨-, same⟩
    · refine absurd ⟨file, line, fun other isOther _ => ?_, fun _ _ _ resolved => ?_⟩ unshowable
      · exact Option.some.inj (isCallee.symm.trans isOther) ▸ writable
      · rw [resolving] at resolved
        cases resolved
    · rw [same]
      rfl
  | ok resolved =>
    dsimp only
    have settled : ∀ callee, fact.callee = some callee → callee.resolve? limit ≠ none := by
      intro callee isCallee unsettled
      rw [resolveCallee_eq_error_iff.mpr ⟨callee, isCallee, unsettled, rfl⟩] at resolving
      cases resolving
    by_cases valid : resolved.report.isValid = true
    · obtain ⟨callee, isCallee⟩ := exists_callee_of_isValid resolving valid
      rw [if_pos valid, isCallee, boundName_eq]
      by_cases writable : callee.member.name.isWritable = true
      · refine absurd ⟨file, line, fun other isOther unsettled => ?_, fun other _ isOther _ _ => ?_⟩
          unshowable
        · exact absurd unsettled (settled other isOther)
        · exact Option.some.inj (isCallee.symm.trans isOther) ▸ writable
      · rw [if_neg writable]
        exact ⟨_, rfl, rfl⟩
    · refine absurd ⟨file, line, fun other isOther unsettled => ?_,
        fun other again _ same isValid => ?_⟩ unshowable
      · exact absurd unsettled (settled other isOther)
      · obtain rfl : resolved = again := Except.ok.inj (resolving.symm.trans same)
        exact absurd isValid valid

end Fact

/-! ### One fact -/

namespace Assembly

/-- **A showable fact** is left out under its place, or its edge goes to the builder. -/
theorem take_of_showable {fact : Fact} (showable : fact.Showable limit) (assembly : Assembly) :
    (∃ place cause, fact.location = .ok place ∧ fact.toEdge limit = .error cause ∧
      assembly.take limit fact = .ok (assembly.leave ⟨place, cause.errors⟩)) ∨
    ∃ edge, fact.toEdge limit = .ok edge ∧
      ∀ new builder, assembly.builder.add edge = (.ok new, builder) →
        assembly.take limit fact = .ok ({ assembly with builder := builder }.count new) := by
  have located := fact.location_eq.trans (if_pos ⟨showable.file, showable.line⟩)
  unfold take
  rw [located]
  dsimp only [Except.mapError, bind, Except.bind]
  cases made : fact.toEdge limit with
  | error cause =>
    refine Or.inl ⟨_, cause, rfl, rfl, ?_⟩
    dsimp only
    rw [showable.misuse?_eq_none made]
  | ok edge =>
    refine Or.inr ⟨edge, rfl, fun new builder added => ?_⟩
    dsimp only
    rw [added]

/-- **Any other fact** ends the assembly. -/
theorem take_of_not_showable {fact : Fact} (unshowable : ¬ fact.Showable limit)
    (assembly : Assembly) : assembly.take limit fact = .error (.misuse .tooLong) := by
  unfold take
  rw [fact.location_eq]
  split
  · rename_i place
    obtain ⟨cause, refused, misused⟩ :=
      Fact.exists_misuse_of_not_showable place.1 place.2 unshowable
    rw [refused]
    dsimp only [Except.mapError, bind, Except.bind]
    rw [misused]
  · rfl

/-- **One bad item ends a run**, when every good item before it lets the run go on. -/
theorem foldlM_of_bad {σ ι ε : Type} {step : σ → ι → Except ε σ} {cause : ε} (Keeps : σ → Prop)
    (Good : ι → Prop)
    (good : ∀ state item, Keeps state → Good item → ∃ next, step state item = .ok next ∧ Keeps next)
    (bad : ∀ state item, ¬ Good item → step state item = .error cause) {state : σ}
    (keeps : Keeps state) {items : List ι} (spoiled : ∃ item ∈ items, ¬ Good item) :
    items.foldlM step state = .error cause := by
  induction items generalizing state with
  | nil =>
    obtain ⟨item, listed, -⟩ := spoiled
    cases listed
  | cons first rest ih =>
    rw [List.foldlM_cons]
    by_cases isGood : Good first
    · obtain ⟨next, stepped, nextKeeps⟩ := good state first keeps isGood
      rw [stepped]
      obtain ⟨item, listed, isBad⟩ := spoiled
      rcases List.mem_cons.mp listed with rfl | later
      · exact absurd isGood isBad
      · exact ih nextKeeps ⟨item, later, isBad⟩
    · rw [bad state first isGood]
      rfl

end Assembly

/-! ### Facts that are read -/

namespace Symbol

/-- Steps along a chain lead to a level of the symbol. -/
theorem nests_reached (steps : Nat) (symbol : Symbol) : symbol.Nests (symbol.reached steps) := by
  induction steps generalizing symbol with
  | zero => exact .refl
  | succ steps ih =>
    rw [reached]
    cases step : symbol.next? with
    | none => exact .refl
    | some target =>
      have first : symbol.Nests target := Nests.next .refl step
      exact first.trans (ih target)

theorem StatesTargets.isWritable {fields : List (String × Value)} {items : List Value}
    (states : StatesTargets fields items) (writable : (Value.record fields).isWritable = true)
    {item : Value} (listed : item ∈ items) : item.isWritable = true := by
  cases states with
  | omitted absent => cases listed
  | void isVoid given => cases listed
  | listed given => exact Value.isWritable_item (Value.isWritable_of_lookup writable given) listed

/-- **The names at all levels** of a symbol can be written when the value can that describes it. -/
theorem Reads.isWritable {given : Value} {symbol level : Symbol} (reads : Reads given symbol)
    (writable : given.isWritable = true) (nests : symbol.Nests level) :
    level.member.name.isWritable = true := by
  induction reads with
  | @record fields symbol items stated named states count each ih =>
    rcases Relation.ReflTransGen.cases_head nests with rfl | ⟨target, listed, deeper⟩
    · rw [named]
      exact Value.isWritable_field writable _
    · rw [← List.map_snd_zip (Nat.le_of_eq count.symm)] at listed
      obtain ⟨pair, paired, rfl⟩ := List.mem_map.mp listed
      exact ih pair paired (states.isWritable writable (List.of_mem_zip paired).1) deeper

end Symbol

namespace Fact

theorem isWritable_of_symbolOf {given : Value} {symbol level : Symbol}
    (read : symbolOf given = .ok (some symbol)) (writable : given.isWritable = true)
    (nests : symbol.Nests level) : level.member.name.isWritable = true := by
  have decoded : Symbol.decode given = .ok symbol := by
    unfold symbolOf at read
    split at read
    · cases read
    · cases decoding : Symbol.decode given with
      | error cause => rw [decoding] at read; cases read
      | ok other =>
        rw [decoding] at read
        exact congrArg Except.ok (Option.some.inj (Except.ok.inj read))
  exact (Symbol.reads_of_decode decoded).isWritable writable nests

/-- **A fact is showable when the value can be written that it is read from.** -/
theorem showable_of_decode {record : Value} {fact : Fact} (decoded : decode record = .ok fact)
    (writable : record.isWritable = true) : fact.Showable limit := by
  obtain ⟨fields, n, rfl, callee, file, line, isLine⟩ := decode_eq_ok decoded
  have levels : ∀ symbol level, fact.callee = some symbol → symbol.Nests level →
      level.member.name.isWritable = true := by
    intro symbol level isCallee nests
    rw [isCallee] at callee
    exact isWritable_of_symbolOf callee (Value.isWritable_field writable _) nests
  refine ⟨?_, ?_, ?_, ?_⟩
  · rw [file]
    exact Value.isWritable_field writable _
  · rw [isLine]
    exact isWritable_of_lineOf (Value.isWritable_getD writable _ rfl) line
  · intro symbol isCallee _
    refine (Value.areWritable_iff _).mpr fun name listed => ?_
    rcases List.mem_pair.mp listed with rfl | rfl
    · exact levels symbol _ isCallee (symbol.nests_reached _)
    · exact levels symbol symbol isCallee .refl
  · intro symbol resolved isCallee _ _
    exact levels symbol symbol isCallee .refl

end Fact

end CallGraph
