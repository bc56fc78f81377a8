/-
**What admission lets through.**

A fact becomes an edge in stages: its callee is resolved, the fact is checked, and the edge is made
of the trimmed fact. The edge of a fact that passes is always made (`Fact.ofFact_report`), and only
the name that the call was bound to may still be too long to be written, so `Fact.toEdge_eq` is all
there is to know about admission.

* `Fact.isValid_report_iff`: which facts pass the check;
* `Fact.check_eq`: when there is a report at all;
* `Fact.errors_ne_nil`: a fact that is refused has an error to show;
* `Fact.toEdge_eq_ok`: an admitted fact has both sides, and its edge carries their trimmed names,
  those of the callee from the end of its dispatch chain (`Symbol.chainEnd`).
-/

import CallGraph.Admission
import CallGraph.Proofs.Edges

namespace CallGraph

/-! ### The end of a dispatch chain -/

namespace Symbol

theorem sizeOf_target_lt {symbol target : Symbol} (points : symbol.targets.head? = some target) :
    sizeOf target < sizeOf symbol := by
  have listed : target ∈ symbol.targets := List.mem_of_mem_head? points
  cases symbol with
  | ordinary member => cases points
  | interfaceMember member => cases points
  | override member base =>
    rw [targets, List.mem_singleton] at listed
    rw [listed, override.sizeOf_spec]
    omega
  | reducedExtension member origin =>
    rw [targets, List.mem_singleton] at listed
    rw [listed, reducedExtension.sizeOf_spec]
    omega
  | explicitImpl member targets =>
    have smaller := List.sizeOf_lt_of_mem listed
    rw [Symbol.targets] at smaller
    rw [explicitImpl.sizeOf_spec]
    omega

/-- The symbol that the first targets lead to. -/
def chainEnd (symbol : Symbol) : Symbol :=
  match _points : symbol.targets.head? with
  | none => symbol
  | some target => target.chainEnd
termination_by sizeOf symbol
decreasing_by exact sizeOf_target_lt _points

theorem next?_eq (symbol : Symbol) : symbol.next? = symbol.targets.head? := by
  cases symbol <;> rfl

theorem eq_chainEnd_of_settle {looks : Nat} {symbol last : Symbol}
    (settles : settle looks symbol = some last) : last = symbol.chainEnd := by
  induction looks generalizing symbol with
  | zero => cases settles
  | succ looks ih =>
    rw [settle, next?_eq] at settles
    rw [chainEnd]
    split
    · rename_i ends
      rw [ends] at settles
      exact (Option.some.inj settles).symm
    · rename_i target points
      rw [points] at settles
      exact ih settles

theorem member_withMember (symbol : Symbol) (member : Member) :
    (symbol.withMember member).member = member := by
  cases symbol <;> rfl

end Symbol

/-- The name that a call was bound to changes neither its ends nor its site. -/
theorem Edge.boundTo_ends (edge : Edge) (name : String) :
    (edge.boundTo name).caller = edge.caller ∧ (edge.boundTo name).callee = edge.callee ∧
      (edge.boundTo name).site = edge.site := by
  unfold Edge.boundTo
  split
  · exact ⟨rfl, rfl, rfl⟩
  · exact ⟨rfl, rfl, rfl⟩

theorem Member.typed_trimmed (member : Member) : member.trimmed.Typed :=
  ⟨⟨_, rfl⟩, ⟨_, rfl⟩, ⟨_, rfl⟩⟩

namespace Fact

/-! ### The check -/

theorem requireText_eq_nil_iff (content : String) (defect : Defect) :
    requireText content defect = [] ↔ content ≠ "" := by
  by_cases empty : content = ""
  · subst empty
    exact iff_of_false (List.cons_ne_nil _ _) fun full => full rfl
  · rw [requireText, if_neg fun is => empty (String.isEmpty_iff.mp is)]
    exact iff_of_true rfl empty

/-- A side passes when it is there and its name and type have content. -/
theorem checkSide_eq_nil_iff (side : Side) (given : Option Symbol) :
    (checkSide side given).1 = [] ↔
      ∃ symbol, given = some symbol ∧
        symbol.member.name.trimmed ≠ "" ∧ symbol.member.type.trimmed ≠ "" := by
  cases given with
  | none =>
    refine iff_of_false (List.cons_ne_nil _ _) ?_
    rintro ⟨symbol, missing, -⟩
    cases missing
  | some symbol =>
    rw [checkSide, List.append_eq_nil_iff, requireText_eq_nil_iff, requireText_eq_nil_iff]
    constructor
    · exact fun content => ⟨symbol, rfl, content⟩
    · rintro ⟨other, same, content⟩
      exact Option.some.inj same ▸ content

theorem checkLine_eq_nil_iff (given : Value) :
    (checkLine given).1 = [] ↔ ∃ n, given = .int n ∧ 1 ≤ n := by
  unfold checkLine
  split
  · rename_i n
    split
    · rename_i small
      refine iff_of_false (List.cons_ne_nil _ _) ?_
      rintro ⟨m, same, large⟩
      obtain rfl := Value.int.inj same
      omega
    · rename_i large
      exact iff_of_true rfl ⟨n, rfl, by omega⟩
  · rename_i other
    refine iff_of_false (List.cons_ne_nil _ _) ?_
    rintro ⟨n, same, -⟩
    exact other n same

/-- **The facts that pass**: both sides are there with a name and a type, and the file and the line
are given. -/
theorem isValid_report_iff (fact : Fact) :
    fact.report.isValid = true ↔
      (∃ caller, fact.caller = some caller ∧
        caller.member.name.trimmed ≠ "" ∧ caller.member.type.trimmed ≠ "") ∧
      (∃ callee, fact.callee = some callee ∧
        callee.member.name.trimmed ≠ "" ∧ callee.member.type.trimmed ≠ "") ∧
      fact.file.trimmed ≠ "" ∧ ∃ n, fact.line = .int n ∧ 1 ≤ n := by
  rw [Report.isValid, List.isEmpty_iff]
  show (checkSide .caller fact.caller).1 ++ (checkSide .callee fact.callee).1 ++
    requireText fact.file.trimmed .noFile ++ (checkLine fact.line).1 = [] ↔ _
  rw [List.append_eq_nil_iff, List.append_eq_nil_iff, List.append_eq_nil_iff,
    checkSide_eq_nil_iff, checkSide_eq_nil_iff, requireText_eq_nil_iff, checkLine_eq_nil_iff,
    and_assoc, and_assoc]

/-! ### Wording the defects -/

theorem all_requireText {p : Defect → Bool} {defect : Defect} (holds : p defect = true)
    (content : String) : (requireText content defect).all p = true := by
  unfold requireText
  split
  · simp [holds]
  · rfl

theorem all_checkSide (side : Side) (given : Option Symbol) :
    (checkSide side given).1.all (fun defect => Value.areWritable defect.shows) = true := by
  cases given with
  | none => rfl
  | some symbol =>
    rw [checkSide, List.all_append, all_requireText rfl, all_requireText rfl]
    rfl

/-- A line that fails is shown. -/
theorem all_checkLine (given : Value) :
    (checkLine given).1.all (fun defect => Value.areWritable defect.shows) = true ↔
      (checkLine given).1 = [] ∨ given.isWritable = true := by
  have shows : ([Defect.badLine given].all fun defect => Value.areWritable defect.shows) =
      given.isWritable := by
    simp [Defect.shows, Value.areWritable]
  unfold checkLine
  split
  · split
    · rw [shows]
      exact (or_iff_right (List.cons_ne_nil _ _)).symm
    · exact iff_of_true rfl (Or.inl rfl)
  · rw [shows]
    exact (or_iff_right (List.cons_ne_nil _ _)).symm

/-- **When there is a report**: the line passes, or can be written. -/
theorem check_eq (fact : Fact) :
    fact.check =
      if (checkLine fact.line).1 = [] ∨ fact.line.isWritable = true then .ok fact.report
      else .error .tooLong := by
  refine if_congr ?_ rfl rfl
  show (((checkSide .caller fact.caller).1 ++ (checkSide .callee fact.callee).1 ++
    requireText fact.file.trimmed .noFile ++ (checkLine fact.line).1).all
      fun defect => Value.areWritable defect.shows) = true ↔ _
  rw [List.all_append, List.all_append, List.all_append, all_checkSide, all_checkSide,
    all_requireText rfl, ← all_checkLine]
  rfl

theorem eq_report_of_check {fact : Fact} {report : Report} (checked : fact.check = .ok report) :
    report = fact.report := by
  rw [check_eq] at checked
  split at checked
  · exact (Except.ok.inj checked).symm
  · cases checked

theorem check_of_isWritable {fact : Fact} (writable : fact.line.isWritable = true) :
    fact.check = .ok fact.report :=
  (check_eq fact).trans (if_pos (Or.inr writable))

/-- A fact that passes has nothing to show. -/
theorem check_of_isValid {fact : Fact} (valid : fact.report.isValid = true) :
    fact.check = .ok fact.report := by
  obtain ⟨-, -, -, line⟩ := fact.isValid_report_iff.mp valid
  exact (check_eq fact).trans (if_pos (Or.inl ((checkLine_eq_nil_iff _).mpr line)))

/-! ### Stages -/

theorem resolveCallee_eq_error_iff {limit : HopLimit} {fact : Fact} {cause : FactError} :
    fact.resolveCallee limit = .error cause ↔
      ∃ callee, fact.callee = some callee ∧ callee.resolve? limit = none ∧
        cause = Value.refusal FactError.misuse (.unsettled callee limit)
          (callee.unsettledShows limit) := by
  unfold resolveCallee Symbol.resolve
  cases fact.callee with
  | none => simp
  | some callee =>
    cases settles : callee.resolve? limit with
    | some last => simp [settles, Except.map]
    | none => simp [settles, Except.map, eq_comm]

/-- Resolution leaves everything but the callee as it is. -/
theorem line_of_resolveCallee {limit : HopLimit} {fact resolved : Fact}
    (resolving : fact.resolveCallee limit = .ok resolved) : resolved.line = fact.line := by
  unfold resolveCallee at resolving
  split at resolving
  · rw [Except.ok.inj resolving]
  · rename_i callee _
    cases settled : callee.resolve limit with
    | error cause => rw [settled] at resolving; cases resolving
    | ok last =>
      rw [settled] at resolving
      rw [← Except.ok.inj resolving]

/-- A fact that passes its check has a callee. -/
theorem exists_callee_of_isValid {limit : HopLimit} {fact resolved : Fact}
    (resolving : fact.resolveCallee limit = .ok resolved) (valid : resolved.report.isValid = true) :
    ∃ callee, fact.callee = some callee := by
  cases isCallee : fact.callee with
  | some callee => exact ⟨callee, rfl⟩
  | none =>
    obtain ⟨-, ⟨callee, given, -⟩, -⟩ := resolved.isValid_report_iff.mp valid
    unfold resolveCallee at resolving
    rw [isCallee] at resolving
    obtain rfl := Except.ok.inj resolving
    rw [isCallee] at given
    cases given

/-- The name that a call was bound to is there unless it is too long. -/
theorem boundName_eq (symbol : Symbol) :
    boundName (some symbol) =
      if symbol.member.name.isWritable = true then
        .ok (if symbol.member.name.isVoid then "" else Text.trim symbol.member.name.display)
      else .error .tooLong := by
  unfold boundName
  dsimp only
  by_cases void : symbol.member.name.isVoid = true
  · rw [if_pos void, if_pos (Value.isWritable_of_isVoid void), if_pos void]
  · rw [if_neg void, if_neg void]
    cases writable : symbol.member.name.isWritable with
    | true => rw [Value.shown_of_isWritable writable]; rfl
    | false => rw [Value.shown_of_not_isWritable writable]; rfl

/-- The edge of a trimmed fact. -/
def checkedEdge (fact : Fact) : Edge where
  caller := (checkSide .caller fact.caller).2.member
  callee := (checkSide .callee fact.callee).2.member
  site := ⟨.text fact.file.trimmed, (checkLine fact.line).2⟩
  resolvedFrom := .text ""

/-- A trimmed fact is never incomplete. -/
theorem ofFact_report (fact : Fact) :
    Edge.ofFact fact.report.fact (.text "") = .ok fact.checkedEdge := rfl

theorem checkedEdge_of {fact : Fact} {caller callee : Symbol} {n : Int}
    (isCaller : fact.caller = some caller) (isCallee : fact.callee = some callee)
    (line : fact.line = .int n) (large : 1 ≤ n) :
    fact.checkedEdge = ⟨caller.member.trimmed, callee.member.trimmed,
      ⟨.text fact.file.trimmed, .int n⟩, .text ""⟩ := by
  have kept : (checkLine (.int n)).2 = .int n := by
    rw [checkLine, if_neg (by omega)]
  rw [checkedEdge, isCaller, isCallee, line, kept, checkSide, checkSide, Symbol.member_withMember,
    Symbol.member_withMember]

/-- **Admission**: a fact is refused when its callee cannot be resolved or the check fails, and
becomes an edge otherwise. On the way a line that fails and the name that the call was bound to are
written, which may be a misuse. -/
theorem toEdge_eq (limit : HopLimit) (fact : Fact) :
    fact.toEdge limit =
      match fact.resolveCallee limit with
      | .error cause => .error cause
      | .ok resolved =>
        if resolved.report.isValid then
          match boundName fact.callee with
          | .error cause => .error (.misuse cause)
          | .ok bound => .ok (resolved.checkedEdge.boundTo bound)
        else
          match resolved.check with
          | .error cause => .error (.misuse cause)
          | .ok report => .error (.malformed report) := by
  unfold toEdge
  cases fact.resolveCallee limit with
  | error cause => rfl
  | ok resolved =>
    show (resolved.accept >>= _) = _
    unfold accept
    by_cases valid : resolved.report.isValid = true
    · rw [check_of_isValid valid]
      simp only [Except.mapError, bind, Except.bind, valid, if_true, pure, Except.pure]
      cases boundName fact.callee with
      | error cause => rfl
      | ok bound =>
        dsimp only
        rw [ofFact_report]
    · dsimp only
      rw [if_neg valid]
      cases checked : resolved.check with
      | error cause => rfl
      | ok report =>
        obtain rfl := eq_report_of_check checked
        simp only [Except.mapError, bind, Except.bind, valid]
        rfl

theorem exists_toEdge_eq_ok_iff (limit : HopLimit) (fact : Fact) :
    (∃ edge, fact.toEdge limit = .ok edge) ↔
      ∃ resolved bound, fact.resolveCallee limit = .ok resolved ∧
        resolved.report.isValid = true ∧ boundName fact.callee = .ok bound := by
  rw [toEdge_eq]
  cases fact.resolveCallee limit with
  | error cause =>
    refine iff_of_false ?_ ?_
    · rintro ⟨edge, wrong⟩
      cases wrong
    · rintro ⟨resolved, bound, wrong, -⟩
      cases wrong
  | ok resolved =>
    dsimp only
    constructor
    · rintro ⟨edge, admitted⟩
      split at admitted
      · rename_i valid
        split at admitted
        · cases admitted
        · rename_i bound isBound
          exact ⟨resolved, bound, rfl, valid, isBound⟩
      · split at admitted
        · cases admitted
        · cases admitted
    · rintro ⟨other, bound, same, valid, isBound⟩
      obtain rfl := Except.ok.inj same
      rw [if_pos valid, isBound]
      exact ⟨_, rfl⟩

/-- A refusal has at least one error. -/
theorem errors_ne_nil {limit : HopLimit} {fact : Fact} {cause : FactError}
    (refused : fact.toEdge limit = .error cause) : cause.errors ≠ [] := by
  cases cause with
  | malformed report =>
    rw [toEdge_eq] at refused
    cases resolving : fact.resolveCallee limit with
    | error first =>
      rw [resolving] at refused
      obtain rfl := Except.error.inj refused
      obtain ⟨callee, -, -, same⟩ := resolveCallee_eq_error_iff.mp resolving
      rcases Value.refusal_cases FactError.misuse (.unsettled callee limit)
        (callee.unsettledShows limit) with ⟨-, other⟩ | ⟨-, other⟩
      · rw [other] at same; cases same
      · rw [other] at same; cases same
    | ok resolved =>
      rw [resolving] at refused
      dsimp only at refused
      split at refused
      · split at refused
        · cases refused
        · cases refused
      · rename_i invalid
        split at refused
        · cases refused
        · rename_i other checked
          obtain rfl := FactError.malformed.inj (Except.error.inj refused)
          obtain rfl := eq_report_of_check checked
          intro none
          exact invalid (List.isEmpty_iff.mpr (List.map_eq_nil_iff.mp none))
  | unsettled callee limit => exact List.cons_ne_nil _ _
  | edge cause => exact List.cons_ne_nil _ _
  | misuse cause => exact List.cons_ne_nil _ _

/-- **An admitted fact** has both sides, and its edge has their trimmed names, those of the callee
from the end of its chain. -/
theorem toEdge_eq_ok {limit : HopLimit} {fact : Fact} {edge : Edge}
    (admitted : fact.toEdge limit = .ok edge) :
    ∃ caller callee n,
      fact.caller = some caller ∧ fact.callee = some callee ∧ fact.line = .int n ∧ 1 ≤ n ∧
      edge.caller = caller.member.trimmed ∧ edge.callee = callee.chainEnd.member.trimmed ∧
      edge.site = ⟨.text fact.file.trimmed, .int n⟩ ∧
      (caller.member.name.trimmed ≠ "" ∧ caller.member.type.trimmed ≠ "") ∧
      (callee.chainEnd.member.name.trimmed ≠ "" ∧ callee.chainEnd.member.type.trimmed ≠ "") ∧
      fact.file.trimmed ≠ "" := by
  obtain ⟨resolved, bound, resolving, valid, isBound⟩ :=
    (exists_toEdge_eq_ok_iff limit fact).mp ⟨edge, admitted⟩
  rw [toEdge_eq, resolving] at admitted
  dsimp only at admitted
  rw [if_pos valid, isBound] at admitted
  obtain rfl := Except.ok.inj admitted
  obtain ⟨⟨caller, isCaller, callerContent⟩, ⟨last, isLast, lastContent⟩, file, n, line, large⟩ :=
    resolved.isValid_report_iff.mp valid
  -- resolution changes the callee only, and takes it to the end of its chain
  unfold resolveCallee Symbol.resolve at resolving
  split at resolving
  · rename_i absent
    obtain rfl := Except.ok.inj resolving
    rw [absent] at isLast
    cases isLast
  · rename_i callee isCallee
    split at resolving
    · rename_i settled settles
      obtain rfl := Except.ok.inj resolving
      obtain rfl : settled = last := Option.some.inj isLast
      obtain rfl := Symbol.eq_chainEnd_of_settle settles
      obtain ⟨sameCaller, sameCallee, sameSite⟩ := Edge.boundTo_ends
        (checkedEdge { fact with callee := some callee.chainEnd }) bound
      rw [sameCaller, sameCallee, sameSite, checkedEdge_of isCaller isLast line large]
      exact ⟨caller, callee, n, isCaller, isCallee, line, large, rfl, rfl, rfl, callerContent,
        lastContent, file⟩
    · cases resolving

theorem typed_of_toEdge {limit : HopLimit} {fact : Fact} {edge : Edge}
    (admitted : fact.toEdge limit = .ok edge) : edge.Typed := by
  obtain ⟨caller, callee, n, -, -, -, -, isCaller, isCallee, site, -⟩ := toEdge_eq_ok admitted
  refine ⟨?_, ?_, ?_, ?_⟩
  · rw [isCaller]
    exact caller.member.typed_trimmed
  · rw [isCallee]
    exact callee.chainEnd.member.typed_trimmed
  · rw [site]
    exact ⟨_, rfl⟩
  · rw [site]
    exact Or.inl ⟨n, rfl⟩

end Fact

end CallGraph
