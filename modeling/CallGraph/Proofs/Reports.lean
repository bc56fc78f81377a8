/-
**What a report says of a fact.**

A fact needs six fields (`Fact.Field`), each with the value that it is given (`Field.given`). A text
field fails when it is absent, no text or only blanks (`Lacking`), the line when it is no whole
number of at least 1. The six parts of a check are about one field each (`Fact.defects_report`), so
its errors are those of the failing fields in order. The error of the line shows the line, and a
line that fails and is too long to be written leaves no report at all (`Fact.check_eq_ok_iff`).

The fact of a report is always complete (`Fact.Cleaned`): texts are trimmed, whatever is no text
becomes empty, and the line counts from 1. A field of it fails exactly when it failed before, the
line apart (`Fact.Cleaned.fails_iff`).

* `report_names_failing`: which facts are reported on; the errors of a report are those of the
  failing fields, and its fact is clean, whether or not there are errors;
* `report_settles`: checking the fact of a report again changes nothing and finds the same errors
  but the one of the line.
-/

import CallGraph.Proofs.Naming

namespace CallGraph

/-! ### Texts that are required -/

/-- A required text without content: it is absent, no text, or only blanks. -/
inductive Lacking : Option Value → Prop
  | absent : Lacking none
  | odd {value : Value} (odd : ¬ value.IsText) : Lacking (some value)
  | blank {s : String} (blank : ∀ c ∈ s.toList, Text.isBlank c = true) : Lacking (some (.text s))

/-- **What becomes of a text field**: a text is trimmed, and anything else becomes empty. -/
inductive Cleans : Option Value → Value → Prop
  | text (s : String) : Cleans (some (.text s)) (.text (Text.trim s))
  | absent : Cleans none (.text "")
  | odd {value : Value} (odd : ¬ value.IsText) : Cleans (some value) (.text "")

theorem Value.trimmed_of_not_isText {value : Value} (odd : ¬ value.IsText) :
    value.trimmed = "" := by
  cases value with
  | text s => exact absurd ⟨s, rfl⟩ odd
  | _ => rfl

theorem Value.cleans_trimmed (value : Value) : Cleans (some value) (.text value.trimmed) := by
  by_cases text : value.IsText
  · obtain ⟨s, rfl⟩ := text
    exact .text s
  · rw [Value.trimmed_of_not_isText text]
    exact .odd text

theorem Member.trimmed_trimmed (member : Member) : member.trimmed.trimmed = member.trimmed := by
  show (⟨.text (Text.trim _), .text (Text.trim _), .text (Text.trim _)⟩ : Member) = _
  rw [Value.trim_trimmed, Value.trim_trimmed, Value.trim_trimmed]
  rfl

theorem lacking_some_iff (value : Value) : Lacking (some value) ↔ value.trimmed = "" := by
  constructor
  · intro lacking
    cases lacking with
    | odd odd => exact Value.trimmed_of_not_isText odd
    | blank blank => exact (Text.trim_eq_empty_iff _).mpr blank
  · intro empty
    by_cases text : value.IsText
    · obtain ⟨s, rfl⟩ := text
      exact .blank ((Text.trim_eq_empty_iff s).mp empty)
    · exact .odd text

instance : (given : Option Value) → Decidable (Lacking given)
  | none => isTrue .absent
  | some value => decidable_of_iff _ (lacking_some_iff value).symm

/-- A clean text lacks content exactly when the text that it was made of does. -/
theorem Cleans.lacking_iff {given : Option Value} {clean : Value} (cleans : Cleans given clean) :
    Lacking (some clean) ↔ Lacking given := by
  have empty : Lacking (some (.text "")) := .blank fun c listed => (List.not_mem_nil listed).elim
  cases cleans with
  | text s =>
    rw [lacking_some_iff, lacking_some_iff]
    show Text.trim (Text.trim s) = "" ↔ Text.trim s = ""
    rw [Text.trim_trim]
  | absent => exact iff_of_true empty .absent
  | odd odd => exact iff_of_true empty (.odd odd)

/-! ### The fields of a fact -/

/-- A whole number of at least 1. -/
def Value.IsLine (value : Value) : Prop := ∃ n, value = .int n ∧ 1 ≤ n

instance (value : Value) : Decidable value.IsLine :=
  decidable_of_iff ((Fact.checkLine value).1.isEmpty = true) <| by
    rw [List.isEmpty_iff, Fact.checkLine_eq_nil_iff]
    rfl

namespace Fact

/-- A side of a fact. -/
def symbolAt (fact : Fact) : Side → Option Symbol
  | .caller => fact.caller
  | .callee => fact.callee

/-- A name on one side of a fact, absent when the side is. -/
def nameAt (fact : Fact) (side : Side) (read : Member → Value) : Option Value :=
  (fact.symbolAt side).map fun symbol => read symbol.member

/-- The fields that a fact needs. -/
inductive Field where
  | name (side : Side)
  | type (side : Side)
  | file
  | line
  deriving DecidableEq

namespace Field

/-- All fields, in the order in which they are reported. -/
def all : List Field :=
  [.name .caller, .type .caller, .name .callee, .type .callee, .file, .line]

/-- The name of a field in messages. -/
def label : Field → String
  | name .caller => "caller"
  | type .caller => "caller_class"
  | name .callee => "callee"
  | type .callee => "callee_class"
  | file => "file_path"
  | line => "line_number"

/-- What a fact has in a field. -/
def given (fact : Fact) : Field → Option Value
  | name side => fact.nameAt side Member.name
  | type side => fact.nameAt side Member.type
  | file => some fact.file
  | line => some fact.line

/-- **A field that fails.** -/
def Fails (fact : Fact) : Field → Prop
  | line => ¬ fact.line.IsLine
  | field => Lacking (field.given fact)

instance (fact : Fact) : (field : Field) → Decidable (field.Fails fact)
  | name side => inferInstanceAs (Decidable (Lacking ((name side).given fact)))
  | type side => inferInstanceAs (Decidable (Lacking ((type side).given fact)))
  | file => inferInstanceAs (Decidable (Lacking (file.given fact)))
  | line => inferInstanceAs (Decidable (¬ fact.line.IsLine))

/-- What is said of a field that fails. -/
def complaint (fact : Fact) : Field → String
  | line => "Required field '" ++ line.label ++ "' must be >= 1, got " ++ fact.line.display
  | field => "Required field '" ++ field.label ++ "' is missing or empty"

/-- The defect of a field that fails. -/
def defect (fact : Fact) : Field → Defect
  | name side => .noName side
  | type side => .noType side
  | file => .noFile
  | line => .badLine fact.line

theorem message_defect (fact : Fact) (field : Field) :
    (field.defect fact).message = field.complaint fact := by
  cases field with
  | name side => cases side <;> rfl
  | type side => cases side <;> rfl
  | file => rfl
  | line => rfl

end Field

/-! ### The defects of a fact -/

/-- The defect of a field, if it fails. -/
def found (fact : Fact) (field : Field) : List Defect :=
  if field.Fails fact then [field.defect fact] else []

theorem requireText_trimmed (value : Value) (defect : Defect) :
    requireText value.trimmed defect = if Lacking (some value) then [defect] else [] := by
  rw [requireText]
  refine if_congr ?_ rfl rfl
  rw [String.isEmpty_iff, lacking_some_iff]

/-- The check of a side is about its name and its type. -/
theorem checkSide_symbolAt (fact : Fact) (side : Side) :
    (checkSide side (fact.symbolAt side)).1 =
      fact.found (.name side) ++ fact.found (.type side) := by
  cases at_ : fact.symbolAt side with
  | none =>
    have absent : ∀ read, Lacking (fact.nameAt side read) := fun read => by
      rw [nameAt, at_]
      exact .absent
    have nameless : (Field.name side).Fails fact := absent Member.name
    have typeless : (Field.type side).Fails fact := absent Member.type
    rw [found, if_pos nameless, found, if_pos typeless]
    rfl
  | some symbol =>
    have there : ∀ read, fact.nameAt side read = some (read symbol.member) := fun read => by
      rw [nameAt, at_]
      rfl
    show requireText _ _ ++ requireText _ _ = _
    rw [requireText_trimmed, requireText_trimmed, ← there Member.name, ← there Member.type]
    rfl

theorem checkLine_line (fact : Fact) : (checkLine fact.line).1 = fact.found .line := by
  unfold found
  split
  · rename_i fails
    unfold checkLine
    split
    · rename_i n isInt
      rw [if_pos (Int.not_le.mp fun large => fails ⟨n, isInt, large⟩)]
      rfl
    · rfl
  · rename_i passes
    exact (checkLine_eq_nil_iff _).mpr (not_not.mp passes)

/-- Looking at each item and keeping what passes is the same. -/
theorem flatMap_ite {α β : Type} (p : α → Prop) [DecidablePred p] (f : α → β) (items : List α) :
    (items.flatMap fun item => if p item then [f item] else []) =
      (items.filter fun item => p item).map f := by
  induction items with
  | nil => rfl
  | cons item rest ih =>
    rw [List.flatMap_cons, ih, List.filter_cons]
    by_cases passes : p item
    · simp [passes]
    · simp [passes]

/-- **The defects of a fact** are those of the fields that fail, in order. -/
theorem defects_report (fact : Fact) :
    fact.report.defects =
      (Field.all.filter fun field => field.Fails fact).map (Field.defect fact) := by
  rw [← flatMap_ite]
  show (checkSide .caller (fact.symbolAt .caller)).1 ++
    (checkSide .callee (fact.symbolAt .callee)).1 ++ requireText fact.file.trimmed .noFile ++
      (checkLine fact.line).1 = Field.all.flatMap fact.found
  rw [checkSide_symbolAt, checkSide_symbolAt, checkLine_line, requireText_trimmed]
  simp only [Field.all, List.flatMap_cons, List.flatMap_nil, List.append_nil, List.append_assoc]
  rfl

theorem errors_report (fact : Fact) :
    fact.report.errors =
      (Field.all.filter fun field => field.Fails fact).map (Field.complaint fact) := by
  rw [Report.errors, defects_report, List.map_map]
  exact List.map_congr_left fun field _ => field.message_defect fact

theorem Field.mem_all (field : Field) : field ∈ Field.all := by
  cases field with
  | name side => cases side <;> decide
  | type side => cases side <;> decide
  | file => decide
  | line => decide

theorem isValid_report_iff_fails (fact : Fact) :
    fact.report.isValid = true ↔ ∀ field : Field, ¬ field.Fails fact := by
  rw [Report.isValid, List.isEmpty_iff, defects_report, List.map_eq_nil_iff, List.filter_eq_nil_iff]
  simp only [decide_eq_true_eq]
  exact ⟨fun passes field => passes field field.mem_all, fun passes field _ => passes field⟩

/-! ### The fact of a report -/

/-- **A fact and what checking makes of it.** -/
structure Cleaned (fact clean : Fact) : Prop where
  /-- Both sides are there with clean names, and a side that was there before keeps its kind and its
  targets. -/
  sides : ∀ side, ∃ symbol, clean.symbolAt side = some symbol ∧
    (∀ read ∈ [Member.name, Member.type, Member.scope],
      Cleans (fact.nameAt side read) (read symbol.member)) ∧
    ∀ given, fact.symbolAt side = some given →
      symbol.kind = given.kind ∧ symbol.targets = given.targets
  file : Cleans (some fact.file) clean.file
  /-- The line counts from 1, and one that did so before is the same. -/
  line : clean.line.IsLine
  kept : fact.line.IsLine → clean.line = fact.line

theorem cleans_checkSide (side : Side) (given : Option Symbol) :
    (∀ read ∈ [Member.name, Member.type, Member.scope],
      Cleans (given.map fun symbol => read symbol.member) (read (checkSide side given).2.member)) ∧
    ∀ symbol, given = some symbol →
      (checkSide side given).2.kind = symbol.kind ∧
        (checkSide side given).2.targets = symbol.targets := by
  cases given with
  | none =>
    refine ⟨fun read listed => ?_, fun symbol wrong => by cases wrong⟩
    simp only [List.mem_cons, List.not_mem_nil, or_false] at listed
    rcases listed with rfl | rfl | rfl <;> exact .absent
  | some symbol =>
    have member : (checkSide side (some symbol)).2.member = symbol.member.trimmed :=
      symbol.member_withMember _
    refine ⟨fun read listed => ?_, fun other same => ?_⟩
    · rw [member]
      simp only [List.mem_cons, List.not_mem_nil, or_false] at listed
      rcases listed with rfl | rfl | rfl <;> exact Value.cleans_trimmed _
    · obtain rfl := Option.some.inj same
      cases symbol <;> exact ⟨rfl, rfl⟩

theorem isLine_checkLine (given : Value) : (checkLine given).2.IsLine := by
  unfold checkLine
  split
  · split
    · exact ⟨1, rfl, Int.le_refl 1⟩
    · rename_i n large
      exact ⟨n, rfl, Int.not_lt.mp large⟩
  · exact ⟨1, rfl, Int.le_refl 1⟩

theorem checkLine_of_isLine {given : Value} (line : given.IsLine) :
    (checkLine given).2 = given := by
  obtain ⟨n, rfl, large⟩ := line
  rw [checkLine, if_neg (Int.not_lt.mpr large)]

theorem symbolAt_report (fact : Fact) (side : Side) :
    fact.report.fact.symbolAt side = some (checkSide side (fact.symbolAt side)).2 := by
  cases side <;> rfl

/-- **The fact of a report is clean.** -/
theorem cleaned_report (fact : Fact) : fact.Cleaned fact.report.fact where
  sides side := ⟨_, fact.symbolAt_report side, cleans_checkSide side (fact.symbolAt side)⟩
  file := fact.file.cleans_trimmed
  line := isLine_checkLine fact.line
  kept := checkLine_of_isLine

/-! ### Checking again -/

section Again

variable {fact clean : Fact}

theorem Cleaned.lacking_iff (cleaned : fact.Cleaned clean) (side : Side) (read : Member → Value)
    (listed : read ∈ [Member.name, Member.type, Member.scope]) :
    Lacking (clean.nameAt side read) ↔ Lacking (fact.nameAt side read) := by
  obtain ⟨symbol, there, names, -⟩ := cleaned.sides side
  rw [← (names read listed).lacking_iff, nameAt, there]
  rfl

/-- A clean fact fails where the fact that it was made of does, but never on the line. -/
theorem Cleaned.fails_iff (cleaned : fact.Cleaned clean) (field : Field) :
    field.Fails clean ↔ field.Fails fact ∧ field ≠ .line := by
  cases field with
  | name side =>
    have same := cleaned.lacking_iff side Member.name (by simp)
    exact same.trans (and_iff_left fun wrong => by cases wrong).symm
  | type side =>
    have same := cleaned.lacking_iff side Member.type (by simp)
    exact same.trans (and_iff_left fun wrong => by cases wrong).symm
  | file => exact cleaned.file.lacking_iff.trans (and_iff_left fun wrong => by cases wrong).symm
  | line => exact iff_of_false (fun fails => fails cleaned.line) fun both => both.2 rfl

/-- What is said of a text field is the same for all facts. -/
theorem Field.complaint_of_ne (fact : Fact) {field : Field} (text : field ≠ .line) :
    field.complaint fact = Defect.missing field.label := by
  cases field with
  | line => exact absurd rfl text
  | _ => rfl

/-- The error of the line is told from all others by the name of its field. -/
theorem Field.complaint_eq_line_iff (fact : Fact) (field : Field) :
    field.complaint fact = Field.line.complaint fact ↔ field = .line := by
  have lines : (Field.line.complaint fact).toList[16]? = some 'l' := by
    show ("Required field 'line_number' must be >= 1, got " ++ fact.line.display).toList[16]? = _
    rw [String.toList_append, List.getElem?_append_left (by decide)]
    decide
  have others : ∀ field ∈ Field.all, field ≠ .line →
      (Defect.missing field.label).toList[16]? ≠ some 'l' := by decide
  refine ⟨fun same => by_contra fun text => ?_, fun same => by rw [same]⟩
  rw [← same, complaint_of_ne fact text] at lines
  exact others field field.mem_all text lines

/-- The errors that are left when the fact of a report is checked. -/
theorem errors_report_again (fact : Fact) :
    fact.report.fact.report.errors =
      fact.report.errors.filter fun error => error ≠ Field.line.complaint fact := by
  have fails : (fun field : Field => decide (field.Fails fact.report.fact)) =
      fun field => decide (field ≠ .line) && decide (field.Fails fact) := by
    funext field
    rw [← Bool.decide_and, decide_eq_decide, fact.cleaned_report.fails_iff, and_comm]
  have texts : (fun field : Field => decide (field.complaint fact ≠ Field.line.complaint fact)) =
      fun field => decide (field ≠ .line) := by
    funext field
    rw [decide_eq_decide]
    exact not_congr (Field.complaint_eq_line_iff fact field)
  rw [errors_report, errors_report, fails, ← List.filter_filter, List.filter_map, Function.comp_def,
    texts]
  refine List.map_congr_left fun field listed => ?_
  have text : field ≠ .line := of_decide_eq_true (List.mem_filter.mp listed).2
  rw [Field.complaint_of_ne _ text, Field.complaint_of_ne _ text]

theorem checkSide_checkSide (side : Side) (given : Option Symbol) :
    (checkSide side (some (checkSide side given).2)).2 = (checkSide side given).2 := by
  cases given with
  | none => rfl
  | some symbol =>
    show (symbol.withMember _).withMember (symbol.withMember _).member.trimmed = _
    rw [symbol.member_withMember, Member.trimmed_trimmed]
    cases symbol <;> rfl

/-- **A fact that was checked stays as it is.** -/
theorem fact_report_again (fact : Fact) : fact.report.fact.report.fact = fact.report.fact := by
  show (⟨some (checkSide .caller (some (checkSide .caller fact.caller).2)).2,
    some (checkSide .callee (some (checkSide .callee fact.callee).2)).2,
    .text (Text.trim fact.file.trimmed), (checkLine (checkLine fact.line).2).2⟩ : Fact) = _
  rw [checkSide_checkSide, checkSide_checkSide, Value.trim_trimmed,
    checkLine_of_isLine (isLine_checkLine fact.line)]
  rfl

end Again

end Fact

/-! ### Reports -/

namespace Fact

theorem check_eq_of_isLine (fact : Fact) :
    fact.check =
      if fact.line.IsLine ∨ fact.line.isWritable = true then .ok fact.report
      else .error .tooLong :=
  (check_eq fact).trans (if_congr (or_congr_left (checkLine_eq_nil_iff _)) rfl rfl)

/-- **When there is a report**: the line passes, or can be written. -/
theorem check_eq_ok_iff (fact : Fact) (report : Report) :
    fact.check = .ok report ↔
      (fact.line.IsLine ∨ fact.line.isWritable = true) ∧ report = fact.report := by
  rw [check_eq_of_isLine]
  by_cases written : fact.line.IsLine ∨ fact.line.isWritable = true
  · rw [if_pos written, and_iff_right written, Except.ok.injEq]
    exact eq_comm
  · rw [if_neg written]
    exact iff_of_false (fun wrong => by cases wrong) fun both => written both.1

theorem check_eq_error_iff (fact : Fact) (cause : Misuse) :
    fact.check = .error cause ↔
      cause = .tooLong ∧ ¬ fact.line.IsLine ∧ fact.line.isWritable = false := by
  rw [check_eq_of_isLine, ← Bool.not_eq_true, ← not_or]
  by_cases written : fact.line.IsLine ∨ fact.line.isWritable = true
  · rw [if_pos written]
    exact iff_of_false (fun wrong => by cases wrong) fun both => both.2 written
  · rw [if_neg written, Except.error.injEq, eq_comm]
    exact (and_iff_left written).symm

/-- Nothing but the six fields has a part in the errors. -/
theorem errors_report_of_given {fact other : Fact}
    (same : ∀ field : Field, field.given other = field.given fact) :
    other.report.errors = fact.report.errors := by
  have line : other.line = fact.line := Option.some.inj (same .line)
  have fails : (fun field : Field => decide (field.Fails other)) =
      fun field => decide (field.Fails fact) := by
    funext field
    rw [decide_eq_decide]
    cases field with
    | line => exact not_congr (by rw [line])
    | name side => exact iff_of_eq (congrArg Lacking (same (.name side)))
    | type side => exact iff_of_eq (congrArg Lacking (same (.type side)))
    | file => exact iff_of_eq (congrArg Lacking (same .file))
  rw [other.errors_report, fact.errors_report, fails]
  refine List.map_congr_left fun field _ => ?_
  by_cases isLine : field = .line
  · subst isLine
    exact congrArg (fun given : Value => _ ++ given.display) line
  · rw [Field.complaint_of_ne other isLine, Field.complaint_of_ne fact isLine]

/-- A report without errors is found again. -/
theorem report_again_of_isValid {fact : Fact} (valid : fact.report.isValid = true) :
    fact.report.fact.report = fact.report := by
  have none : fact.report.defects = [] := List.isEmpty_iff.mp valid
  have again : fact.report.fact.report.defects = [] := by
    rw [← List.map_eq_nil_iff (f := Defect.message)]
    show fact.report.fact.report.errors = []
    rw [fact.errors_report_again, Report.errors, none]
    rfl
  calc fact.report.fact.report
      = ⟨fact.report.fact.report.defects, fact.report.fact.report.fact⟩ := rfl
    _ = ⟨fact.report.defects, fact.report.fact⟩ := by rw [again, none, fact.fact_report_again]
    _ = fact.report := rfl

end Fact

/-- **A report names the fields that fail.** There is a report on every fact, with any values and
with or without its two sides, unless its line fails and is too long to be written. The errors of a
report are those of the failing fields, one for each and in their order, and the fact is valid
exactly when no field fails. Nothing but these fields has a part in the errors, so no namespace ever
fails. In all cases the fact of the report is clean: both sides are there, the texts are trimmed,
the line counts from 1, and kinds and targets are those that were given. -/
theorem report_names_failing (fact : Fact) :
    (∀ cause, fact.check = .error cause ↔
      cause = .tooLong ∧ Fact.Field.line.Fails fact ∧ fact.line.isWritable = false) ∧
    ∀ report, fact.check = .ok report →
      report.errors =
          (Fact.Field.all.filter fun field => field.Fails fact).map (Fact.Field.complaint fact) ∧
        (report.isValid = true ↔ ∀ field : Fact.Field, ¬ field.Fails fact) ∧
        (∀ other : Fact, (∀ field : Fact.Field, field.given other = field.given fact) →
          ∃ same, other.check = .ok same ∧ same.errors = report.errors) ∧
        fact.Cleaned report.fact := by
  refine ⟨fact.check_eq_error_iff, fun report checked => ?_⟩
  obtain ⟨written, rfl⟩ := (fact.check_eq_ok_iff report).mp checked
  refine ⟨fact.errors_report, fact.isValid_report_iff_fails, fun other same => ?_,
    fact.cleaned_report⟩
  have line : other.line = fact.line := Option.some.inj (same .line)
  refine ⟨_, (other.check_eq_ok_iff _).mpr ⟨?_, rfl⟩, Fact.errors_report_of_given same⟩
  rw [line]
  exact written

/-- A call without a caller to an override whose name is no text, in a blank file and at no line. -/
def oddCall (scope : Value) : Fact where
  caller := none
  callee := some
    (.override ⟨.bool true, .text "\u3000Bank ", scope⟩
      (.interfaceMember ⟨.text " Shop.IBank.Charge", .null, .null⟩))
  file := .text "\t "
  line := .bool true

theorem oddCall_reported :
    ∃ report same, (oddCall .null).check = .ok report ∧ (oddCall (.int 7)).check = .ok same ∧
      report.errors =
        ["Required field 'caller' is missing or empty",
         "Required field 'caller_class' is missing or empty",
         "Required field 'callee' is missing or empty",
         "Required field 'file_path' is missing or empty",
         "Required field 'line_number' must be >= 1, got True"] ∧
      same.errors = report.errors ∧
      ∃ symbol, report.fact.callee = some symbol ∧
        Cleans (some (.text "\u3000Bank ")) symbol.member.type ∧ symbol.kind = .override := by
  have checked : (oddCall .null).check = .ok (oddCall .null).report := rfl
  obtain ⟨errors, -, others, cleaned⟩ := (report_names_failing (oddCall .null)).2 _ checked
  obtain ⟨symbol, there, names, kept⟩ := cleaned.sides .callee
  obtain ⟨same, checkedToo, alike⟩ := others (oddCall (.int 7)) fun field => by
    cases field with
    | name side => cases side <;> rfl
    | type side => cases side <;> rfl
    | file => rfl
    | line => rfl
  refine ⟨_, same, checked, checkedToo, errors.trans rfl, alike, symbol, there, ?_, (kept _ rfl).1⟩
  exact names Member.type (List.mem_cons_of_mem _ List.mem_cons_self)

/-- A call with nothing but a line, which is less than 1 and too long to be written. -/
def sunkenCall : Fact := ⟨none, none, .null, .int (-Text.overlong)⟩

theorem not_isLine_sunkenCall : ¬ sunkenCall.line.IsLine := by
  rintro ⟨n, same, large⟩
  obtain rfl := Value.int.inj same
  have above : (0 : Int) < Text.overlong := Text.lt_overlong (by decide)
  omega

theorem check_sunkenCall : sunkenCall.check = .error .tooLong := by
  refine (sunkenCall.check_eq_error_iff _).mpr ⟨rfl, not_isLine_sunkenCall, ?_⟩
  exact (Value.isWritable_int _).trans Text.not_isWritable_neg_overlong

/-- **A fact that is not reported on.** All six fields fail, and none of them is named. -/
theorem sunkenCall_unreported :
    (∀ field : Fact.Field, field.Fails sunkenCall) ∧
      ∀ report, sunkenCall.check ≠ .ok report := by
  refine ⟨fun field => ?_, fun report checked => ?_⟩
  · cases field with
    | name side => cases side <;> exact .absent
    | type side => cases side <;> exact .absent
    | file => exact .odd fun ⟨s, wrong⟩ => by cases wrong
    | line => exact not_isLine_sunkenCall
  · rw [check_sunkenCall] at checked
    cases checked

/-- **A second check finds nothing new.** Checking the fact of a report gives a report on this fact
again. The errors are those of the first check without the one of the line, so that a fact that was
valid is valid again with the same report, and the line never fails a second time. Only a line that
fails and is too long to be written has no first report to go on from. -/
theorem report_settles (fact : Fact) :
    (∀ cause, fact.check = .error cause ↔
      cause = .tooLong ∧ Fact.Field.line.Fails fact ∧ fact.line.isWritable = false) ∧
    ∀ report, fact.check = .ok report →
      ∃ again, report.fact.check = .ok again ∧ again.fact = report.fact ∧
        again.errors =
          report.errors.filter (fun error => error ≠ Fact.Field.line.complaint fact) ∧
        (report.isValid = true → again = report) ∧ ¬ Fact.Field.line.Fails report.fact := by
  refine ⟨fact.check_eq_error_iff, fun report checked => ?_⟩
  obtain ⟨-, rfl⟩ := (fact.check_eq_ok_iff report).mp checked
  have passes : ¬ Fact.Field.line.Fails fact.report.fact := fun fails =>
    ((fact.cleaned_report.fails_iff .line).mp fails).2 rfl
  refine ⟨_, ((fact.report.fact).check_eq_ok_iff _).mpr ⟨Or.inl (not_not.mp passes), rfl⟩,
    fact.fact_report_again, fact.errors_report_again, Fact.report_again_of_isValid, passes⟩

/-- A padded call that is accepted. -/
def paddedCall : Fact where
  caller := some (.ordinary ⟨.text " Shop.Cart.Pay", .text "Cart\n", .null⟩)
  callee := some (.explicitImpl ⟨.text "Shop.Bank.Charge", .text " Bank", .text "Shop "⟩ [])
  file := .text " Cart.cs"
  line := .int 3

theorem paddedCall_settles :
    (∃ report, paddedCall.check = .ok report ∧ report.isValid = true ∧
      report.fact.check = .ok report) ∧
    ∃ report again, (oddCall .null).check = .ok report ∧ report.fact.check = .ok again ∧
      again.errors =
        ["Required field 'caller' is missing or empty",
         "Required field 'caller_class' is missing or empty",
         "Required field 'callee' is missing or empty",
         "Required field 'file_path' is missing or empty"] := by
  have valid : paddedCall.report.isValid = true := by decide
  have checked : paddedCall.check = .ok paddedCall.report := rfl
  obtain ⟨again, checkedAgain, -, -, accepted, -⟩ := (report_settles paddedCall).2 _ checked
  obtain rfl := accepted valid
  have odd : (oddCall .null).check = .ok (oddCall .null).report := rfl
  obtain ⟨oddAgain, checkedOdd, -, errors, -⟩ := (report_settles (oddCall .null)).2 _ odd
  exact ⟨⟨_, checked, valid, checkedAgain⟩, _, oddAgain, odd, checkedOdd, errors.trans (by decide)⟩

/-- **A fact that cannot be checked twice**, since it cannot be checked once. -/
theorem sunkenCall_unsettled :
    ¬ ∃ report again, sunkenCall.check = .ok report ∧ report.fact.check = .ok again := by
  rintro ⟨report, -, checked, -⟩
  rw [check_sunkenCall] at checked
  cases checked

end CallGraph
