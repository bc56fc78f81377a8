/-
**Reports on facts**: which required fields fail, and the fact with its fields trimmed.

A fact needs the name and the declaring type of both sides, a file and a line of at least 1.
`Fact.check` looks at all six and reports every one that fails, in a fixed order, together with a
fact whose texts are trimmed and whose line counts from 1. Namespaces are trimmed and never fail.
The report words its defects, so there is none when a line that fails cannot be written.
-/

import CallGraph.Fact

namespace CallGraph

/-- The two sides of a call. -/
inductive Side where
  | caller
  | callee
  deriving DecidableEq

/-- The name of a side in messages. -/
def Side.name : Side → String
  | .caller => "caller"
  | .callee => "callee"

/-- Why a fact is not admitted. -/
inductive Defect where
  /-- The name of a side is missing, empty or no text. -/
  | noName (side : Side)
  /-- The declaring type of a side is missing, empty or no text. -/
  | noType (side : Side)
  /-- The file is missing, empty or no text. -/
  | noFile
  /-- The line is no whole number of at least 1. -/
  | badLine (given : Value)

namespace Defect

/-- What is said of a required field without content. -/
def missing (field : String) : String := "Required field '" ++ field ++ "' is missing or empty"

/-- The wording of a defect. -/
def message : Defect → String
  | noName side => missing side.name
  | noType side => missing (side.name ++ "_class")
  | noFile => missing "file_path"
  | badLine given => "Required field 'line_number' must be >= 1, got " ++ given.display

/-- The values that the wording of a defect shows. -/
def shows : Defect → List Value
  | badLine given => [given]
  | noName _ | noType _ | noFile => []

end Defect

/-- The defects of a fact and the fact with its fields trimmed. -/
structure Report where
  defects : List Defect
  fact : Fact

/-- Whether a fact has no defect. -/
def Report.isValid (report : Report) : Bool := report.defects.isEmpty

/-- The texts of the defects, in order. -/
def Report.errors (report : Report) : List String := report.defects.map Defect.message

/-- The trimmed text that a value is, empty for a value that is no text. -/
def Value.trimmed : Value → String
  | .text s => Text.trim s
  | _ => ""

/-- The member with its three names trimmed. -/
def Member.trimmed (member : Member) : Member where
  name := .text member.name.trimmed
  type := .text member.type.trimmed
  scope := .text member.scope.trimmed

namespace Fact

/-- The defect of a required text, if it has no content. -/
def requireText (content : String) (defect : Defect) : List Defect :=
  if content.isEmpty then [defect] else []

/-- Checks and trims one side of a fact. A missing side counts as one without any names. -/
def checkSide (side : Side) : Option Symbol → List Defect × Symbol
  | none => ([.noName side, .noType side], .ordinary .unnamed)
  | some symbol =>
    (requireText symbol.member.name.trimmed (.noName side) ++
      requireText symbol.member.type.trimmed (.noType side),
     symbol.withMember symbol.member.trimmed)

/-- Checks a line and replaces one that fails by line 1. -/
def checkLine (given : Value) : List Defect × Value :=
  match given with
  | .int n => if n < 1 then ([.badLine given], .int 1) else ([], .int n)
  | _ => ([.badLine given], .int 1)

/-- The report on a fact. -/
def report (fact : Fact) : Report :=
  let (callerDefects, caller) := checkSide .caller fact.caller
  let (calleeDefects, callee) := checkSide .callee fact.callee
  let file := fact.file.trimmed
  let (lineDefects, line) := checkLine fact.line
  { defects := callerDefects ++ calleeDefects ++ requireText file .noFile ++ lineDefects
    fact := ⟨some caller, some callee, .text file, line⟩ }

/-- Checks and trims a fact. -/
def check (fact : Fact) : Except Misuse Report :=
  if fact.report.defects.all fun defect => Value.areWritable defect.shows then
    .ok fact.report
  else
    .error .tooLong

end Fact

end CallGraph
