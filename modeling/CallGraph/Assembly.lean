/-
**Assembling an index from facts.**

Facts and records are taken one after the other. One that cannot be read, resolved or checked is
skipped: its errors are noted under its location and the rest goes on. Every other one is an edge
of the index or repeats one. The summary counts them all. A misuse on the way, such as a location
that cannot be written, is the fault of no fact and ends the assembly.
-/

import CallGraph.Admission
import CallGraph.Builder

namespace CallGraph

/-- What an assembly did. -/
structure Summary where
  /-- The facts looked at. -/
  processed : Nat
  /-- The facts that became edges. -/
  indexed : Nat
  /-- The facts that repeated an edge. -/
  duplicates : Nat
  /-- The facts left out. -/
  skipped : Nat
  /-- The errors of the facts left out, each with its location. -/
  errors : List String

/-- A fact left out, with its location and errors. -/
structure Skip where
  location : String
  errors : List String

/-- The errors with the location in front of each. -/
def Skip.located (skip : Skip) : List String := skip.errors.map (skip.location ++ ": " ++ ·)

/-- The warning about a fact left out. -/
def Skip.warning (skip : Skip) : String :=
  "Skipping call fact at " ++ skip.location ++ ": " ++ "; ".intercalate skip.errors

/-- An assembly under way. -/
structure Assembly where
  builder : Builder
  summary : Summary
  skips : List Skip

/-- A finished assembly. -/
structure Assembled where
  index : Index
  summary : Summary
  skips : List Skip

namespace Assembly

/-- The assembly that has looked at nothing yet. -/
def start : Assembly := ⟨.fresh, ⟨0, 0, 0, 0, []⟩, []⟩

/-- Leaves a fact out. -/
def leave (assembly : Assembly) (skip : Skip) : Assembly :=
  { assembly with
    summary :=
      { assembly.summary with
        processed := assembly.summary.processed + 1
        skipped := assembly.summary.skipped + 1
        errors := assembly.summary.errors ++ skip.located }
    skips := assembly.skips ++ [skip] }

/-- Counts a fact that became an edge, or repeated one. -/
def count (assembly : Assembly) (new : Bool) : Assembly :=
  { assembly with
    summary :=
      { assembly.summary with
        processed := assembly.summary.processed + 1
        indexed := assembly.summary.indexed + new.toNat
        duplicates := assembly.summary.duplicates + (!new).toNat } }

/-- Takes in a fact. -/
def take (limit : HopLimit) (assembly : Assembly) (fact : Fact) : Except BuilderError Assembly := do
  let location ← fact.location.mapError BuilderError.misuse
  match fact.toEdge limit with
  | .error cause =>
    match cause.misuse? with
    | some misuse => .error (.misuse misuse)
    | none => .ok (assembly.leave ⟨location, cause.errors⟩)
  | .ok edge =>
    match assembly.builder.add edge with
    | (.error cause, _) => .error cause
    | (.ok new, builder) => .ok ({ assembly with builder := builder }.count new)

/-- Takes in a record; one that cannot be read is left out under its position. -/
def takeRecord (limit : HopLimit) (assembly : Assembly) (record : Value × Nat) :
    Except BuilderError Assembly :=
  match Fact.decode record.1 with
  | .error cause =>
    .ok (assembly.leave
      ⟨"record " ++ Text.decimalText record.2, ["Undecodable record: " ++ cause.message]⟩)
  | .ok fact => assembly.take limit fact

/-- Makes the index. -/
def finish (assembly : Assembly) : Except BuilderError Assembled :=
  assembly.builder.finish.1.map fun index => ⟨index, assembly.summary, assembly.skips⟩

end Assembly

/-- Assembles an index from facts. -/
def assemble (limit : HopLimit) (facts : List Fact) : Except BuilderError Assembled := do
  (← facts.foldlM (Assembly.take limit) .start).finish

/-- Assembles an index from records. -/
def assembleRecords (limit : HopLimit) (records : List Value) : Except BuilderError Assembled := do
  (← records.zipIdx.foldlM (Assembly.takeRecord limit) .start).finish

end CallGraph
