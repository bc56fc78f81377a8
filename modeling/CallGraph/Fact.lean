/-
**Call facts**: one observed call each, as the analyzer reports it.

`Fact.decode` reads a fact from a record: the record itself, then caller, callee and line are looked
at in that order. A line is a whole number or a text that denotes one; `lineOfText?` is its
grammar: padding, at most one sign, and up to 4300 digits of any script with single underscores
between them. `Fact.encode` writes the record back.
-/

import CallGraph.Symbol
import CallGraph.Text.Blank

namespace CallGraph

/-- One observed call. Any part may be missing or odd. -/
structure Fact where
  caller : Option Symbol
  callee : Option Symbol
  file : Value
  line : Value

/-- Why a record is no fact. -/
inductive RecordError where
  | notRecord (given : Value)
  | badLine (given : Value)
  | symbol (cause : SymbolError)
  | misuse (cause : Misuse)

/-- The wording of a record error. -/
def RecordError.message : RecordError → String
  | notRecord given => "Record must be a mapping, got " ++ given.sortName
  | badLine given => "Invalid line_number: " ++ given.literal
  | symbol cause => cause.message
  | misuse cause => cause.message

namespace Fact

/-! ### Line numbers -/

/-- The values of a run of digits in which single underscores may stand between two digits. -/
def digitRun : List Char → Option (List Nat)
  | [] => none
  | c :: rest => do
    let digit ← Text.digit? c
    match rest with
    | [] => return [digit]
    | '_' :: more => return digit :: (← digitRun more)
    | next :: more => return digit :: (← digitRun (next :: more))

/-- The number that an unsigned run of digits denotes. -/
def unsigned? (cs : List Char) : Option Nat := do
  let digits ← digitRun cs
  if digits.length ≤ Text.maxDigits then some (Text.ofDigits digits) else none

/-- The number that a run of digits with at most one sign denotes. -/
def signed? : List Char → Option Int
  | '+' :: cs => (unsigned? cs).map Int.ofNat
  | '-' :: cs => (unsigned? cs).map fun n => -Int.ofNat n
  | cs => (unsigned? cs).map Int.ofNat

/-- The whole number that a text denotes. -/
def lineOfText? (s : String) : Option Int := signed? (Text.stripWhere Text.isBlank s.toList)

/-- The refusal of a line, which shows the line. -/
def refuseLine (given : Value) : RecordError :=
  Value.refusal RecordError.misuse (.badLine given) [given]

/-- Reads a line number. -/
def lineOf (given : Value) : Except RecordError Int :=
  match given with
  | .int n => .ok n
  | .text s =>
    match lineOfText? s with
    | some n => .ok n
    | none => .error (refuseLine given)
  | _ => .error (refuseLine given)

/-! ### Facts as records -/

/-- Reads a symbol that may be null. -/
def symbolOf : Value → Except RecordError (Option Symbol)
  | .null => .ok none
  | given => (Symbol.decode given).map some |>.mapError RecordError.symbol

/-- Reads a fact; a missing line counts as line 0. -/
def decode : Value → Except RecordError Fact
  | .record fields => do
    let caller ← symbolOf (Value.field "caller" fields)
    let callee ← symbolOf (Value.field "callee" fields)
    let line ← lineOf ((fields.lookup "line_number").getD (.int 0))
    return ⟨caller, callee, Value.field "file_path" fields, .int line⟩
  | given => .error (.notRecord given)

/-- Reads a fact whose line is taken as it stands. -/
def decodeRaw (fields : List (String × Value)) : Except RecordError Fact := do
  let caller ← symbolOf (Value.field "caller" fields)
  let callee ← symbolOf (Value.field "callee" fields)
  return ⟨caller, callee, Value.field "file_path" fields, Value.field "line_number" fields⟩

/-- The record of a symbol that may be missing. -/
def encodeSymbol : Option Symbol → Value
  | none => .null
  | some symbol => symbol.encode

/-- The record of a fact. -/
def encode (fact : Fact) : Value :=
  .record
    [("caller", encodeSymbol fact.caller), ("callee", encodeSymbol fact.callee),
     ("file_path", fact.file), ("line_number", fact.line)]

/-- A symbol that may be missing, by its name. -/
def shownSymbol : Option Symbol → Except Misuse String
  | none => Value.null.shown
  | some symbol => symbol.shown

/-- The fact in one line. -/
def shown (fact : Fact) : Except Misuse String := do
  let caller ← shownSymbol fact.caller
  let callee ← shownSymbol fact.callee
  let line ← fact.line.shown
  let file ← fact.file.shown
  return caller ++ " -> " ++ callee ++ " (line " ++ line ++ " in " ++ file ++ ")"

/-- Where the fact says that the call stands. -/
def location (fact : Fact) : Except Misuse String := do
  return (← fact.file.shown) ++ ":" ++ (← fact.line.shown)

end Fact

end CallGraph
