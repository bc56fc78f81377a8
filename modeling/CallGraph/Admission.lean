/-
**From facts to edges.**

`Fact.toEdge` resolves the callee of a fact along its dispatch chain, checks the fact, and makes an
edge of the trimmed fact. The edge remembers the name that the call was bound to where resolution
changed it.
-/

import CallGraph.Dispatch
import CallGraph.Edge
import CallGraph.Report

namespace CallGraph

/-- Why a fact is not admitted. -/
inductive FactError where
  /-- The dispatch chain of the callee is too long. -/
  | unsettled (callee : Symbol) (limit : HopLimit)
  /-- Required fields fail. -/
  | malformed (report : Report)
  | edge (cause : EdgeError)
  | misuse (cause : Misuse)

namespace FactError

/-- The wording of a fact error. -/
def message : FactError → String
  | unsettled callee limit => callee.unsettledMessage limit
  | malformed report => "Malformed call fact: " ++ "; ".intercalate report.errors
  | edge cause => cause.message
  | misuse cause => cause.message

/-- The single faults of a fact error, in order. -/
def errors : FactError → List String
  | malformed report => report.errors
  | other => [other.message]

/-- The misuse behind a fact error, if there is one: it says nothing of the fact. -/
def misuse? : FactError → Option Misuse
  | misuse cause | edge (.misuse cause) => some cause
  | unsettled _ _ | malformed _ | edge (.incomplete _) => none

end FactError

/-- The end of a symbol's dispatch chain. A chain that is too long is refused by its first symbol
and the limit. -/
def Symbol.resolve (limit : HopLimit) (symbol : Symbol) : Except FactError Symbol :=
  match symbol.resolve? limit with
  | some last => .ok last
  | none =>
    .error (Value.refusal FactError.misuse (.unsettled symbol limit) (symbol.unsettledShows limit))

namespace Fact

/-- The fact with its callee resolved. -/
def resolveCallee (limit : HopLimit) (fact : Fact) : Except FactError Fact :=
  match fact.callee with
  | none => .ok fact
  | some callee =>
    (callee.resolve limit).map fun resolved => { fact with callee := some resolved }

/-- The trimmed fact, if it has no defect. -/
def accept (fact : Fact) : Except FactError Fact := do
  let report ← fact.check.mapError FactError.misuse
  if report.isValid then return report.fact else .error (.malformed report)

/-- The name that a call was bound to, empty when nothing was bound. -/
def boundName (callee : Option Symbol) : Except Misuse String :=
  match callee with
  | none => .ok ""
  | some symbol =>
    if symbol.member.name.isVoid then .ok "" else symbol.member.name.shown.map Text.trim

/-- The edge of a fact. -/
def toEdge (limit : HopLimit) (fact : Fact) : Except FactError Edge := do
  let resolved ← fact.resolveCallee limit
  let accepted ← resolved.accept
  let bound ← (boundName fact.callee).mapError FactError.misuse
  let edge ← (Edge.ofFact accepted (.text "")).mapError FactError.edge
  return edge.boundTo bound

end Fact

end CallGraph
