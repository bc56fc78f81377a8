/-
**Dotted names.**

A full method name reads namespace, type, member with dots between. `segments` cuts a name at every
dot, `lastSegment` reads backwards to the nearest dot, and `dotted` joins segments again.
-/

namespace CallGraph.Text

/-- The pieces between the dots; there is always at least one. -/
def splitDots : List Char → List (List Char)
  | [] => [[]]
  | c :: rest =>
    if c = '.' then
      [] :: splitDots rest
    else
      match splitDots rest with
      | [] => [[c]]
      | segment :: more => (c :: segment) :: more

/-- The segments of a dotted name, from the left. -/
def segments (name : String) : List String := (splitDots name.toList).map String.ofList

/-- What follows the last dot, or the whole name when it has none. -/
def lastSegment (name : String) : String :=
  String.ofList (name.toList.reverse.takeWhile (· ≠ '.')).reverse

/-- The segments with dots between them. -/
def dotted (parts : List String) : String := ".".intercalate parts

end CallGraph.Text
