/-
**Blank characters and trimming.**

`isBlank` is the class of characters that count as padding around a name, a path or a number, and
`trim` removes them at both ends. `isSpace` is the smaller class that pads a setting: it leaves the
four separator controls alone.
-/

import CallGraph.Text.CharClass

namespace CallGraph.Text

/-- The white space of the standard: tab to carriage return, space, next line, the no-break spaces
and the space separators, line and paragraph separators. -/
def spaces : CharClass where
  ranges :=
    [(0x9, 0xd), (0x20, 0x20), (0x85, 0x85), (0xa0, 0xa0), (0x1680, 0x1680), (0x2000, 0x200a),
     (0x2028, 0x2029), (0x202f, 0x202f), (0x205f, 0x205f), (0x3000, 0x3000)]

/-- White space together with the file, group, record and unit separators. -/
def blanks : CharClass where
  ranges := (0x1c, 0x1f) :: spaces.ranges

/-- Whether a character is white space. -/
def isSpace (c : Char) : Bool := spaces.has c

/-- Whether a character is blank. -/
def isBlank (c : Char) : Bool := blanks.has c

/-- The characters between the first and the last that `pad` does not accept. -/
def stripWhere (pad : Char → Bool) (cs : List Char) : List Char :=
  ((cs.dropWhile pad).reverse.dropWhile pad).reverse

/-- The text without the blanks at its two ends. -/
def trim (s : String) : String := String.ofList (stripWhere isBlank s.toList)

/-- The text without the white space at its two ends. -/
def trimSpaces (s : String) : String := String.ofList (stripWhere isSpace s.toList)

end CallGraph.Text
