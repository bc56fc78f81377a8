/-
**Classes of characters** as ranges of code points.

A class is a list of closed ranges; `CharClass.has` asks whether a character falls into one of
them. The tables of blanks, digits, printable and cased characters are all of this form.
-/

namespace CallGraph.Text

/-- A class of characters: closed ranges of code points. -/
structure CharClass where
  ranges : List (Nat × Nat)

namespace CharClass

/-- Whether the character falls into one of the ranges of the class. -/
def has (cls : CharClass) (c : Char) : Bool :=
  cls.ranges.any fun range => range.1 ≤ c.toNat && c.toNat ≤ range.2

theorem has_iff (cls : CharClass) (c : Char) :
    cls.has c = true ↔ ∃ range ∈ cls.ranges, range.1 ≤ c.toNat ∧ c.toNat ≤ range.2 := by
  simp [has]

end CharClass

end CallGraph.Text
