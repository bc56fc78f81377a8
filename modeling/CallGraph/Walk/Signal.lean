/-
**Cancellation signals** as walks see them.

A walk polls its signal once at each step and stops when the answer is yes. What matters of a signal
is therefore only its answer to each poll, and a signal is that sequence of answers.
-/

namespace CallGraph

/-- The answers of a signal: whether it asks to stop at its first poll, its second, and so on,
counted from 0. -/
abbrev Signal := Nat → Bool

namespace Signal

/-- The signal that never asks to stop. -/
def never : Signal := fun _ => false

/-- The signal that always asks to stop. -/
def always : Signal := fun _ => true

/-- The signal that lets the first `polls` polls pass and asks to stop at all later ones. -/
def after (polls : Nat) : Signal := fun poll => polls ≤ poll

/-- The signal that asks to stop when one of two does. -/
def either (first second : Signal) : Signal := fun poll => first poll || second poll

end Signal

end CallGraph
