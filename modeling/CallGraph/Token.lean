/-
**Cancellation tokens.**

A token is a flag that can be raised, a deadline on a clock that can be raised as well, or a group
of earlier tokens with a flag of its own. What a token consists of never changes after it is issued;
a desk keeps which flags have been raised and what the clocks show. A token is cancelled when its
own flag is raised, when its time has come, or when one of its members is cancelled. A group of
exactly one token is that token itself.
-/

namespace CallGraph

/-- The clocks that a deadline may run on. -/
inductive Clock where
  /-- The clock that the caller sets. -/
  | supplied
  /-- The clock of the machine. -/
  | machine
  deriving DecidableEq

/-- A cancellation token; tokens are told apart by their serial numbers. -/
inductive Token where
  | flag (serial : Nat)
  | deadline (serial : Nat) (clock : Clock) (expiry : Rat)
  | group (serial : Nat) (members : List Token)

/-- The serial number of a token. -/
def Token.serial : Token → Nat
  | .flag serial => serial
  | .deadline serial _ _ => serial
  | .group serial _ => serial

/-- The state that tokens share: the next serial number, the raised flags and the clocks. -/
structure TokenDesk where
  issued : Nat
  raised : List Nat
  time : Clock → Rat

namespace TokenDesk

/-- The desk that has issued nothing, with the supplied clock at the given time. -/
def start (now : Rat) : TokenDesk where
  issued := 0
  raised := []
  time
    | .supplied => now
    | .machine => 0

/-- Whether the flag with a serial number is raised. -/
def isRaised (desk : TokenDesk) (serial : Nat) : Bool := desk.raised.contains serial

mutual

/-- Whether a token asks to stop. -/
def isCancelled (desk : TokenDesk) : Token → Bool
  | .flag serial => desk.isRaised serial
  | .deadline serial clock expiry => desk.isRaised serial || decide (expiry ≤ desk.time clock)
  | .group serial members => desk.isRaised serial || desk.anyCancelled members

/-- Whether one of some tokens asks to stop. -/
def anyCancelled (desk : TokenDesk) : List Token → Bool
  | [] => false
  | token :: rest => desk.isCancelled token || desk.anyCancelled rest

end

/-- The desk after one more token has been issued. -/
def issue (desk : TokenDesk) : TokenDesk := { desk with issued := desk.issued + 1 }

/-- Issues a flag. -/
def newFlag (desk : TokenDesk) : Token × TokenDesk := (.flag desk.issued, desk.issue)

/-- Issues a deadline some seconds from now. -/
def newDeadline (desk : TokenDesk) (clock : Clock) (seconds : Rat) : Token × TokenDesk :=
  (.deadline desk.issued clock (desk.time clock + seconds), desk.issue)

/-- Combines the given tokens: a single one stands for itself, and others form a new group. -/
def combine (desk : TokenDesk) (members : List (Option Token)) : Token × TokenDesk :=
  match members.reduceOption with
  | [token] => (token, desk)
  | tokens => (.group desk.issued tokens, desk.issue)

/-- Raises the flag of a token. -/
def cancel (desk : TokenDesk) (token : Token) : TokenDesk :=
  { desk with raised := token.serial :: desk.raised }

/-- Moves the supplied clock. -/
def advance (desk : TokenDesk) (seconds : Rat) : TokenDesk where
  issued := desk.issued
  raised := desk.raised
  time
    | .supplied => desk.time .supplied + seconds
    | .machine => desk.time .machine

/-- The time left before a deadline, never negative; other tokens have none. -/
def remaining? (desk : TokenDesk) : Token → Option Rat
  | .deadline _ clock expiry =>
    some (if expiry ≤ desk.time clock then 0 else expiry - desk.time clock)
  | _ => none

end TokenDesk

end CallGraph
