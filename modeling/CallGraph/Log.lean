/-
**Log levels and log lines.**

A level is named in any case; a dotless i counts as an i. A line is shown when its level is at least
as severe as the level that is set.
-/

namespace CallGraph

/-- How severe a log line is. -/
inductive LogLevel where
  | debug
  | info
  | warning
  | error
  | critical
  deriving DecidableEq

namespace LogLevel

/-- The levels, from the least severe. -/
def all : List LogLevel := [debug, info, warning, error, critical]

/-- The name of a level in log lines. -/
def name : LogLevel → String
  | debug => "DEBUG"
  | info => "INFO"
  | warning => "WARNING"
  | error => "ERROR"
  | critical => "CRITICAL"

/-- The rank of a level. -/
def severity : LogLevel → Nat
  | debug => 10
  | info => 20
  | warning => 30
  | error => 40
  | critical => 50

/-- The capital that a letter counts as. -/
def capital (c : Char) : Char := if c = 'ı' then 'I' else c.toUpper

/-- The level with a name in any case. -/
def ofText? (s : String) : Option LogLevel :=
  all.find? fun level => level.name.toList = s.toList.map capital

end LogLevel

/-- A line of the log. -/
structure LogLine where
  level : LogLevel
  text : String

/-- The line with its level in front. -/
def LogLine.shown (line : LogLine) : String := line.level.name ++ " " ++ line.text

/-- Whether a line is shown where the given level is set. -/
def LogLine.isShownAt (line : LogLine) (level : LogLevel) : Bool :=
  level.severity ≤ line.level.severity

end CallGraph
