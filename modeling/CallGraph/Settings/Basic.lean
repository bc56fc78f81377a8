/-
**Settings**: the limits of walks and of resolution, and the log level.

`Settings.load` reads every setting from its sources and reports all faults at once, in the order of
the settings; only when each is well by itself is the pair of depths compared. The limits of loaded
settings are at least 1 and the default depth is within its limit: this is part of the type.
-/

import CallGraph.Dispatch
import CallGraph.Settings.Reading
import CallGraph.Settings.Sources

namespace CallGraph

/-- A number of at least 1. -/
abbrev Positive := { n : Nat // 1 ≤ n }

/-- The settings of an engine. -/
structure Settings where
  /-- The depth of a query that gives none. -/
  defaultDepth : Positive
  /-- The greatest depth that a query may give. -/
  maxDepthLimit : Positive
  /-- The cap on the paths of one query. -/
  maxPaths : Option Positive
  /-- The seconds that a walk may take. -/
  timeout : Option Binary64
  /-- The longest dispatch chain. -/
  maxHops : HopLimit
  logLevel : LogLevel
  default_le_limit : defaultDepth.1 ≤ maxDepthLimit.1

namespace Settings

/-- The settings where no source says anything. -/
def standard : Settings where
  defaultDepth := ⟨1, by decide⟩
  maxDepthLimit := ⟨10, by decide⟩
  maxPaths := none
  timeout := none
  maxHops := .standard
  logLevel := .info
  default_le_limit := by decide

/-! ### Single settings -/

/-- Reads a whole number of at least 1. -/
def readPositive (rule : Rule) (given : Value) : Except Flaw Positive := do
  let n ← readInteger given
  if positive : 1 ≤ n.toNat then return ⟨n.toNat, positive⟩ else .error (.breaks rule)

/-- Reads a time of more than no seconds. -/
def readTimeout (given : Value) : Except Flaw Binary64 := do
  let seconds ← readNumber given
  if seconds.isNonpositive then .error (.breaks .timeoutPositive) else return seconds

/-- Reads a log level. -/
def readLevel (given : Value) : Except Flaw LogLevel := do
  let name ← readText given
  match LogLevel.ofText? name with
  | some level => return level
  | none => .error (.breaks .knownLevel)

/-- The value of a setting, or the one it has by default; a flaw is noted under the setting. -/
def fieldOf {α : Type} (sources : Sources) (field : Field) (standard : α)
    (read : Value → Except Flaw α) : Except Fault α :=
  match sources.value? field with
  | none => .ok standard
  | some given => (read given).mapError fun flaw => ⟨some field, flaw⟩

/-- The fault of a setting that could not be read. -/
def faultOf {α : Type} : Except Fault α → List Fault
  | .ok _ => []
  | .error fault => [fault]

/-- Reads all settings. -/
def load (sources : Sources) : Except (List Fault) Settings :=
  let defaultDepth :=
    fieldOf sources .defaultDepth standard.defaultDepth (readPositive .atLeastOne)
  let maxDepthLimit :=
    fieldOf sources .maxDepthLimit standard.maxDepthLimit (readPositive .atLeastOne)
  let maxPaths :=
    fieldOf sources .maxPaths standard.maxPaths (readOptional (readPositive .pathsAtLeastOne))
  let timeout := fieldOf sources .timeout standard.timeout (readOptional readTimeout)
  let maxHops :=
    fieldOf sources .maxHops ⟨standard.maxHops.hops, standard.maxHops.positive⟩
      (readPositive .atLeastOne)
  let logLevel := fieldOf sources .logLevel standard.logLevel readLevel
  match defaultDepth, maxDepthLimit, maxPaths, timeout, maxHops, logLevel with
  | .ok defaultDepth, .ok maxDepthLimit, .ok maxPaths, .ok timeout, .ok maxHops, .ok logLevel =>
    if within : defaultDepth.1 ≤ maxDepthLimit.1 then
      .ok
        { defaultDepth, maxDepthLimit, maxPaths, timeout, logLevel
          maxHops := ⟨maxHops.1, maxHops.2⟩
          default_le_limit := within }
    else
      .error [⟨none, .breaks .depthWithinLimit⟩]
  | _, _, _, _, _, _ =>
    .error (faultOf defaultDepth ++ faultOf maxDepthLimit ++ faultOf maxPaths ++
      faultOf timeout ++ faultOf maxHops ++ faultOf logLevel)

end Settings

end CallGraph
