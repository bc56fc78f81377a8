/-
**What can be wrong with a setting.**

A value may be of the wrong sort, may not read as a number, or may break a rule of its setting. Each
fault has a code and a wording.
-/

import CallGraph.Log

namespace CallGraph.Settings

/-- The settings, in the order in which they are looked at. -/
inductive Field where
  | defaultDepth
  | maxDepthLimit
  | maxPaths
  | timeout
  | maxHops
  | logLevel
  deriving DecidableEq

/-- The name of a setting. -/
def Field.name : Field → String
  | .defaultDepth => "default_depth"
  | .maxDepthLimit => "max_depth_limit"
  | .maxPaths => "max_paths"
  | .timeout => "traversal_timeout_seconds"
  | .maxHops => "normalization_max_hops"
  | .logLevel => "log_level"

/-- The rules that a value of the right sort may break. -/
inductive Rule where
  | atLeastOne
  | pathsAtLeastOne
  | timeoutPositive
  | knownLevel
  | depthWithinLimit
  deriving DecidableEq

/-- The wording of a rule. -/
def Rule.text : Rule → String
  | .atLeastOne => "must be at least 1"
  | .pathsAtLeastOne => "max_paths must be at least 1"
  | .timeoutPositive => "traversal_timeout_seconds must be positive"
  | .knownLevel => "log_level must be one of " ++ ", ".intercalate (LogLevel.all.map LogLevel.name)
  | .depthWithinLimit => "default_depth cannot exceed max_depth_limit"

/-- What is wrong with a value. -/
inductive Flaw where
  /-- A number with a fraction where a whole one is needed. -/
  | fraction
  /-- A number that is not finite where a whole one is needed. -/
  | infinite
  /-- A number with more digits than a whole one is read from. -/
  | oversized
  /-- A text that is no whole number. -/
  | notIntegerText
  /-- A value that is no whole number. -/
  | notInteger
  /-- A text that is no number. -/
  | notNumberText
  /-- A value that is no number. -/
  | notNumber
  /-- A value that is no text. -/
  | notText
  | breaks (rule : Rule)
  deriving DecidableEq

namespace Flaw

/-- The code of a flaw. -/
def code : Flaw → String
  | fraction => "int_from_float"
  | infinite => "finite_number"
  | oversized => "int_parsing_size"
  | notIntegerText => "int_parsing"
  | notInteger => "int_type"
  | notNumberText => "float_parsing"
  | notNumber => "float_type"
  | notText => "string_type"
  | breaks _ => "value_error"

/-- The wording of a flaw. -/
def message : Flaw → String
  | fraction => "Input should be a valid integer, got a number with a fractional part"
  | infinite => "Input should be a finite number"
  | oversized => "Unable to parse input string as an integer, exceeded maximum size"
  | notIntegerText => "Input should be a valid integer, unable to parse string as an integer"
  | notInteger => "Input should be a valid integer"
  | notNumberText => "Input should be a valid number, unable to parse string as a number"
  | notNumber => "Input should be a valid number"
  | notText => "Input should be a valid string"
  | breaks rule => "Value error, " ++ rule.text

end Flaw

/-- A flaw and the setting that has it; none for a flaw of several settings together. -/
structure Fault where
  field : Option Field
  flaw : Flaw

end CallGraph.Settings
