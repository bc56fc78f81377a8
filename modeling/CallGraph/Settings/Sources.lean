/-
**Where settings come from.**

A setting is taken from the values that the caller gives, else from the environment, else from a
dotenv text. Variables are named by the application's scope and the setting's name, in any case; of
several spellings the last one counts.
-/

import CallGraph.Settings.Dotenv
import CallGraph.Settings.Fault
import CallGraph.Text.Lower
import CallGraph.Value

namespace CallGraph.Settings

/-- Everything that settings are read from. -/
structure Sources where
  /-- The first part of the variables' names. -/
  scope : String
  /-- The values that the caller gives, by setting. -/
  given : List (String × Value)
  /-- The environment's variables, in order. -/
  environment : List (String × String)
  /-- The dotenv text, empty when there is none. -/
  dotenv : String

/-- The value of the last variable with the given name in lower case. -/
def lastValue? (name : String) (entries : List (String × Option String)) : Option String :=
  ((entries.filter fun entry => Text.lower entry.1 = name).getLast?).bind Prod.snd

/-- The value of a setting, if any source has it. -/
def Sources.value? (sources : Sources) (field : Field) : Option Value :=
  let name := Text.lower (sources.scope ++ field.name)
  let environment := sources.environment.map fun entry => (entry.1, some entry.2)
  let dotenv := (Dotenv.variablesOf sources.environment sources.dotenv).entries
  sources.given.lookup field.name
    <|> (lastValue? name environment).map Value.text
    <|> (lastValue? name dotenv).map Value.text

end CallGraph.Settings
