/-
**Sessions**: settings that are loaded once and kept.

The first time that settings are asked for they are loaded, and the same settings are given from
then on, whatever happens to their sources, until they are reset. A failed load keeps nothing.
-/

import CallGraph.Settings.Basic

namespace CallGraph

/-- Loaded settings; the serial number tells one load from another. -/
structure LoadedSettings where
  serial : Nat
  settings : Settings

/-- A session with its sources and the settings kept. -/
structure Session where
  scope : String
  environment : List (String × String)
  dotenv : String
  kept : Option LoadedSettings
  loads : Nat

namespace Session

/-- A session with an empty environment and nothing kept. -/
def start (scope : String) : Session := ⟨scope, [], "", none, 0⟩

/-- The sources of settings for which the caller gives some values. -/
def sources (session : Session) (given : List (String × Value)) : Settings.Sources :=
  ⟨session.scope, given, session.environment, session.dotenv⟩

/-- Settings for which the caller gives some values; they are not kept. -/
def settingsWith (session : Session) (given : List (String × Value)) :
    Except (List Settings.Fault) Settings :=
  Settings.load (session.sources given)

/-- The settings kept, loaded now if there are none. -/
def settings (session : Session) : Except (List Settings.Fault) LoadedSettings × Session :=
  match session.kept with
  | some loaded => (.ok loaded, session)
  | none =>
    match session.settingsWith [] with
    | .error faults => (.error faults, session)
    | .ok settings =>
      let loaded := ⟨session.loads, settings⟩
      (.ok loaded, { session with kept := some loaded, loads := session.loads + 1 })

/-- Forgets the settings kept. -/
def reset (session : Session) : Session := { session with kept := none }

end Session

end CallGraph
