import MotionGraph.Driver.Set
import MotionGraph.Number.Style

/-!
# Settings of the engine

The engine has a handful of settings, each with a usual value. `Settings.check` says which
settings are usable.
-/

namespace MotionGraph

/-- The settings of the engine. -/
structure Settings where
  /-- The version of the format that the settings are written in. -/
  version : Nat := 1
  /-- How far the first tick after a start goes, in milliseconds. -/
  defaultInterval : Float := 1000.0 / 60.0
  /-- How far any other tick goes at most, in milliseconds. -/
  maxDelta : Float := 100.0
  /-- Which of several drivers of one node has its way. -/
  arbitration : Arbitration := .lastWriteWins
  /-- Whether to report values that had to give way. -/
  warnOnConflict : Bool := true
  /-- How many commands a tick carries out at most, if there is a limit. -/
  maxCommands : Option Nat := some 4096
  /-- Whether `onScroll` and `topScroll` are one event. -/
  normalizeEvents : Bool := true
  /-- How many propagations a tick runs at most. -/
  maxSettlePasses : Nat := 4

/-- Why settings are refused. -/
inductive SettingsError where
  /-- The text is not one of settings. -/
  | unreadable
  /-- The text is written in a later format. -/
  | unsupportedVersion (found : Nat)
  /-- A duration is not positive, or not finite. -/
  | notPositive (name : String) (x : Float)
  /-- No propagation is allowed at all. -/
  | noPasses

namespace Settings

/-- The latest version of the format. -/
def formatVersion : Nat := 1

/-- Whether a number can be a duration. -/
def isDuration (x : Float) : Bool := x.isFinite && 0.0 < x

/-- What is wrong with settings, if anything. -/
def check (s : Settings) : Except SettingsError Unit :=
  if formatVersion < s.version then .error (.unsupportedVersion s.version)
  else if !isDuration s.defaultInterval then
    .error (.notPositive "default_frame_interval_ms" s.defaultInterval)
  else if !isDuration s.maxDelta then .error (.notPositive "max_frame_delta_ms" s.maxDelta)
  else if s.maxSettlePasses = 0 then .error .noPasses
  else .ok ()

end Settings

/-- What the user is told. -/
def SettingsError.message : SettingsError → String
  | .unreadable => "unreadable"
  | .unsupportedVersion found =>
    "Config version " ++ toString found ++ " is newer than supported version "
      ++ toString Settings.formatVersion
  | .notPositive name x =>
    "Invalid config value: " ++ name ++ " must be positive, got " ++ NumberStyle.message.render x
  | .noPasses => "Invalid config value: max_settle_passes must be at least 1"

end MotionGraph
