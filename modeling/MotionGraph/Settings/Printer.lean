import MotionGraph.Settings.Basic

/-!
# Writing settings

Settings are written one to a line, indented, in their declared order, all of them.
-/

namespace MotionGraph.Settings

/-- A truth value in a settings text. -/
def renderBool (b : Bool) : String := if b then "true" else "false"

/-- An integer that may be left open. -/
def renderOptional : Option Nat → String
  | none => "None"
  | some n => "Some(" ++ toString n ++ ")"

/-- The settings with their names, as they are written. -/
def rendered (s : Settings) : List (String × String) :=
  [("version", toString s.version),
   ("default_frame_interval_ms", NumberStyle.settings.render s.defaultInterval),
   ("max_frame_delta_ms", NumberStyle.settings.render s.maxDelta),
   ("driver_arbitration", s.arbitration.name),
   ("warn_on_driver_conflict", renderBool s.warnOnConflict),
   ("max_commands_per_frame", renderOptional s.maxCommands),
   ("normalize_event_names", renderBool s.normalizeEvents),
   ("max_settle_passes", toString s.maxSettlePasses)]

/-- One line of the text. -/
def renderLine (field : String × String) : String := "    " ++ field.1 ++ ": " ++ field.2 ++ ",\n"

/-- The text of settings. -/
def toText (s : Settings) : String :=
  "EngineConfig(\n" ++ String.join (s.rendered.map renderLine) ++ ")"

end MotionGraph.Settings
