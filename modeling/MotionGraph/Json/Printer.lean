import MotionGraph.Json.Basic
import MotionGraph.Number.Style

/-!
# Writing JSON text

Values are written without blanks, numbers in the style of data, and texts with escapes for
quotes, backslashes and controls only.
-/

namespace MotionGraph.Json

/-- Four hexadecimal digits. -/
def hex4 (n : Nat) : String :=
  let digits := Nat.toDigits 16 n
  String.ofList (List.replicate (4 - digits.length) '0' ++ digits)

/-- One character as it stands between quotes. -/
def renderChar (c : Char) : String :=
  if c = '"' then "\\\""
  else if c = '\\' then "\\\\"
  else if c.toNat < 0x20 then "\\u" ++ hex4 c.toNat
  else c.toString

/-- A text between quotes. -/
def renderText (s : String) : String := "\"" ++ String.join (s.toList.map renderChar) ++ "\""

/-- The text of a number. -/
def Number.render : Number → String
  | .integer n => toString n
  | .real x => NumberStyle.data.render x

mutual

/-- The text of a value. -/
def render : Json → String
  | .null => "null"
  | .bool b => if b then "true" else "false"
  | .number n => n.render
  | .string s => renderText s
  | .array items => "[" ++ renderItems items ++ "]"
  | .object fields => "\x7b" ++ renderFields fields ++ "\x7d"
termination_by structural j => j

/-- The text of items, with commas between them. -/
def renderItems : List Json → String
  | [] => ""
  | j :: rest => render j ++ (if rest.isEmpty then "" else ",") ++ renderItems rest
termination_by structural l => l

/-- The text of fields, with commas between them. -/
def renderFields : List (String × Json) → String
  | [] => ""
  | (name, j) :: rest =>
    renderText name ++ ":" ++ render j ++ (if rest.isEmpty then "" else ",") ++ renderFields rest
termination_by structural l => l

end

end MotionGraph.Json
