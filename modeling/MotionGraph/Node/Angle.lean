import MotionGraph.Number.Binary64
import MotionGraph.Number.Numeral
import MotionGraph.Text.Blank

/-!
# Angles written as text

An angle is a number followed by `rad` or `deg`, or by nothing, which means degrees. Blanks around
the number and around the whole are ignored. The number may have a point with digits on either
side, a power of ten, or be one of the words for infinity and NaN in any case.
-/

namespace MotionGraph.Angle

/-- Radians in one degree. -/
def radiansPerDegree : Float := 3.141592653589793 / 180.0

/-- The double that a word stands for. -/
def word? (cs : List Char) : Option Float :=
  let word := String.ofList (cs.map Char.toLower)
  if word = "inf" ∨ word = "infinity" then some Double.infinity
  else if word = "nan" then some Double.nan
  else none

/-- The number of an angle. -/
def number? (cs : List Char) : Option Float :=
  match Numeral.scan? cs with
  | some n => if n.hasDigits then some n.toFloat else none
  | none =>
    let (sign, rest) := Numeral.splitSign cs
    (word? rest).map fun x => if sign = .minus then -x else x

/-- What stands before an ending, if the text has that ending. -/
def before? (ending cs : List Char) : Option (List Char) :=
  if ending.isSuffixOf cs then some (cs.take (cs.length - ending.length)) else none

/-- The angle in radians that a text without blanks at its ends stands for. -/
def parse? (cs : List Char) : Option Float :=
  match before? "rad".toList cs with
  | some front => number? (Blank.trim front)
  | none =>
    (number? (Blank.trim ((before? "deg".toList cs).getD cs))).map fun x => x * radiansPerDegree

end MotionGraph.Angle
