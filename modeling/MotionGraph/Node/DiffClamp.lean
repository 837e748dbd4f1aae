import MotionGraph.Number.Binary64

/-!
# Bounded accumulation

A diff-clamp follows the changes of its input, not its value: it adds each change to its own value
and keeps the sum between two bounds. The first input only serves as the one to compare with.
-/

namespace MotionGraph

/-- The bounds and the input seen last. -/
structure DiffClamp where
  low : Float
  high : Float
  last : Option Float := none

namespace DiffClamp

/-- Whether two numbers can be bounds: both are numbers, and in order. -/
def areBounds (low high : Float) : Bool := !low.isNaN && !high.isNaN && !(high < low)

/-- The change since the input seen last. -/
def change (d : DiffClamp) (input : Float) : Float :=
  match d.last with
  | some last => input - last
  | none => 0.0

/-- Takes the next input and the value so far, and gives the new value. -/
def step (d : DiffClamp) (current input : Float) : DiffClamp × Float :=
  ({ d with last := some input }, Double.clamp (current + d.change input) d.low d.high)

/-- Starts over: the next input is again the first. -/
def restart (d : DiffClamp) : DiffClamp := { d with last := none }

end DiffClamp

end MotionGraph
