import MotionGraph.Number.Binary64

/-!
# Arithmetic over the inputs of a node

An operator is folded over a list of values from the left. A zero divisor gives zero, so that a
fold of finite values meets neither an infinity nor an undefined quotient by division alone.
-/

namespace MotionGraph

/-- The remainder with the sign of the divisor. -/
def Double.modulus (x y : Float) : Float :=
  Double.remainder (Double.remainder x y + y) y

/-- What an arithmetic node does with its inputs. -/
inductive Arithmetic where
  | addition
  | subtraction
  | multiplication
  | division
  | modulus
  deriving DecidableEq, Repr

namespace Arithmetic

/-- The value so far and the next input, combined. -/
def apply (op : Arithmetic) (acc rhs : Float) : Float :=
  match op with
  | .addition => acc + rhs
  | .subtraction => acc - rhs
  | .multiplication => acc * rhs
  | .division => if rhs == 0.0 then 0.0 else acc / rhs
  | .modulus => if rhs == 0.0 then 0.0 else Double.modulus acc rhs

/-- The inputs combined from the first on; without inputs the result is zero. -/
def fold (op : Arithmetic) : List Float → Float
  | [] => 0.0
  | x :: xs => xs.foldl op.apply x

/-- The name of the operator. -/
def name : Arithmetic → String
  | .addition => "addition"
  | .subtraction => "subtraction"
  | .multiplication => "multiplication"
  | .division => "division"
  | .modulus => "modulus"

end Arithmetic

end MotionGraph
