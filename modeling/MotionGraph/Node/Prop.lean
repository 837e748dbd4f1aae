import MotionGraph.Node.Transform
import MotionGraph.Ordered.Map

/-!
# Property values of views

What a view receives: a map from property names to values, in the order in which the properties
were declared. Two maps agree (`PropMap.agrees`) if they hold equal values for the same names,
in whatever order; numbers are compared as numbers, so that NaN never agrees.
-/

namespace MotionGraph

/-- An operation with its operand read. -/
structure TransformValue where
  property : TransformProperty
  value : Float

/-- The value of one property. -/
inductive PropValue where
  | number (x : Float)
  | transform (operations : List TransformValue)
  /-- Back to what the view has by itself. -/
  | viewDefault

/-- Names of properties with their values, in order of declaration. -/
abbrev PropMap := OrderedMap String PropValue

/-- Whether two operations are the same, with equal operands. -/
def TransformValue.agrees (a b : TransformValue) : Bool :=
  a.property = b.property && a.value == b.value

/-- Whether two lists of operations are the same, one by one. -/
def TransformValue.agreeAll : List TransformValue → List TransformValue → Bool
  | [], [] => true
  | a :: as, b :: bs => a.agrees b && agreeAll as bs
  | _, _ => false

/-- Whether two values are equal. -/
def PropValue.agrees : PropValue → PropValue → Bool
  | .number x, .number y => x == y
  | .transform as, .transform bs => TransformValue.agreeAll as bs
  | .viewDefault, .viewDefault => true
  | _, _ => false

/-- Whether two maps hold equal values for the same names. -/
def PropMap.agrees (m n : PropMap) : Bool :=
  m.size = n.size && m.toList.all fun p =>
    match n.get? p.1 with
    | some v => p.2.agrees v
    | none => false

/-- The number that a value is. -/
def PropValue.number? : PropValue → Option Float
  | .number x => some x
  | _ => none

/-- The operations that a value lists. -/
def PropValue.operations? : PropValue → Option (List TransformValue)
  | .transform operations => some operations
  | _ => none

end MotionGraph
