import MotionGraph.Number.Scalar

/-!
# Piecewise linear interpolation

An interpolation is a polyline through breakpoints, with a policy for either side of it. Its
inputs never decrease; where two neighbours have the same input the polyline jumps.

The value at `v` is taken from one segment, `segment v`: the first whose right end is not below
`v`, or the last one if there is none.
-/

namespace MotionGraph

/-- What happens to an input outside the breakpoints. -/
inductive Extrapolation where
  /-- The line of the outermost segment goes on. -/
  | extend
  /-- The outermost output is held. -/
  | clamp
  /-- The input itself is the output. -/
  | identity
  deriving DecidableEq, Repr

/-- The name of a policy. -/
def Extrapolation.name : Extrapolation → String
  | .extend => "extend"
  | .clamp => "clamp"
  | .identity => "identity"

/-- A point of a polyline. -/
structure Breakpoint (α : Type) where
  input : α
  output : α

/-- A polyline of at least one segment, and what happens on either side of it. -/
structure Interpolation (α : Type) where
  first : Breakpoint α
  second : Breakpoint α
  rest : List (Breakpoint α)
  left : Extrapolation
  right : Extrapolation

/-- What keeps lists of inputs and outputs from being a polyline. -/
inductive BreakpointError where
  /-- There are fewer than two inputs. -/
  | tooFew
  /-- There are not as many outputs as inputs. -/
  | lengths (inputs outputs : Nat)
  /-- Some coordinate is infinite or not a number. -/
  | notFinite
  /-- The inputs decrease somewhere. -/
  | decreasing

/-- What the user is told. -/
def BreakpointError.message : BreakpointError → String
  | .tooFew => "interpolation needs at least two breakpoints"
  | .lengths inputs outputs =>
    "inputRange has " ++ toString inputs ++ " entries but outputRange has " ++ toString outputs
  | .notFinite => "interpolation breakpoints must be finite"
  | .decreasing => "inputRange must be non-decreasing"

namespace Interpolation

variable {α : Type}

/-- All breakpoints, from left to right. -/
def breakpoints (c : Interpolation α) : List (Breakpoint α) := c.first :: c.second :: c.rest

variable [Scalar α]

/-- Whether some number is less than the one before it. -/
def decreases : List α → Bool
  | a :: b :: rest => b < a || decreases (b :: rest)
  | _ => false

/-- The polyline through the given coordinates. -/
def ofLists (inputs outputs : List α) (left right : Extrapolation) :
    Except BreakpointError (Interpolation α) :=
  if inputs.length < 2 then .error .tooFew
  else if inputs.length ≠ outputs.length then .error (.lengths inputs.length outputs.length)
  else if !(inputs ++ outputs).all Scalar.isFinite then .error .notFinite
  else if decreases inputs then .error .decreasing
  else
    match inputs.zipWith Breakpoint.mk outputs with
    | first :: second :: rest => .ok ⟨first, second, rest, left, right⟩
    | _ => .error .tooFew

/-- The ends of the segment that an input belongs to, among the segments from `a` to `b` and on
through the remaining breakpoints. -/
def segmentFrom (v : α) (a b : Breakpoint α) : List (Breakpoint α) → Breakpoint α × Breakpoint α
  | [] => (a, b)
  | c :: rest => if v ≤ b.input then (a, b) else segmentFrom v b c rest

/-- The ends of the segment that an input belongs to. -/
def segment (c : Interpolation α) (v : α) : Breakpoint α × Breakpoint α :=
  segmentFrom v c.first c.second c.rest

/-- The value on the line through `a` and `b`. A segment of no width has the left output up to
its input and the right output beyond. -/
def along (a b : Breakpoint α) (v x : α) : α :=
  if a.output == b.output then a.output
  else if a.input == b.input then if v ≤ a.input then a.output else b.output
  else a.output + (b.output - a.output) * (x - a.input) / (b.input - a.input)

/-- The value at an input not beyond the right end `b` of its segment, or brought back to it. -/
def fromRight (c : Interpolation α) (a b : Breakpoint α) (v x : α) : α :=
  if b.input < x then
    match c.right with
    | .identity => x
    | .clamp => along a b v b.input
    | .extend => along a b v x
  else along a b v x

/-- The value at an input. -/
def evaluate (c : Interpolation α) (v : α) : α :=
  let (a, b) := c.segment v
  if v < a.input then
    match c.left with
    | .identity => v
    | .clamp => c.fromRight a b v a.input
    | .extend => c.fromRight a b v v
  else c.fromRight a b v v

end Interpolation

end MotionGraph
