import MotionGraph.Number.Scalar

/-!
# Cubic curves from corner to corner

A cubic curve runs from `(0, 0)` to `(1, 1)` with two control points. To find its height above an
`x`, the parameter whose point lies above `x` is looked for: first by Newton's method, and where
that stalls by halving an interval that holds the parameter.
-/

namespace MotionGraph

/-- A cubic curve by its control points `(x1, y1)` and `(x2, y2)`. -/
structure Bezier (α : Type) where
  x1 : α
  y1 : α
  x2 : α
  y2 : α

namespace Bezier

variable {α : Type} [Scalar α]

/-- How near to `x` the abscissa of the parameter found has to be, and how short the interval
is halved to. -/
def epsilon : α := 1e-7

/-- A slope below this is too flat for Newton's method. -/
def flat : α := 1e-6

/-- How often Newton's method is applied. -/
def newtonSteps : Nat := 8

/-- How often the interval is halved at most: far more than it takes to become shorter than
`epsilon`. -/
def halvings : Nat := 64

/-- One coordinate of the curve, by those of its control points. -/
def coordinate (p1 p2 t : α) : α :=
  let mt := 1.0 - t
  3.0 * p1 * mt * mt * t + 3.0 * p2 * mt * t * t + t * t * t

/-- The derivative of a coordinate. -/
def slope (p1 p2 t : α) : α :=
  let mt := 1.0 - t
  3.0 * p1 * mt * mt + 6.0 * (p2 - p1) * mt * t + 3.0 * (1.0 - p2) * t * t

/-- The abscissa of a parameter. -/
def abscissa (c : Bezier α) (t : α) : α := coordinate c.x1 c.x2 t

/-- The ordinate of a parameter. -/
def ordinate (c : Bezier α) (t : α) : α := coordinate c.y1 c.y2 t

/-- Newton's method from `t` on; nothing if it stalls. -/
def newton? (c : Bezier α) (x : α) : Nat → α → Option α
  | 0, _ => none
  | n + 1, t =>
    let error := c.abscissa t - x
    if Scalar.abs error < epsilon then some t
    else
      let m := slope c.x1 c.x2 t
      if Scalar.abs m < flat then none else newton? c x n (t - error / m)

/-- Halving of the interval from `low` to `high`, with `t` tried next. -/
def bisect (c : Bezier α) (x : α) : Nat → α → α → α → α
  | 0, _, _, t => t
  | n + 1, low, high, t =>
    if epsilon < high - low then
      let value := c.abscissa t
      if Scalar.abs (value - x) < epsilon then t
      else if value < x then bisect c x n t high ((t + high) / 2.0)
      else bisect c x n low t ((low + t) / 2.0)
    else t

/-- The parameter whose abscissa is `x`. -/
def parameter (c : Bezier α) (x : α) : α :=
  match c.newton? x newtonSteps x with
  | some t => t
  | none => c.bisect x halvings 0.0 1.0 x

/-- The height of the curve above `x`; outside the unit interval that of the nearer end. A curve
with its control points on the diagonal is the diagonal. -/
def solve (c : Bezier α) (x : α) : α :=
  if x ≤ 0.0 then 0.0
  else if (1.0 : α) ≤ x then 1.0
  else if c.x1 == c.y1 && c.x2 == c.y2 then x
  else c.ordinate (c.parameter x)

end Bezier

end MotionGraph
