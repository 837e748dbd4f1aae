import MotionGraph.Json.Shape
import MotionGraph.Motion.Bezier
import MotionGraph.Number.Binary64

/-!
# Easing

An easing bends the progress of a motion: it maps the part of the time that has passed to the part
of the way that has been made.
-/

namespace MotionGraph

/-- How a motion speeds up and slows down. -/
inductive Easing where
  | linear
  | ease
  | easeIn
  | easeOut
  | easeInOut
  | quad
  | cubic
  | sin
  | circle
  | exp
  | bezier (curve : Bezier Float)

/-- What keeps control points from being those of an easing. -/
inductive EasingError where
  /-- Some coordinate is infinite or not a number. -/
  | notFinite
  /-- Some abscissa is outside the unit interval. -/
  | outside

/-- What the user is told. -/
def EasingError.message : EasingError → String
  | .notFinite => "bezier control points must be finite"
  | .outside => "bezier x control points must lie in [0, 1]"

namespace Easing

/-- The part of the way made when a part of the time has passed. -/
def apply (e : Easing) (t : Float) : Float :=
  match e with
  | .linear => t
  | .ease => (Bezier.mk 0.25 0.1 0.25 1.0 : Bezier Float).solve t
  | .easeIn => (Bezier.mk 0.42 0.0 1.0 1.0 : Bezier Float).solve t
  | .easeOut => (Bezier.mk 0.0 0.0 0.58 1.0 : Bezier Float).solve t
  | .easeInOut => (Bezier.mk 0.42 0.0 0.58 1.0 : Bezier Float).solve t
  | .quad => t * t
  | .cubic => t * t * t
  | .sin => 1.0 - Float.cos (t * 1.5707963267948966)
  | .circle => 1.0 - Float.sqrt (Double.maxNum (1.0 - t * t) 0.0)
  | .exp => Float.exp2 (10.0 * (t - 1.0))
  | .bezier c => c.solve t

/-- Whether a number lies in the unit interval. -/
def inUnit (x : Float) : Bool := 0.0 ≤ x && x ≤ 1.0

/-- What is wrong with the control points of an easing, if anything. -/
def check : Easing → Except EasingError Unit
  | .bezier c =>
    if !(c.x1.isFinite && c.y1.isFinite && c.x2.isFinite && c.y2.isFinite) then .error .notFinite
    else if !(inUnit c.x1 && inUnit c.x2) then .error .outside
    else .ok ()
  | _ => .ok ()

/-- The easing of a bare name. -/
def ofName? : String → Option Easing
  | "linear" => some .linear
  | "ease" => some .ease
  | "easeIn" => some .easeIn
  | "easeOut" => some .easeOut
  | "easeInOut" => some .easeInOut
  | "quad" => some .quad
  | "cubic" => some .cubic
  | "sin" => some .sin
  | "circle" => some .circle
  | "exp" => some .exp
  | _ => none

/-- The easing that a JSON value stands for: a bare name, or control points under `bezier`. -/
def ofJson? (inChoice : Bool) : Json → Option Easing
  | .object [("bezier", .array [x1, y1, x2, y2])] => do
    return .bezier ⟨← x1.toFloat?, ← y1.toFloat?, ← x2.toFloat?, ← y2.toFloat?⟩
  | j => (Json.toName? inChoice j).bind ofName?

end Easing

end MotionGraph
