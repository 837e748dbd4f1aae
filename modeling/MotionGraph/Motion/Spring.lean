import MotionGraph.Motion.Animation
import MotionGraph.Number.Binary64

/-!
# Springs

A spring pulls toward its goal and is slowed by friction. Each frame solves the equation of motion
over the time since the last one, from the position and the velocity reached, so that the result
does not depend on how the time is cut into frames. A frame counts for 64 milliseconds at most.
-/

namespace MotionGraph

/-- A spring and where it is. -/
structure Spring where
  goal : Float
  stiffness : Float := 100.0
  damping : Float := 10.0
  mass : Float := 1.0
  /-- The velocity that each run begins with, in units per second. -/
  initialVelocity : Float := 0.0
  /-- Whether the motion ends as soon as it goes beyond the goal. -/
  overshootClamping : Bool := false
  /-- Nearer to the goal than this counts as there. -/
  restDisplacement : Float := 0.001
  /-- Slower than this counts as standing. -/
  restSpeed : Float := 0.001
  position : Float := 0.0
  velocity : Float := 0.0
  /-- The position one frame ago. -/
  previous : Float := 0.0

namespace Spring

/-- The longest time that one frame counts for, in milliseconds. -/
def longestFrame : Float := 64.0

/-- The spring after some seconds: an oscillation that fades while friction is weak, and else the
motion at the border of oscillating. -/
def advance (s : Spring) (t : Float) : Spring :=
  let k := s.stiffness
  let m := s.mass
  let zeta := s.damping / (2.0 * Float.sqrt (k * m))
  let omega0 := Float.sqrt (k / m)
  let x0 := s.goal - s.position
  let v0 := -s.velocity
  if zeta < 1.0 then
    let omega1 := omega0 * Float.sqrt (1.0 - zeta * zeta)
    let envelope := Float.exp (-zeta * omega0 * t)
    let sin1 := Float.sin (omega1 * t)
    let cos1 := Float.cos (omega1 * t)
    let fragment := envelope * (sin1 * ((v0 + zeta * omega0 * x0) / omega1) + x0 * cos1)
    { s with
      position := s.goal - fragment
      velocity := zeta * omega0 * fragment
        - envelope * (cos1 * (v0 + zeta * omega0 * x0) - omega1 * x0 * sin1) }
  else
    let envelope := Float.exp (-omega0 * t)
    { s with
      position := s.goal - envelope * (x0 + (v0 + omega0 * x0) * t)
      velocity := envelope * (v0 * (t * omega0 - 1.0) + t * x0 * omega0 * omega0) }

/-- Whether the last frame went beyond the goal and that ends the motion. -/
def overshoots (s : Spring) : Bool :=
  s.overshootClamping && s.stiffness != 0.0
    && if s.previous < s.goal then s.goal < s.position else s.position < s.goal

/-- Whether the motion has come to its end. -/
def atRest (s : Spring) : Bool :=
  let slow : Bool := s.velocity.abs < s.restSpeed
  let close : Bool := s.stiffness == 0.0 || (s.goal - s.position).abs < s.restDisplacement
  s.overshoots || (slow && close)

/-- The spring after a time in milliseconds. -/
def move (s : Spring) (delta : Float) : Spring :=
  { s with previous := s.position }.advance (Double.minNum delta longestFrame / 1000.0)

/-- Puts a spring with any pull at its goal, where it stands still. -/
def arrive (s : Spring) : Spring :=
  if s.stiffness != 0.0 then { s with velocity := 0.0, position := s.goal } else s

instance : Animation Spring where
  reset s start := { s with position := start, previous := start, velocity := s.initialVelocity }
  step s frame :=
    let s := s.move frame.delta
    if s.atRest then (s.arrive, ⟨s.arrive.position, true⟩) else (s, ⟨s.position, false⟩)

end Spring

end MotionGraph
