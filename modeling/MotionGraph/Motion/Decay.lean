import MotionGraph.Motion.Animation

/-!
# Decaying motion

A motion that begins with a velocity and loses a fixed part of it every millisecond, until it is
too slow to be seen.
-/

namespace MotionGraph

/-- A decaying motion and where it is. -/
structure Decay where
  /-- The velocity that each run begins with, in units per second. -/
  initialVelocity : Float
  /-- What is left of the velocity after each millisecond. -/
  deceleration : Float := 0.998
  position : Float := 0.0
  velocity : Float := initialVelocity

namespace Decay

/-- A velocity below this ends the motion. -/
def slowest : Float := 5.0

/-- The motion after some milliseconds. -/
def advance (m : Decay) (delta : Float) : Decay :=
  let d := m.deceleration
  let kv := Float.pow d delta
  let kx := d * (1.0 - kv) / (1.0 - d)
  let v0 := m.velocity / 1000.0
  { m with position := m.position + v0 * kx, velocity := v0 * kv * 1000.0 }

instance : Animation Decay where
  reset m start := { m with position := start, velocity := m.initialVelocity }
  step m frame :=
    let m := m.advance frame.delta
    (m, ⟨m.position, m.velocity.abs < slowest⟩)

end Decay

end MotionGraph
