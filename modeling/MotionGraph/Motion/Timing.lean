import MotionGraph.Motion.Animation
import MotionGraph.Motion.Easing

/-!
# Motion along a curve

A timed motion goes from where it began to its end value along a curve of progress: an easing over
a duration, or a table with one entry for each frame at sixty frames a second. It may wait first.
-/

namespace MotionGraph

/-- How progress depends on time. -/
inductive ProgressCurve where
  /-- An easing over a duration in milliseconds. -/
  | eased (duration : Float) (easing : Easing)
  /-- Progress at each frame. -/
  | table (frames : List Float)

/-- A timed motion. -/
structure Timing where
  start : Float := 0.0
  goal : Float
  curve : ProgressCurve
  /-- How long the motion waits, in milliseconds. -/
  delay : Float

namespace Timing

/-- How long a motion takes that does not say so. -/
def defaultDuration : Float := 500.0

/-- The time between two entries of a table. -/
def frameLength : Float := 1000.0 / 60.0

/-- Where the motion is after a part of the way. -/
def along (m : Timing) (progress : Float) : Float := m.start + (m.goal - m.start) * progress

/-- The value at an entry of a table; the last entry and all beyond are the goal itself. -/
def tableSample (m : Timing) (frames : List Float) (index : Option Nat) : Sample :=
  match index with
  | none => ⟨m.goal, true⟩
  | some i =>
    match frames[i]? with
    | some progress => if i + 1 < frames.length then ⟨m.along progress, false⟩ else ⟨m.goal, true⟩
    | none => ⟨m.goal, true⟩

/-- The value at a time since the beginning. -/
def sample (m : Timing) (elapsed : Float) : Sample :=
  let elapsed := elapsed - m.delay
  if elapsed < 0.0 then ⟨m.start, false⟩
  else
    match m.curve with
    | .eased duration easing =>
      if duration ≤ elapsed then ⟨m.goal, true⟩
      else ⟨m.along (easing.apply (elapsed / duration)), false⟩
    | .table frames => m.tableSample frames (Double.nearestNat? (elapsed / frameLength))

instance : Animation Timing where
  reset m start := { m with start }
  step m frame := (m, m.sample frame.elapsed)

end Timing

end MotionGraph
