import MotionGraph.Motion.Animation
import MotionGraph.Motion.Iterations
import MotionGraph.Number.Binary64
import MotionGraph.Tag

/-!
# Drivers

A driver runs an animation for one node, as often as asked, and says what happened when it comes
to an end. It begins with its first frame, from the value that the node has then; later runs begin
from that same value. It is over when the last run has reached its end or when it is stopped.

Drivers work for any animation, and carry a callback of any type to the end.
-/

namespace MotionGraph

/-- How far a driver is. -/
inductive DriverState where
  /-- Before its first frame. -/
  | pending
  | running
  /-- After the end of its last run. -/
  | finished
  /-- Ended from outside. -/
  | stopped
  deriving DecidableEq, Repr

/-- The name of a state. -/
def DriverState.name : DriverState → String
  | .pending => "Pending"
  | .running => "Running"
  | .finished => "Finished"
  | .stopped => "Stopped"

/-- Whether a driver goes on. -/
def DriverState.isActive : DriverState → Bool
  | .pending | .running => true
  | .finished | .stopped => false

/-- How an animation ended. -/
structure AnimationEnd where
  animation : AnimationId
  /-- Whether it reached its end by itself. -/
  finished : Bool
  /-- The last value it gave, if any. -/
  value : Option Float

/-- The end of an animation and the callback that is to hear of it. -/
structure Completion (κ : Type) where
  report : AnimationEnd
  callback : Option κ

/-- An animation at work on a node. -/
structure Driver (α κ : Type) where
  id : AnimationId
  target : Tag
  animation : α
  iterations : Iterations
  callback : Option κ := none
  /-- How many runs have reached their end, as far as 32 bits count them. -/
  completed : Nat := 0
  state : DriverState := .pending
  /-- The value that every run begins from. -/
  start : Float := 0.0
  /-- When the present run began. -/
  runStart : Float := 0.0
  /-- When the last frame was. -/
  lastStep : Float := 0.0
  lastValue : Option Float := none

namespace Driver

variable {α κ : Type} [Animation α]

/-- Begins with the first frame. -/
def begin (d : Driver α κ) (now current : Float) : Driver α κ :=
  { d with
    state := .running
    start := current
    animation := Animation.reset d.animation current
    runStart := now
    lastStep := now }

/-- The times of a frame as the animation sees them. -/
def frameTime (d : Driver α κ) (now : Float) : FrameTime :=
  ⟨now, now - d.runStart, Double.maxNum (now - d.lastStep) 0.0⟩

/-- What follows the end of a run: another run, or the end of the driver. -/
def endRun (d : Driver α κ) (now : Float) : Driver α κ :=
  let d := { d with completed := Word.saturate 32 (d.completed + 1) }
  if d.iterations.continuesAfter d.completed then
    { d with animation := Animation.reset d.animation d.start, runStart := now }
  else { d with state := .finished }

/-- Goes on to a frame once begun. -/
def advance (d : Driver α κ) (now : Float) : Driver α κ × Float :=
  let (animation, sample) := Animation.step d.animation (d.frameTime now)
  let d := { d with animation, lastStep := now, lastValue := some sample.value }
  (if sample.finished then d.endRun now else d, sample.value)

/-- Goes on to a frame, in which the node has the base value `current`, and gives the value for
it. A driver that is over gives nothing. -/
def step (d : Driver α κ) (now current : Float) : Driver α κ × Option Float :=
  match d.state with
  | .pending =>
    let (d, x) := (d.begin now current).advance now
    (d, some x)
  | .running =>
    let (d, x) := d.advance now
    (d, some x)
  | .finished | .stopped => (d, none)

omit [Animation α] in
/-- Ends a driver that goes on. -/
def stop (d : Driver α κ) : Driver α κ :=
  if d.state.isActive then { d with state := .stopped } else d

omit [Animation α] in
/-- How a driver ended, for its callback. -/
def completion (d : Driver α κ) : Completion κ :=
  ⟨⟨d.id, d.state = .finished, d.lastValue⟩, d.callback⟩

end Driver

end MotionGraph
