import MotionGraph.Motion.Decay
import MotionGraph.Motion.Spring
import MotionGraph.Motion.Timing

/-!
# The motions that can be asked for

A motion is timed, a spring, a decay or the clock, which shows the time of the frame until it is
stopped.
-/

namespace MotionGraph

/-- A motion. -/
inductive Motion where
  | timing (m : Timing)
  | spring (m : Spring)
  | decay (m : Decay)
  | clock

namespace Motion

/-- The name of a motion. -/
def name : Motion → String
  | .timing _ => "timing"
  | .spring _ => "spring"
  | .decay _ => "decay"
  | .clock => "clock"

instance : Animation Motion where
  reset
    | .timing m, start => .timing (Animation.reset m start)
    | .spring m, start => .spring (Animation.reset m start)
    | .decay m, start => .decay (Animation.reset m start)
    | .clock, _ => .clock
  step
    | .timing m, frame => (Animation.step m frame).map .timing id
    | .spring m, frame => (Animation.step m frame).map .spring id
    | .decay m, frame => (Animation.step m frame).map .decay id
    | .clock, frame => (.clock, ⟨frame.now, false⟩)

end Motion

end MotionGraph
