import MotionGraph.Motion.Config
import MotionGraph.Tag

/-!
# What can be wrong with a request to the drivers
-/

namespace MotionGraph

/-- Why a request to the drivers is refused. -/
inductive DriverError where
  /-- The description of a motion is wrong. -/
  | config (cause : MotionError)
  /-- No driver is at work for this animation. -/
  | unknownAnimation (id : AnimationId)

/-- What the user is told. -/
def DriverError.message : DriverError → String
  | .config cause => "Invalid driver config: " ++ cause.message
  | .unknownAnimation id => "Unknown animation: " ++ id.label

end MotionGraph
