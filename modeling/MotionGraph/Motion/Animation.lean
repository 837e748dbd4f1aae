/-!
# Animations

An animation is whatever can begin from a value and then give a new value for every frame
(`Animation`). A value comes with the word whether the motion has reached its end (`Sample`).
-/

namespace MotionGraph

/-- The times of a frame, in milliseconds. -/
structure FrameTime where
  /-- The time of the frame. -/
  now : Float
  /-- The time since the motion began. -/
  elapsed : Float
  /-- The time since the last frame. -/
  delta : Float

/-- What an animation gives for a frame. -/
structure Sample where
  value : Float
  /-- Whether the motion has reached its end. -/
  finished : Bool

/-- What can begin from a value and go on frame by frame. -/
class Animation (α : Type) where
  /-- Begins from a value. -/
  reset : α → Float → α
  /-- Goes on to a frame. -/
  step : α → FrameTime → α × Sample

end MotionGraph
