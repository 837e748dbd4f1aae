import MotionGraph.Number.Binary64

/-!
# The frame loop

The loop asks its host for ticks while there is something to do. The time it keeps is its own: it
goes forward by what has passed at the host since the last tick, but never back and never by more
than a limit; after a start it goes forward by a fixed interval.
-/

namespace MotionGraph

/-- The subscription to the host's ticks. -/
structure DisplayLink where
  running : Bool := false
  /-- How often ticks were asked for. -/
  starts : Nat := 0
  /-- How often they were declined. -/
  stops : Nat := 0

/-- The times of a tick, in milliseconds. -/
structure FrameTiming where
  /-- How many ticks there were, with this one. -/
  frame : Nat
  now : Float
  /-- How far the time went. -/
  delta : Float

/-- The loop and its clock. -/
structure FrameLoop where
  /-- How far a tick after a start goes. -/
  interval : Float
  /-- How far any other tick goes at most. -/
  maxDelta : Float
  running : Bool := false
  link : DisplayLink := {}
  /-- Whether the loop was started since the last tick. -/
  restarted : Bool := false
  /-- The host's time at the last tick. -/
  lastHost : Option Float := none
  now : Float := 0.0
  frame : Nat := 0

namespace FrameLoop

/-- Asks for ticks, unless they are coming. Tells whether they were not. -/
def start (l : FrameLoop) : FrameLoop × Bool :=
  if l.running then (l, false)
  else
    ({ l with
        running := true
        restarted := true
        link := { l.link with running := true, starts := l.link.starts + 1 } }, true)

/-- Declines ticks, if they are coming. Tells whether they were. -/
def stop (l : FrameLoop) : FrameLoop × Bool :=
  if l.running then
    ({ l with
        running := false
        link := { l.link with running := false, stops := l.link.stops + 1 } }, true)
  else (l, false)

/-- How far a tick goes. -/
def advance (l : FrameLoop) (host : Float) : Float :=
  match if l.restarted then none else l.lastHost with
  | none => l.interval
  | some last => Double.clamp (host - last) 0.0 l.maxDelta

/-- A tick at a time of the host. -/
def tick (l : FrameLoop) (host : Float) : FrameLoop × FrameTiming :=
  let delta := l.advance host
  let l :=
    { l with
      restarted := false
      lastHost := some host
      now := l.now + delta
      frame := l.frame + 1 }
  (l, ⟨l.frame, l.now, delta⟩)

end FrameLoop

end MotionGraph
