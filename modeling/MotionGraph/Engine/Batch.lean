import MotionGraph.Graph.Update

/-!
# Batches of view updates

All updates of a frame go to the views at once, in one batch.
-/

namespace MotionGraph

/-- The updates of one frame. -/
structure FrameBatch where
  /-- The number of the frame. -/
  frame : Nat
  updates : List ViewUpdate

/-- The updates for one view. -/
def FrameBatch.forView (b : FrameBatch) (view : ViewId) : List PropMap :=
  (b.updates.filter fun u => u.view = view).map ViewUpdate.props

/-- The batches received so far. -/
structure Recording where
  batches : List FrameBatch := []

namespace Recording

/-- Receives a batch. -/
def add (r : Recording) (b : FrameBatch) : Recording := ⟨r.batches ++ [b]⟩

/-- Hands out the batches received, and starts over. -/
def take (r : Recording) : Recording × List FrameBatch := ({}, r.batches)

/-- Number of batches. -/
def size (r : Recording) : Nat := r.batches.length

/-- Whether nothing was received. -/
def isEmpty (r : Recording) : Bool := r.batches.isEmpty

/-- All updates for one view. -/
def forView (r : Recording) (view : ViewId) : List PropMap :=
  r.batches.flatMap fun b => b.forView view

end Recording

end MotionGraph
