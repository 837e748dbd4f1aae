/-!
# Names of nodes, views and animations

Three kinds of identifiers, each a number of its own kind, and the way messages show them.
-/

namespace MotionGraph

/-- The name of a node. -/
structure Tag where
  number : Nat
  deriving DecidableEq, Repr, Inhabited

/-- The name of a view on the screen. -/
structure ViewId where
  number : Nat
  deriving DecidableEq, Repr, Inhabited

/-- The name of an animation. -/
structure AnimationId where
  number : Nat
  deriving DecidableEq, Repr, Inhabited

/-- A node in a message. -/
def Tag.label (t : Tag) : String := "#" ++ toString t.number

/-- A view in a message. -/
def ViewId.label (v : ViewId) : String := "view " ++ toString v.number

/-- An animation in a message. -/
def AnimationId.label (a : AnimationId) : String := "animation " ++ toString a.number

end MotionGraph
