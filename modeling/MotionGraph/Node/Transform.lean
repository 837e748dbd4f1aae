import MotionGraph.Tag

/-!
# Transform operations

A transform is a list of operations on a view, each with one operand: a number, or a node that it
is read from.
-/

namespace MotionGraph

/-- What an operation does. -/
inductive TransformProperty where
  | translateX
  | translateY
  | scale
  | scaleX
  | scaleY
  | rotate
  | rotateX
  | rotateY
  | rotateZ
  | skewX
  | skewY
  | perspective
  deriving DecidableEq, Repr

namespace TransformProperty

/-- All operations, in their declared order. -/
def all : List TransformProperty :=
  [translateX, translateY, scale, scaleX, scaleY, rotate, rotateX, rotateY, rotateZ, skewX, skewY,
   perspective]

/-- The name of an operation in data. -/
def name : TransformProperty → String
  | translateX => "translateX"
  | translateY => "translateY"
  | scale => "scale"
  | scaleX => "scaleX"
  | scaleY => "scaleY"
  | rotate => "rotate"
  | rotateX => "rotateX"
  | rotateY => "rotateY"
  | rotateZ => "rotateZ"
  | skewX => "skewX"
  | skewY => "skewY"
  | perspective => "perspective"

/-- The name of an operation in a message, with a capital in front. -/
def caption (p : TransformProperty) : String := p.name.capitalize

/-- The operation of a name. -/
def ofName? (s : String) : Option TransformProperty := all.find? fun p => p.name = s

/-- Whether the operand is an angle, in radians. -/
def isAngle : TransformProperty → Bool
  | rotate | rotateX | rotateY | rotateZ | skewX | skewY => true
  | _ => false

end TransformProperty

/-- Where an operand comes from. -/
inductive TransformOperand where
  /-- The value of a node. -/
  | node (tag : Tag)
  /-- A number; angles are in radians. -/
  | constant (x : Float)

/-- The node that an operand is read from. -/
def TransformOperand.tag? : TransformOperand → Option Tag
  | .node tag => some tag
  | .constant _ => none

/-- One operation of a transform. -/
structure TransformEntry where
  property : TransformProperty
  operand : TransformOperand

end MotionGraph
