import MotionGraph.Json.Basic
import MotionGraph.Node.DiffClamp
import MotionGraph.Node.Expr.Basic
import MotionGraph.Node.Interpolation
import MotionGraph.Node.Prop

/-!
# Nodes

A node has a kind, a base value and an offset; what others see of it is their sum
(`Node.value`). The kind holds the references to other nodes: `Kind.reads` lists those that the
node reads, `Kind.attach` fills in a reference when an edge is made, and `Kind.forget` removes
every reference to a node.
-/

namespace MotionGraph

/-- A node that keeps another one animating toward the value of a third. -/
structure Tracking where
  /-- The animation that it starts. -/
  animation : AnimationId
  /-- The node whose value is followed. -/
  followed : Option Tag
  /-- The node that is animated. -/
  follower : Option Tag
  /-- The settings of the animation, without its end value. -/
  template : List (String × Json)

/-- A node that hands values to a view. -/
structure Props where
  /-- The properties and the nodes that they are read from. -/
  sources : OrderedMap String Tag
  /-- The view it is attached to. -/
  view : Option ViewId := none
  /-- What the view received last. -/
  lastSent : Option PropMap := none

/-- A call of an expression node with other inputs. -/
structure Proc where
  /-- The expression node. -/
  expression : Option Tag
  /-- Nodes that are read, each with the node that receives its value. -/
  bindings : List (Tag × Tag)

/-- What a node does. -/
inductive Kind where
  /-- Holds a value. -/
  | value
  /-- Names style properties and the nodes they are read from. -/
  | style (sources : OrderedMap String Tag)
  /-- Lists transform operations. -/
  | transform (entries : List TransformEntry)
  /-- Maps the value of one input through a polyline. -/
  | interpolation (input : Option Tag) (curve : Interpolation Float)
  /-- Folds an operator over its inputs. -/
  | arithmetic (op : Arithmetic) (inputs : List Tag)
  /-- Accumulates the changes of one input between bounds. -/
  | diffClamp (input : Option Tag) (clamp : DiffClamp)
  /-- Keeps a node animating toward another. -/
  | tracking (t : Tracking)
  /-- Hands values to a view. -/
  | props (p : Props)
  /-- Computes an expression. -/
  | expression (tree : Expr)
  /-- Computes the expression of another node with other inputs. -/
  | proc (p : Proc)

namespace Kind

/-- The name of a kind. -/
def name : Kind → String
  | .value => "value"
  | .style _ => "style"
  | .transform _ => "transform"
  | .interpolation _ _ => "interpolation"
  | .arithmetic op _ => op.name
  | .diffClamp _ _ => "diffclamp"
  | .tracking _ => "tracking"
  | .props _ => "props"
  | .expression _ => "expression"
  | .proc _ => "proc"

/-- Whether a node of the kind holds a number that can be set and animated. -/
def holdsValue : Kind → Bool
  | .style _ | .transform _ | .props _ => false
  | _ => true

/-- Whether a node of the kind hands values to a view, and so is no input of another. -/
def isSink : Kind → Bool
  | .props _ => true
  | _ => false

/-- Makes `child` an input: an arithmetic node appends it, a node with one input takes it if it
has none. -/
def attach (child : Tag) : Kind → Kind
  | .arithmetic op inputs =>
    .arithmetic op (if inputs.contains child then inputs else inputs ++ [child])
  | .interpolation none curve => .interpolation (some child) curve
  | .diffClamp none clamp => .diffClamp (some child) clamp.restart
  | .tracking t => .tracking { t with followed := t.followed.or (some child) }
  | k => k

/-- Clears a reference to `child`. -/
def clear (child : Tag) (slot : Option Tag) : Option Tag :=
  if slot = some child then none else slot

/-- Removes every reference to `child`. A binding goes as a whole when either side mentions it. -/
def forget (child : Tag) : Kind → Kind
  | .value => .value
  | .style sources => .style (sources.filter fun _ t => t ≠ child)
  | .transform entries => .transform (entries.filter fun e => e.operand.tag? ≠ some child)
  | .interpolation input curve => .interpolation (clear child input) curve
  | .arithmetic op inputs => .arithmetic op (inputs.filter fun t => t ≠ child)
  | .diffClamp input clamp =>
    if input = some child then .diffClamp none clamp.restart else .diffClamp input clamp
  | .tracking t =>
    .tracking { t with followed := clear child t.followed, follower := clear child t.follower }
  | .props p => .props { p with sources := p.sources.filter fun _ t => t ≠ child }
  | .expression tree => .expression (tree.forget child)
  | .proc p =>
    .proc
      { expression := clear child p.expression
        bindings := p.bindings.filter fun b => b.1 ≠ child && b.2 ≠ child }

/-- The nodes that a node of the kind reads. -/
def reads : Kind → List Tag
  | .value => []
  | .style sources => sources.values
  | .transform entries => entries.filterMap fun e => e.operand.tag?
  | .interpolation input _ => input.toList
  | .arithmetic _ inputs => inputs
  | .diffClamp input _ => input.toList
  | .tracking t => t.followed.toList
  | .props p => p.sources.values
  | .expression tree => tree.tags.toList
  | .proc p => p.bindings.map Prod.fst ++ p.expression.toList

end Kind

/-- A node of a graph. -/
structure Node where
  tag : Tag
  kind : Kind
  /-- The value without the offset. -/
  base : Float := 0.0
  offset : Float := 0.0

namespace Node

/-- What others see of a node. -/
def value (n : Node) : Float := n.base + n.offset

/-- Whether a node holds a number that can be set and animated. -/
def holdsValue (n : Node) : Bool := n.kind.holdsValue

/-- Whether a node hands values to a view. -/
def isSink (n : Node) : Bool := n.kind.isSink

/-- Whether a base value is another datum than the present one. -/
def baseChanges (n : Node) (x : Float) : Bool := !Double.same n.base x

/-- Whether an offset is another datum than the present one. -/
def offsetChanges (n : Node) (x : Float) : Bool := !Double.same n.offset x

/-- Sets the base value. -/
def setBase (n : Node) (x : Float) : Node := { n with base := x }

/-- Sets the offset. -/
def setOffset (n : Node) (x : Float) : Node := { n with offset := x }

/-- Merges the offset into the base value. -/
def flattenOffset (n : Node) : Node := { n with base := n.base + n.offset, offset := 0.0 }

/-- Moves the base value into the offset. -/
def extractOffset (n : Node) : Node := { n with base := 0.0, offset := n.offset + n.base }

/-- Makes `child` an input. -/
def attach (n : Node) (child : Tag) : Node := { n with kind := n.kind.attach child }

/-- Removes every reference to `child`. -/
def forget (n : Node) (child : Tag) : Node := { n with kind := n.kind.forget child }

end Node

end MotionGraph
