import MotionGraph.Graph.Basic
import MotionGraph.Graph.Order

/-!
# Propagation

`Graph.propagate` computes the marked nodes again and all that depends on them, each once and
after its inputs. What a kind computes from the values of other nodes alone is
`Kind.compute?`; diff-clamps also need their own past, and calls also write into other nodes.
Writes that expressions ask for are not carried out but handed out (`Pass.writes`), for
`Graph.applyWrites`.
-/

namespace MotionGraph

/-- A tracking node's wish to animate a node. -/
structure TrackingRequest where
  animation : AnimationId
  target : Tag
  /-- The settings of the animation, with the end value filled in. -/
  config : Json

/-- What a propagation did besides changing values. -/
structure Pass where
  /-- The nodes computed, in order. -/
  recomputed : List Tag := []
  /-- The nodes computed that hand values to views. -/
  sinks : OrderedSet Tag := ∅
  /-- The writes that expressions asked for, in order. -/
  writes : Writes := []
  /-- The animations that tracking nodes asked for, in order. -/
  requests : List TrackingRequest := []

namespace Pass

/-- Whether nothing was computed. -/
def isEmpty (p : Pass) : Bool := p.recomputed.isEmpty

/-- Two passes one after the other. -/
def append (p q : Pass) : Pass where
  recomputed := p.recomputed ++ q.recomputed
  sinks := p.sinks.insertAll q.sinks.toList
  writes := p.writes ++ q.writes
  requests := p.requests ++ q.requests

end Pass

namespace Kind

/-- The value that a kind computes from the values of other nodes alone. -/
def compute? (read : Tag → Option Float) : Kind → Option Float
  | .interpolation (some input) curve => some (curve.evaluate ((read input).getD 0.0))
  | .arithmetic op inputs => some (op.fold (inputs.filterMap read))
  | .expression tree => some (tree.evaluate read).1
  | _ => none

/-- The writes that a kind asks for. -/
def asks (read : Tag → Option Float) : Kind → Writes
  | .expression tree => (tree.evaluate read).2
  | _ => []

/-- The animation that a kind asks for. -/
def requests (read : Tag → Option Float) : Kind → List TrackingRequest
  | .tracking t =>
    match t.followed, t.follower with
    | some followed, some follower =>
      let goal := Json.ofFloat ((read followed).getD 0.0)
      [⟨t.animation, follower, .object (Json.insertField "toValue" goal t.template)⟩]
    | _, _ => []
  | _ => []

end Kind

namespace Graph

/-- Stores a computed value, without marking the node. -/
def store (g : Graph) (t : Tag) (x : Float) : Graph := g.update t fun n => n.setBase x

/-- Hands the values of a call's inputs to the nodes that receive them. All inputs are read
first. -/
def bind (g : Graph) (p : Proc) : Graph :=
  (p.bindings.map fun b => (b.2, g.read b.1)).foldl (fun g (b : Tag × Float) =>
    g.update b.1 fun n => if n.holdsValue then n.setBase b.2 else n) g

/-- Carries out the call of node `t`: its inputs are handed over, and the value of the expression
is stored both in the expression node and in `t`. -/
def call (g : Graph) (t : Tag) (p : Proc) : Graph × Writes :=
  let g := g.bind p
  match p.expression with
  | none => (g, [])
  | some callee =>
    match (g.node? callee).map Node.kind with
    | some (.expression tree) =>
      let (x, writes) := tree.evaluate g.value?
      ((g.store callee x).store t x, writes)
    | _ => (g, [])

/-- Computes one node. -/
def evaluate (g : Graph) (t : Tag) : Graph × Pass :=
  match g.node? t with
  | none => (g, { recomputed := [t] })
  | some n =>
    match n.kind with
    | .diffClamp (some input) clamp =>
      let (clamp, x) := clamp.step n.base (g.read input)
      (g.update t fun n => { n with kind := .diffClamp (some input) clamp, base := x },
        { recomputed := [t] })
    | .proc p =>
      let (g, writes) := g.call t p
      (g, { recomputed := [t], writes })
    | kind =>
      let pass : Pass :=
        { recomputed := [t]
          sinks := if kind.isSink then OrderedSet.empty.insert t else ∅
          writes := kind.asks g.value?
          requests := kind.requests g.value? }
      match kind.compute? g.value? with
      | some x => (g.store t x, pass)
      | none => (g, pass)

/-- Computes nodes one after the other. -/
def evaluateAll (g : Graph) : List Tag → Graph × Pass
  | [] => (g, {})
  | t :: ts =>
    let (g, pass) := g.evaluate t
    let (g, rest) := evaluateAll g ts
    (g, pass.append rest)

/-- The marked nodes that exist, and all that depends on them, in the order of evaluation. -/
def affected (g : Graph) : List Tag := g.edges.order (g.marked.toList.filter g.contains)

/-- Computes the marked nodes again and all that depends on them. -/
def propagate (g : Graph) : Graph × Pass := { g with marked := ∅ }.evaluateAll g.affected

/-- Carries out writes one after the other, and counts those that changed a node. A write to a
node that is gone or holds no number is left out. -/
def applyWrites (g : Graph) : Writes → Graph × Nat
  | [] => (g, 0)
  | (t, x) :: ws =>
    match g.setBase t x with
    | .ok (g, changed) =>
      let (g, n) := applyWrites g ws
      (g, if changed then n + 1 else n)
    | .error _ => applyWrites g ws

end Graph

end MotionGraph
