import MotionGraph.Graph.Edges
import MotionGraph.Graph.Error

/-!
# The graph of nodes

A graph holds its nodes by name, the edges between them and the names of the nodes that have
changed since values were last propagated (`Graph.marked`). Requests that can be refused answer
with a cause and no graph, so that nothing has happened to it.
-/

namespace MotionGraph

/-- A graph of nodes. -/
structure Graph where
  /-- The nodes, in the order of their making. -/
  nodes : OrderedMap Tag Node := ∅
  /-- Which node reads which. -/
  edges : Edges := {}
  /-- The nodes that have changed since the last propagation. -/
  marked : OrderedSet Tag := ∅

/-- Something outside a graph that refers to its nodes. -/
structure Holder where
  /-- How messages call it. -/
  name : String
  /-- Whether it refers to a node. -/
  holds : Tag → Bool

namespace Graph

/-- The graph without nodes. -/
def empty : Graph := {}

instance : Inhabited Graph := ⟨empty⟩

/-! ### Looking up -/

/-- The node of a name. -/
def node? (g : Graph) (t : Tag) : Option Node := g.nodes.get? t

/-- Whether there is a node of a name. -/
def contains (g : Graph) (t : Tag) : Bool := g.nodes.contains t

/-- The node of a name, or the complaint that there is none. -/
def find (g : Graph) (t : Tag) : Except GraphError Node :=
  match g.node? t with
  | some n => .ok n
  | none => .error (.unknownNode t)

/-- What others see of a node. -/
def value? (g : Graph) (t : Tag) : Option Float := (g.node? t).map Node.value

/-- What a reader sees of a node; nothing reads as zero. -/
def read (g : Graph) (t : Tag) : Float := (g.value? t).getD 0.0

/-- What others see of a node that must be there. -/
def observed (g : Graph) (t : Tag) : Except GraphError Float := (g.find t).map Node.value

/-- Whether any node waits for propagation. -/
def isPending (g : Graph) : Bool := !g.marked.isEmpty

/-- The node of a name, if it holds a number. -/
def holder (g : Graph) (t : Tag) : Except GraphError Node := do
  let n ← g.find t
  if n.holdsValue then .ok n else .error (.holdsNoValue n.kind.name t)

/-- The node of a name, if it hands values to a view. -/
def props (g : Graph) (t : Tag) : Except GraphError (Node × Props) := do
  let n ← g.find t
  match n.kind with
  | .props p => .ok (n, p)
  | _ => .error (.notProps t)

/-! ### Changing -/

/-- Rewrites a node, if there is one. -/
def update (g : Graph) (t : Tag) (f : Node → Node) : Graph := { g with nodes := g.nodes.modify t f }

/-- Marks a node for the next propagation, whether there is one or not. -/
def touch (g : Graph) (t : Tag) : Graph := { g with marked := g.marked.insert t }

/-- Makes a node as described, unless the name is taken. -/
def make (g : Graph) (t : Tag) (config : NodeConfig) : Except GraphError Graph :=
  if g.contains t then .error (.duplicateTag t)
  else
    match config.build t with
    | .ok n => .ok { g with nodes := g.nodes.insert t n }
    | .error cause => .error (.config cause)

/-- Makes a node. The name is looked at before the description. -/
def create (g : Graph) (t : Tag) (config : Json) : Except GraphError Graph :=
  if g.contains t then .error (.duplicateTag t)
  else
    match NodeConfig.ofJson? config with
    | some config => g.make t config
    | none => .error (.config .shape)

/-- Makes `child` an input of `parent`. An edge that is there already stays as it is. -/
def connect (g : Graph) (parent child : Tag) : Except GraphError Graph := do
  let _ ← g.find parent
  let c ← g.find child
  if c.isSink then .error (.sinkAsInput child)
  else if g.edges.contains parent child then .ok g
  else if parent = child || g.edges.isAncestor child parent then .error (.cycle parent child)
  else
    let g := { g with edges := g.edges.link parent child }
    .ok ((g.update parent fun n => n.attach child).touch parent)

/-- Removes an edge. -/
def disconnect (g : Graph) (parent child : Tag) : Except GraphError Graph := do
  let _ ← g.find parent
  let _ ← g.find child
  if g.edges.contains parent child then
    let g := { g with edges := g.edges.unlink parent child }
    .ok ((g.update parent fun n => n.forget child).touch parent)
  else .error (.edgeNotFound parent child)

/-- Removes a node with all edges and references to it, unless something outside refers to it. The
nodes that read it by an edge are marked. The node is handed out without references to itself. -/
def drop (g : Graph) (t : Tag) (holders : List Holder) : Except GraphError (Graph × Node) := do
  let n ← g.find t
  match holders.find? fun h => h.holds t with
  | some h => .error (.inUse t h.name)
  | none =>
    let (edges, removed) := g.edges.detach t
    let readers := (removed.filter fun e => e.child = t).map Edge.parent
    .ok
      ({ nodes := (g.nodes.map fun _ m => m.forget t).erase t
         edges
         marked := (g.marked.insertAll readers).erase t },
        n.forget t)

/-- Marks a node for the next propagation. -/
def mark (g : Graph) (t : Tag) : Except GraphError Graph := (g.find t).map fun _ => g.touch t

/-- Sets the base value of a node. The node is marked if that changes it, which is told. -/
def setBase (g : Graph) (t : Tag) (x : Float) : Except GraphError (Graph × Bool) := do
  let n ← g.holder t
  let g' := g.update t fun n => n.setBase x
  .ok (if n.baseChanges x then (g'.touch t, true) else (g', false))

/-- Sets the offset of a node. The node is marked if that changes it, which is told. -/
def setOffset (g : Graph) (t : Tag) (x : Float) : Except GraphError (Graph × Bool) := do
  let n ← g.holder t
  let g' := g.update t fun n => n.setOffset x
  .ok (if n.offsetChanges x then (g'.touch t, true) else (g', false))

/-- Merges the offset of a node into its base value. -/
def flattenOffset (g : Graph) (t : Tag) : Except GraphError Graph :=
  (g.holder t).map fun _ => (g.update t Node.flattenOffset).touch t

/-- Moves the base value of a node into its offset. -/
def extractOffset (g : Graph) (t : Tag) : Except GraphError Graph :=
  (g.holder t).map fun _ => (g.update t Node.extractOffset).touch t

/-- Attaches a node to a view, which has received nothing from it yet. -/
def attachView (g : Graph) (t : Tag) (view : ViewId) : Except GraphError Graph := do
  let (_, p) ← g.props t
  match p.view with
  | some current => if current = view then .ok g else .error (.alreadyAttached t current)
  | none =>
    let p := { p with view := some view, lastSent := none }
    .ok ((g.update t fun n => { n with kind := .props p }).touch t)

/-- Detaches a node from its view. -/
def detachView (g : Graph) (t : Tag) (view : ViewId) : Except GraphError Graph := do
  let (_, p) ← g.props t
  if p.view = some view then
    let p := { p with view := none, lastSent := none }
    .ok (g.update t fun n => { n with kind := .props p })
  else .error (.viewNotConnected t view)

end Graph

end MotionGraph
