import MotionGraph.Graph.Basic

/-!
# Updates of views

A props node hands a view the values of its properties: `Graph.propsMap` collects them as they
are, `Graph.takeUpdate` hands them out if they differ from what the view received last, and
`Graph.restoreDefaults` takes everything back.
-/

namespace MotionGraph

/-- What a view receives. -/
structure ViewUpdate where
  view : ViewId
  props : PropMap

namespace Graph

/-- The operand of an operation, as it is now. -/
def operand (g : Graph) : TransformOperand → Float
  | .node t => g.read t
  | .constant x => x

/-- What a node is worth as the value of one property. -/
def propValue? (g : Graph) (t : Tag) : Option PropValue := do
  let n ← g.node? t
  match n.kind with
  | .transform entries =>
    some (.transform (entries.map fun e => ⟨e.property, g.operand e.operand⟩))
  | .style _ | .props _ => none
  | _ => some (.number n.value)

/-- Writes the value of a node under a name, if it has one. -/
def insertProp (g : Graph) (m : PropMap) (name : String) (t : Tag) : PropMap :=
  match g.propValue? t with
  | some v => m.insert name v
  | none => m

/-- Writes what one source of a props node is worth: a style gives all its own properties. -/
def insertSource (g : Graph) (m : PropMap) (name : String) (t : Tag) : PropMap :=
  match (g.node? t).map Node.kind with
  | some (.style sources) => sources.toList.foldl (fun m s => g.insertProp m s.1 s.2) m
  | _ => g.insertProp m name t

/-- The values of the properties of a props node. -/
def propsOf (g : Graph) (p : Props) : PropMap :=
  p.sources.toList.foldl (fun m s => g.insertSource m s.1 s.2) ∅

/-- The values of the properties of the node of a name. -/
def propsMap (g : Graph) (t : Tag) : Except GraphError PropMap :=
  (g.props t).map fun p => g.propsOf p.2

/-- Replaces what is kept about a props node. -/
def setProps (g : Graph) (t : Tag) (p : Props) : Graph :=
  g.update t fun n => { n with kind := .props p }

/-- Hands out the values of an attached props node, unless its view received the same before. -/
def takeUpdate (g : Graph) (t : Tag) : Graph × Option ViewUpdate :=
  match g.props t with
  | .error _ => (g, none)
  | .ok (_, p) =>
    match p.view with
    | none => (g, none)
    | some view =>
      let m := g.propsOf p
      if (p.lastSent.map fun last => last.agrees m).getD false then (g, none)
      else (g.setProps t { p with lastSent := some m }, some ⟨view, m⟩)

/-- Every property that a props node has now, or that its view received last, back at the view's
own value. -/
def resetMap (g : Graph) (p : Props) : PropMap :=
  let now := (g.propsOf p).map fun _ _ => PropValue.viewDefault
  ((p.lastSent.map OrderedMap.keys).getD []).foldl
    (fun m k => if m.contains k then m else m.insert k .viewDefault) now

/-- Takes all properties of a props node back. The view, if there is one, is to receive the
result. -/
def restoreDefaults (g : Graph) (t : Tag) : Except GraphError (Graph × Option ViewUpdate) := do
  let (_, p) ← g.props t
  .ok (g.setProps t { p with lastSent := none }, p.view.map fun view => ⟨view, g.resetMap p⟩)

end Graph

end MotionGraph
