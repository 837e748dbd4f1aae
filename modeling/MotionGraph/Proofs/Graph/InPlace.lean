import MotionGraph.Proofs.Graph.Sound

/-!
# Requests that change a graph in place

A refused request to a `Graph` answers with a cause and no graph. `Graph.Edit` carries the same
requests out in place: one step after the other rewrites the graph, and a request that is refused on
the way leaves behind what its steps have made of the graph so far.

Nearly all requests look first and then change. Two change first: removing an edge takes it out of
both maps before it is known whether it was there (`Edit.disconnect`), and removing a node takes it
out last, after all traces of it (`Edit.drop`). For each request there is one lemma that compares it
with the one that answers (`outcome`): it is granted alike, and when it is refused the graph is what
it was before. For an edge that is not there this rests on the two maps being mirrored
(`Edges.unlink_of_not_reads`).
-/

namespace MotionGraph

/-- What a request in place comes to when it is answered so: granted, it leaves the new state and a
value; refused, it leaves the state as it was. -/
def outcome {ε σ α : Type} (s : σ) : Except ε (σ × α) → EStateM.Result ε σ α
  | .ok (s', a) => .ok a s'
  | .error cause => .error cause s

/-- The answer to a request that gives no value. -/
def bare {ε σ : Type} (r : Except ε σ) : Except ε (σ × Unit) := r.map fun s => (s, ())

@[simp] theorem outcome_ok {ε σ α : Type} (s s' : σ) (a : α) :
    outcome (ε := ε) s (.ok (s', a)) = .ok a s' := rfl

@[simp] theorem outcome_error {ε σ α : Type} (s : σ) (cause : ε) :
    outcome (α := α) s (.error cause) = .error cause s := rfl

@[simp] theorem bare_ok {ε σ : Type} (s : σ) : bare (ε := ε) (.ok s) = .ok (s, ()) := rfl

@[simp] theorem bare_error {ε σ : Type} (cause : ε) :
    bare (σ := σ) (.error cause) = .error cause := rfl

/-- A computation goes on with the result of its first step. -/
@[simp] theorem except_ok_bind {ε α β : Type} (a : α) (f : α → Except ε β) :
    (Except.ok a >>= f) = f a := rfl

/-- A computation ends with the complaint of its first step. -/
@[simp] theorem except_error_bind {ε α β : Type} (cause : ε) (f : α → Except ε β) :
    (Except.error cause >>= f) = .error cause := rfl

/-- A complaint leaves the state; the library says so of requests without a value alone. -/
@[simp] theorem run_complaint {ε σ α : Type} (cause : ε) (s : σ) :
    (throw cause : EStateM ε σ α).run s = .error cause s := rfl

/-- Rewriting the value at one key does nothing if it leaves the value there. -/
theorem OrderedMap.modify_of_fixed {κ α : Type} [DecidableEq κ] {m : OrderedMap κ α} {k : κ}
    {f : α → α} (h : ∀ a, m.get? k = some a → f a = a) : m.modify k f = m := by
  apply OrderedMap.ext
  show m.toList.map (fun p => (p.1, if p.1 = k then f p.2 else p.2)) = m.toList
  refine (List.map_congr_left fun p hp => ?_).trans m.toList.map_id
  by_cases hk : p.1 = k
  · rw [if_pos hk, h p.2 (OrderedMap.get?_eq_some_iff.2 (hk ▸ hp))]
    rfl
  · rw [if_neg hk]
    rfl

/-- Removing what is no member does nothing. -/
theorem OrderedSet.erase_of_notMem {α : Type} [DecidableEq α] {s : OrderedSet α} {a : α}
    (h : a ∉ s) : s.erase a = s := by
  apply OrderedSet.ext
  show s.toList.filter (fun b => b ≠ a) = s.toList
  rw [List.filter_eq_self]
  intro b hb
  rw [decide_eq_true_eq]
  rintro rfl
  exact h hb

/-- Removing a tag from a set that it is not in does nothing. -/
theorem TagSets.remove_of_notMem {m : TagSets} {k a : Tag} (h : a ∉ m.row k) :
    m.remove k a = m := by
  refine OrderedMap.modify_of_fixed fun s hs => OrderedSet.erase_of_notMem ?_
  rwa [TagSets.row, hs] at h

/-- Removing an edge that is not there does nothing, since neither map has it. -/
theorem Edges.unlink_of_not_reads {r : Edges} (hm : r.Mirrored) {parent child : Tag}
    (h : ¬r.Reads parent child) : r.unlink parent child = r := by
  have below : child ∉ r.children.row parent := h
  have above : parent ∉ r.parents.row child := fun hp => h ((hm parent child).1 hp)
  rw [unlink, TagSets.remove_of_notMem below, TagSets.remove_of_notMem above]

namespace Graph

/-- A request carried out in place. -/
abbrev Edit := EStateM GraphError Graph

namespace Edit

/-! ### The requests -/

/-- The node of a name, or the complaint that there is none. -/
def find (t : Tag) : Edit Node := do
  match (← get).node? t with
  | some n => pure n
  | none => throw (.unknownNode t)

/-- The node of a name, if it holds a number. -/
def holder (t : Tag) : Edit Node := do
  let n ← find t
  if n.holdsValue then pure n else throw (.holdsNoValue n.kind.name t)

/-- What the node of a name hands to a view. -/
def props (t : Tag) : Edit Props := do
  let n ← find t
  match n.kind with
  | .props p => pure p
  | _ => throw (.notProps t)

/-- Makes a node as described, unless the name is taken. -/
def make (t : Tag) (config : NodeConfig) : Edit Unit := do
  if (← get).contains t then throw (.duplicateTag t)
  match config.build t with
  | .ok n => modify fun g => { g with nodes := g.nodes.insert t n }
  | .error cause => throw (.config cause)

/-- Makes a node. The name is looked at before the description. -/
def create (t : Tag) (config : Json) : Edit Unit := do
  if (← get).contains t then throw (.duplicateTag t)
  match NodeConfig.ofJson? config with
  | some config => make t config
  | none => throw (.config .shape)

/-- Makes `child` an input of `parent`. -/
def connect (parent child : Tag) : Edit Unit := do
  let _ ← find parent
  let c ← find child
  if c.isSink then throw (.sinkAsInput child)
  let edges := (← get).edges
  if edges.contains parent child then return
  if parent = child || edges.isAncestor child parent then throw (.cycle parent child)
  modify fun g => { g with edges := g.edges.link parent child }
  modify fun g => g.update parent fun n => n.attach child
  modify fun g => g.touch parent

/-- Removes an edge. It is taken out of both maps before it is known whether it was there. -/
def disconnect (parent child : Tag) : Edit Unit := do
  let _ ← find parent
  let _ ← find child
  let present := (← get).edges.contains parent child
  modify fun g => { g with edges := g.edges.unlink parent child }
  if !present then throw (.edgeNotFound parent child)
  modify fun g => g.update parent fun n => n.forget child
  modify fun g => g.touch parent

/-- Removes a node: first its edges, then the references to it and its mark, and last itself. -/
def drop (t : Tag) (holders : List Holder) : Edit Node := do
  let _ ← find t
  if let some h := holders.find? fun h => h.holds t then throw (.inUse t h.name)
  let removed := ((← get).edges.detach t).2
  modify fun g => { g with edges := (g.edges.detach t).1 }
  modify fun g =>
    { g with marked := g.marked.insertAll ((removed.filter fun e => e.child = t).map Edge.parent) }
  modify fun g => { g with nodes := g.nodes.map fun _ m => m.forget t }
  modify fun g => { g with marked := g.marked.erase t }
  match (← get).node? t with
  | some n =>
    modify fun g => { g with nodes := g.nodes.erase t }
    pure n
  | none => throw (.unknownNode t)

/-- Sets the base value of a node. Tells whether that changes it. -/
def setBase (t : Tag) (x : Float) : Edit Bool := do
  let n ← holder t
  modify fun g => g.update t fun n => n.setBase x
  if n.baseChanges x then modify fun g => g.touch t
  pure (n.baseChanges x)

/-- Sets the offset of a node. Tells whether that changes it. -/
def setOffset (t : Tag) (x : Float) : Edit Bool := do
  let n ← holder t
  modify fun g => g.update t fun n => n.setOffset x
  if n.offsetChanges x then modify fun g => g.touch t
  pure (n.offsetChanges x)

/-- Merges the offset of a node into its base value. -/
def flattenOffset (t : Tag) : Edit Unit := do
  let _ ← holder t
  modify fun g => g.update t Node.flattenOffset
  modify fun g => g.touch t

/-- Moves the base value of a node into its offset. -/
def extractOffset (t : Tag) : Edit Unit := do
  let _ ← holder t
  modify fun g => g.update t Node.extractOffset
  modify fun g => g.touch t

/-- Attaches a node to a view. -/
def attachView (t : Tag) (view : ViewId) : Edit Unit := do
  let p ← props t
  match p.view with
  | some current => if current = view then pure () else throw (.alreadyAttached t current)
  | none =>
    modify fun g => g.setProps t { p with view := some view, lastSent := none }
    modify fun g => g.touch t

/-- Detaches a node from its view. -/
def detachView (t : Tag) (view : ViewId) : Edit Unit := do
  let p ← props t
  if p.view ≠ some view then throw (.viewNotConnected t view)
  modify fun g => g.setProps t { p with view := none, lastSent := none }

/-- Takes all properties of a props node back. -/
def restoreDefaults (t : Tag) : Edit (Option ViewUpdate) := do
  let p ← props t
  let reset := (← get).resetMap p
  modify fun g => g.setProps t { p with lastSent := none }
  pure (p.view.map fun view => ⟨view, reset⟩)

/-! ### What they come to -/

variable {g : Graph}

/-- A node is looked up. -/
theorem run_find (t : Tag) : (find t).run g = outcome g ((g.find t).map fun n => (g, n)) := by
  simp only [find, EStateM.run_bind, EStateM.run_get, Graph.find]
  cases g.node? t <;> simp [Except.map]

/-- A node that holds a number is looked up. -/
theorem run_holder (t : Tag) : (holder t).run g = outcome g ((g.holder t).map fun n => (g, n)) := by
  simp only [holder, EStateM.run_bind, run_find, Graph.holder]
  cases g.find t with
  | error cause => rfl
  | ok n => by_cases hv : n.holdsValue = true <;> simp [hv, Except.map]

/-- A props node is looked up. -/
theorem run_props (t : Tag) : (props t).run g = outcome g ((g.props t).map fun p => (g, p.2)) := by
  simp only [props, EStateM.run_bind, run_find, Graph.props]
  cases g.find t with
  | error cause => rfl
  | ok n =>
    simp only [Except.map, outcome_ok, except_ok_bind]
    cases n.kind <;> simp

/-- A node is made. -/
theorem run_make (t : Tag) (config : NodeConfig) :
    (make t config).run g = outcome g (bare (g.make t config)) := by
  simp only [make, EStateM.run_bind, EStateM.run_get, Graph.make]
  cases g.contains t <;> cases config.build t <;> simp

/-- A node is made from data. -/
theorem run_create (t : Tag) (config : Json) :
    (create t config).run g = outcome g (bare (g.create t config)) := by
  simp only [create, EStateM.run_bind, EStateM.run_get, Graph.create]
  cases g.contains t <;> cases NodeConfig.ofJson? config <;> simp [run_make]

/-- An edge is made. -/
theorem run_connect (parent child : Tag) :
    (connect parent child).run g = outcome g (bare (g.connect parent child)) := by
  simp only [connect, EStateM.run_bind, run_find, Graph.connect]
  cases g.find parent with
  | error cause => rfl
  | ok p =>
    simp only [Except.map, outcome_ok, except_ok_bind]
    cases g.find child with
    | error cause => rfl
    | ok c =>
      by_cases hs : c.isSink = true
      · simp [hs]
      · by_cases hr : g.edges.contains parent child = true
        · simp [hs, hr]
        · by_cases hc : parent = child ∨ g.edges.isAncestor child parent = true <;>
            simp [hs, hr, hc]

/-- An edge is removed. When it is not there, taking it out of both maps does nothing. -/
theorem run_disconnect (hm : g.edges.Mirrored) (parent child : Tag) :
    (disconnect parent child).run g = outcome g (bare (g.disconnect parent child)) := by
  simp only [disconnect, EStateM.run_bind, run_find, Graph.disconnect]
  cases g.find parent with
  | error cause => rfl
  | ok p =>
    simp only [Except.map, outcome_ok, except_ok_bind]
    cases g.find child with
    | error cause => rfl
    | ok c =>
      by_cases hr : g.edges.contains parent child = true
      · simp [hr]
      · have unchanged : g.edges.unlink parent child = g.edges :=
          Edges.unlink_of_not_reads hm fun h => hr (Edges.contains_iff.2 h)
        simp [hr, unchanged]

/-- A node is removed. It is still there when its turn comes. -/
theorem run_drop (t : Tag) (holders : List Holder) :
    (drop t holders).run g = outcome g (g.drop t holders) := by
  simp only [drop, EStateM.run_bind, run_find, Graph.drop]
  cases hn : g.find t with
  | error cause => rfl
  | ok n =>
    have there : (g.nodes.map fun _ m => m.forget t).get? t = some (n.forget t) := by
      rw [OrderedMap.get?_map, show g.nodes.get? t = some n from find_eq_ok.1 hn]
      rfl
    simp only [Except.map, outcome_ok, except_ok_bind]
    cases holders.find? fun h => h.holds t with
    | some h => simp
    | none =>
      simp only [EStateM.run_bind, EStateM.run_pure, EStateM.run_get, EStateM.run_modify, node?,
        there, outcome_ok]

/-- A base value is set. -/
theorem run_setBase (t : Tag) (x : Float) :
    (setBase t x).run g = outcome g (g.setBase t x) := by
  simp only [setBase, EStateM.run_bind, run_holder, Graph.setBase]
  cases g.holder t with
  | error cause => rfl
  | ok n =>
    simp only [Except.map, outcome_ok, except_ok_bind]
    cases n.baseChanges x <;> rfl

/-- An offset is set. -/
theorem run_setOffset (t : Tag) (x : Float) :
    (setOffset t x).run g = outcome g (g.setOffset t x) := by
  simp only [setOffset, EStateM.run_bind, run_holder, Graph.setOffset]
  cases g.holder t with
  | error cause => rfl
  | ok n =>
    simp only [Except.map, outcome_ok, except_ok_bind]
    cases n.offsetChanges x <;> rfl

/-- An offset is merged into the base value. -/
theorem run_flattenOffset (t : Tag) :
    (flattenOffset t).run g = outcome g (bare (g.flattenOffset t)) := by
  simp only [flattenOffset, EStateM.run_bind, run_holder, Graph.flattenOffset]
  cases g.holder t <;> simp [Except.map]

/-- A base value is moved into the offset. -/
theorem run_extractOffset (t : Tag) :
    (extractOffset t).run g = outcome g (bare (g.extractOffset t)) := by
  simp only [extractOffset, EStateM.run_bind, run_holder, Graph.extractOffset]
  cases g.holder t <;> simp [Except.map]

/-- A node is attached to a view. -/
theorem run_attachView (t : Tag) (view : ViewId) :
    (attachView t view).run g = outcome g (bare (g.attachView t view)) := by
  simp only [attachView, EStateM.run_bind, run_props, Graph.attachView]
  cases g.props t with
  | error cause => rfl
  | ok p =>
    simp only [Except.map, outcome_ok, except_ok_bind]
    cases p.2.view with
    | none => simp [setProps]
    | some current => by_cases hc : current = view <;> simp [hc]

/-- A node is detached from its view. -/
theorem run_detachView (t : Tag) (view : ViewId) :
    (detachView t view).run g = outcome g (bare (g.detachView t view)) := by
  simp only [detachView, EStateM.run_bind, run_props, Graph.detachView]
  cases g.props t with
  | error cause => rfl
  | ok p =>
    simp only [Except.map, outcome_ok, except_ok_bind]
    by_cases hv : p.2.view = some view <;> simp [hv, setProps]

/-- All properties of a props node are taken back. -/
theorem run_restoreDefaults (t : Tag) :
    (restoreDefaults t).run g = outcome g (g.restoreDefaults t) := by
  simp only [restoreDefaults, EStateM.run_bind, run_props, Graph.restoreDefaults]
  cases g.props t <;> simp [Except.map]

end Edit

end Graph

end MotionGraph
