import MotionGraph.Graph.Propagation
import MotionGraph.Graph.Update
import MotionGraph.Proofs.Graph.Reach

/-!
# Requests to a graph and what a granted one has done

`Graph.Request` lists all that can be asked of a graph, `Graph.perform` carries a request out, and
`Graph.after` is the graph afterwards, which is the old one where the request is refused.

For every request there is one lemma that says all a granted one has done, the conditions under
which it is granted included (`connect_eq_ok`, `drop_eq_ok`, …). Facts about runs are proved from
these lemmas alone.
-/

namespace MotionGraph

/-- A computation in two steps succeeds when both do. -/
theorem except_bind_eq_ok {ε α β : Type} {x : Except ε α} {f : α → Except ε β} {b : β} :
    (x >>= f) = .ok b ↔ ∃ a, x = .ok a ∧ f a = .ok b := by
  cases x <;> simp [bind, Except.bind]

/-- Rewriting a result keeps success. -/
theorem except_map_eq_ok {ε α β : Type} {x : Except ε α} {f : α → β} {b : β} :
    x.map f = .ok b ↔ ∃ a, x = .ok a ∧ f a = b := by
  cases x <;> simp [Except.map]

namespace Graph

/-! ### Nodes after a change -/

/-- There is a node of a name when looking it up finds one. -/
theorem contains_eq_isSome (g : Graph) (t : Tag) : g.contains t = (g.node? t).isSome :=
  OrderedMap.contains_eq_isSome g.nodes t

/-- A node that is found is there. -/
theorem contains_of_node? {g : Graph} {t : Tag} {n : Node} (h : g.node? t = some n) :
    g.contains t = true := by
  rw [contains_eq_isSome, h, Option.isSome_some]

/-- What is there is found. -/
theorem exists_node?_of_contains {g : Graph} {t : Tag} (h : g.contains t = true) :
    ∃ n, g.node? t = some n :=
  Option.isSome_iff_exists.1 (contains_eq_isSome g t ▸ h)

/-- Rewriting one node changes what is found under its name alone. -/
theorem node?_update (g : Graph) (t u : Tag) (f : Node → Node) :
    (g.update t f).node? u = if u = t then (g.node? u).map f else g.node? u :=
  OrderedMap.get?_modify g.nodes t u f

/-- Rewriting a node neither makes nor removes one. -/
theorem contains_update (g : Graph) (t u : Tag) (f : Node → Node) :
    (g.update t f).contains u = g.contains u := by
  rw [contains_eq_isSome, contains_eq_isSome, node?_update]
  split
  · exact Option.isSome_map
  · rfl

/-- Marking leaves the nodes. -/
@[simp] theorem node?_touch (g : Graph) (t u : Tag) : (g.touch t).node? u = g.node? u := rfl

/-- Marking adds the one name. -/
@[simp] theorem mem_marked_touch {g : Graph} {t u : Tag} :
    u ∈ (g.touch t).marked ↔ u ∈ g.marked ∨ u = t :=
  OrderedSet.mem_insert

/-! ### Looking up with a complaint -/

/-- A node is found without complaint when it is there. -/
theorem find_eq_ok {g : Graph} {t : Tag} {n : Node} : g.find t = .ok n ↔ g.node? t = some n := by
  unfold find
  cases g.node? t <;> simp

/-- A node counts as a holder when it is there and holds a number. -/
theorem holder_eq_ok {g : Graph} {t : Tag} {n : Node} :
    g.holder t = .ok n ↔ g.node? t = some n ∧ n.holdsValue = true := by
  simp only [holder, except_bind_eq_ok, find_eq_ok]
  constructor
  · rintro ⟨m, hm, h⟩
    split at h
    · next hv =>
      cases h
      exact ⟨hm, hv⟩
    · cases h
  · rintro ⟨hn, hv⟩
    exact ⟨n, hn, by rw [if_pos hv]⟩

/-- The settings of a props node are found when it is there and is one. -/
theorem props_eq_ok {g : Graph} {t : Tag} {n : Node} {p : Props} :
    g.props t = .ok (n, p) ↔ g.node? t = some n ∧ n.kind = .props p := by
  simp only [props, except_bind_eq_ok, find_eq_ok]
  constructor
  · rintro ⟨m, hm, h⟩
    split at h
    · next q hq =>
      cases h
      exact ⟨hm, hq⟩
    · cases h
  · rintro ⟨hn, hp⟩
    exact ⟨n, hn, by rw [hp]⟩

/-! ### What a granted request has done -/

/-- A node is made under a free name, as described. -/
theorem make_eq_ok {g g' : Graph} {t : Tag} {config : NodeConfig} :
    g.make t config = .ok g' ↔
      g.contains t = false ∧
        ∃ n, config.build t = .ok n ∧ g' = { g with nodes := g.nodes.insert t n } := by
  unfold make
  cases hc : g.contains t <;> cases hb : config.build t <;> simp [eq_comm]

/-- A node read from data is made from what the data says. -/
theorem create_eq_ok {g g' : Graph} {t : Tag} {config : Json} :
    g.create t config = .ok g' ↔
      ∃ c, NodeConfig.ofJson? config = some c ∧ g.make t c = .ok g' := by
  unfold create
  cases hc : g.contains t <;> cases ho : NodeConfig.ofJson? config <;> simp [make_eq_ok, hc]

/-- An edge is made between two nodes of which the lower is no sink: either it was there already
and nothing happens, or it closes no chain, and the reader takes the input and is marked. -/
theorem connect_eq_ok {g g' : Graph} {parent child : Tag} (h : g.connect parent child = .ok g') :
    ∃ p c, g.node? parent = some p ∧ g.node? child = some c ∧ c.isSink = false ∧
      ((g.edges.Reads parent child ∧ g' = g) ∨
        (parent ≠ child ∧ g.edges.isAncestor child parent = false ∧
          g' = ((({ g with edges := g.edges.link parent child } : Graph).update parent
            fun n => n.attach child).touch parent))) := by
  simp only [connect, except_bind_eq_ok, find_eq_ok] at h
  obtain ⟨p, hp, c, hc, h⟩ := h
  refine ⟨p, c, hp, hc, ?_⟩
  split at h
  · cases h
  · next hs =>
    refine ⟨by simpa using hs, ?_⟩
    split at h
    · next hr =>
      cases h
      exact Or.inl ⟨Edges.contains_iff.1 hr, rfl⟩
    · split at h
      · cases h
      · next hcyc =>
        cases h
        simp only [Bool.or_eq_true, decide_eq_true_eq, not_or, Bool.not_eq_true] at hcyc
        exact Or.inr ⟨hcyc.1, hcyc.2, rfl⟩

/-- An edge that is there is removed, and the reader forgets the input and is marked. -/
theorem disconnect_eq_ok {g g' : Graph} {parent child : Tag}
    (h : g.disconnect parent child = .ok g') :
    ∃ p c, g.node? parent = some p ∧ g.node? child = some c ∧ g.edges.Reads parent child ∧
      g' = ((({ g with edges := g.edges.unlink parent child } : Graph).update parent
        fun n => n.forget child).touch parent) := by
  simp only [disconnect, except_bind_eq_ok, find_eq_ok] at h
  obtain ⟨p, hp, c, hc, h⟩ := h
  split at h
  · next hr =>
    cases h
    exact ⟨p, c, hp, hc, Edges.contains_iff.1 hr, rfl⟩
  · cases h

/-- A node to which no holder refers is removed with its edges, the others forget it, and those
that read it are marked. -/
theorem drop_eq_ok {g : Graph} {t : Tag} {holders : List Holder} {r : Graph × Node}
    (h : g.drop t holders = .ok r) :
    ∃ n, g.node? t = some n ∧ (∀ k ∈ holders, k.holds t = false) ∧ r.2 = n.forget t ∧
      r.1 =
        { nodes := (g.nodes.map fun _ m => m.forget t).erase t
          edges := (g.edges.detach t).1
          marked := (g.marked.insertAll
            (((g.edges.detach t).2.filter fun e => e.child = t).map Edge.parent)).erase t } := by
  simp only [drop, except_bind_eq_ok, find_eq_ok] at h
  obtain ⟨n, hn, h⟩ := h
  split at h
  · cases h
  · next hf =>
    cases h
    refine ⟨n, hn, fun k hk => ?_, rfl, rfl⟩
    simpa using List.find?_eq_none.1 hf k hk

section Drop

variable {g : Graph} {t : Tag} {holders : List Holder} {r : Graph × Node}

/-- When a node is removed, the others forget it. -/
theorem node?_drop (h : g.drop t holders = .ok r) (u : Tag) :
    r.1.node? u = if u = t then none else (g.node? u).map fun m => m.forget t := by
  obtain ⟨n, -, -, -, hr⟩ := drop_eq_ok h
  rw [hr, node?, OrderedMap.get?_erase, OrderedMap.get?_map]
  rfl

/-- What is there when a node is removed is another one. -/
theorem ne_of_contains_drop (h : g.drop t holders = .ok r) {u : Tag} (hu : r.1.contains u = true) :
    u ≠ t := by
  rintro rfl
  rw [contains_eq_isSome, node?_drop h, if_pos rfl] at hu
  cases hu

/-- When a node is removed, the edges that do not join it are left. -/
theorem reads_drop (hm : g.edges.Mirrored) (h : g.drop t holders = .ok r) (a b : Tag) :
    r.1.edges.Reads a b ↔ g.edges.Reads a b ∧ a ≠ t ∧ b ≠ t := by
  obtain ⟨n, -, -, -, hr⟩ := drop_eq_ok h
  rw [hr]
  exact Edges.reads_detach hm

/-- When a node is removed, its readers are marked, and it is not. -/
theorem mem_marked_drop (hm : g.edges.Mirrored) (h : g.drop t holders = .ok r) (u : Tag) :
    u ∈ r.1.marked ↔ (u ∈ g.marked ∨ g.edges.Reads u t) ∧ u ≠ t := by
  obtain ⟨n, -, -, -, hr⟩ := drop_eq_ok h
  rw [hr, OrderedSet.mem_erase, OrderedSet.mem_insertAll]
  refine and_congr_left fun _ => or_congr_right ?_
  simp only [List.mem_map, List.mem_filter, Edges.mem_detach hm, decide_eq_true_eq]
  constructor
  · rintro ⟨e, ⟨⟨he, -⟩, rfl⟩, rfl⟩
    exact he
  · intro hu
    exact ⟨⟨u, t⟩, ⟨⟨hu, Or.inr rfl⟩, rfl⟩, rfl⟩

end Drop

/-- A node that is there is marked. -/
theorem mark_eq_ok {g g' : Graph} {t : Tag} :
    g.mark t = .ok g' ↔ ∃ n, g.node? t = some n ∧ g' = g.touch t := by
  simp only [mark, except_map_eq_ok, find_eq_ok, @eq_comm _ (g.touch t)]

/-- A base value is set in a node that holds a number, which is marked if that changes it. -/
theorem setBase_eq_ok {g : Graph} {t : Tag} {x : Float} {r : Graph × Bool}
    (h : g.setBase t x = .ok r) :
    ∃ n, g.node? t = some n ∧ n.holdsValue = true ∧ r.2 = n.baseChanges x ∧
      r.1 = if n.baseChanges x then (g.update t fun n => n.setBase x).touch t
        else g.update t fun n => n.setBase x := by
  simp only [setBase, except_bind_eq_ok, holder_eq_ok] at h
  obtain ⟨n, ⟨hn, hv⟩, h⟩ := h
  cases h
  refine ⟨n, hn, hv, ?_⟩
  cases n.baseChanges x <;> exact ⟨rfl, rfl⟩

/-- An offset is set in a node that holds a number, which is marked if that changes it. -/
theorem setOffset_eq_ok {g : Graph} {t : Tag} {x : Float} {r : Graph × Bool}
    (h : g.setOffset t x = .ok r) :
    ∃ n, g.node? t = some n ∧ n.holdsValue = true ∧ r.2 = n.offsetChanges x ∧
      r.1 = if n.offsetChanges x then (g.update t fun n => n.setOffset x).touch t
        else g.update t fun n => n.setOffset x := by
  simp only [setOffset, except_bind_eq_ok, holder_eq_ok] at h
  obtain ⟨n, ⟨hn, hv⟩, h⟩ := h
  cases h
  refine ⟨n, hn, hv, ?_⟩
  cases n.offsetChanges x <;> exact ⟨rfl, rfl⟩

/-- The offset of a node that holds a number is merged into its base value. -/
theorem flattenOffset_eq_ok {g g' : Graph} {t : Tag} :
    g.flattenOffset t = .ok g' ↔ ∃ n, (g.node? t = some n ∧ n.holdsValue = true) ∧
      g' = (g.update t Node.flattenOffset).touch t := by
  simp only [flattenOffset, except_map_eq_ok, holder_eq_ok, @eq_comm _ (touch _ t)]

/-- The base value of a node that holds a number is moved into its offset. -/
theorem extractOffset_eq_ok {g g' : Graph} {t : Tag} :
    g.extractOffset t = .ok g' ↔ ∃ n, (g.node? t = some n ∧ n.holdsValue = true) ∧
      g' = (g.update t Node.extractOffset).touch t := by
  simp only [extractOffset, except_map_eq_ok, holder_eq_ok, @eq_comm _ (touch _ t)]

/-- A props node is attached to a view: either it was already and nothing happens, or it was
attached to none and is marked. -/
theorem attachView_eq_ok {g g' : Graph} {t : Tag} {view : ViewId}
    (h : g.attachView t view = .ok g') :
    ∃ n p, g.node? t = some n ∧ n.kind = .props p ∧
      ((p.view = some view ∧ g' = g) ∨
        (p.view = none ∧
          g' = (g.setProps t { p with view := some view, lastSent := none }).touch t)) := by
  simp only [attachView, except_bind_eq_ok, Prod.exists, props_eq_ok] at h
  obtain ⟨n, p, ⟨hn, hp⟩, h⟩ := h
  refine ⟨n, p, hn, hp, ?_⟩
  split at h
  · next current hv =>
    split at h
    · next he =>
      cases h
      exact Or.inl ⟨he ▸ hv, rfl⟩
    · cases h
  · next hv =>
    cases h
    exact Or.inr ⟨hv, rfl⟩

/-- A props node is detached from its view. -/
theorem detachView_eq_ok {g g' : Graph} {t : Tag} {view : ViewId}
    (h : g.detachView t view = .ok g') :
    ∃ n p, g.node? t = some n ∧ n.kind = .props p ∧ p.view = some view ∧
      g' = g.setProps t { p with view := none, lastSent := none } := by
  simp only [detachView, except_bind_eq_ok, Prod.exists, props_eq_ok] at h
  obtain ⟨n, p, ⟨hn, hp⟩, h⟩ := h
  split at h
  · next hv =>
    cases h
    exact ⟨n, p, hn, hp, hv, rfl⟩
  · cases h

/-- What was sent for a props node is forgotten, and taken back at its view if it has one. -/
theorem restoreDefaults_eq_ok {g : Graph} {t : Tag} {r : Graph × Option ViewUpdate}
    (h : g.restoreDefaults t = .ok r) :
    ∃ n p, g.node? t = some n ∧ n.kind = .props p ∧
      r.1 = g.setProps t { p with lastSent := none } ∧
      r.2 = p.view.map fun view => ⟨view, g.resetMap p⟩ := by
  simp only [restoreDefaults, except_bind_eq_ok, Prod.exists, props_eq_ok] at h
  obtain ⟨n, p, ⟨hn, hp⟩, h⟩ := h
  cases h
  exact ⟨n, p, hn, hp, rfl, rfl⟩

/-- Taking the update of a node either does nothing, and then the view of an attached
props node has received the same before, or hands out what an attached props node is worth
now, and remembers it. -/
theorem takeUpdate_cases (g : Graph) (t : Tag) :
    (g.takeUpdate t = (g, none) ∧
      ∀ n p, g.node? t = some n → n.kind = .props p → p.view.isSome = true →
        ∃ last, p.lastSent = some last ∧ last.agrees (g.propsOf p) = true) ∨
      ∃ n p view, g.node? t = some n ∧ n.kind = .props p ∧ p.view = some view ∧
        (∀ last, p.lastSent = some last → last.agrees (g.propsOf p) = false) ∧
        g.takeUpdate t =
          (g.setProps t { p with lastSent := some (g.propsOf p) }, some ⟨view, g.propsOf p⟩) := by
  unfold takeUpdate
  split
  · next cause hc =>
    refine Or.inl ⟨rfl, fun n p hn hk _ => ?_⟩
    rw [props_eq_ok.2 ⟨hn, hk⟩] at hc
    cases hc
  · next n p hp =>
    obtain ⟨hn, hk⟩ := props_eq_ok.1 hp
    have same : ∀ m q, g.node? t = some m → m.kind = .props q → q = p := by
      intro m q hm hq
      obtain rfl : n = m := Option.some.inj (hn.symm.trans hm)
      rw [hk] at hq
      cases hq
      rfl
    split
    · next hv =>
      refine Or.inl ⟨rfl, fun m q hm hq hview => ?_⟩
      rw [same m q hm hq, hv] at hview
      cases hview
    · next view hv =>
      by_cases ha : (p.lastSent.map fun last => last.agrees (g.propsOf p)).getD false = true
      · refine Or.inl ⟨if_pos ha, fun m q hm hq _ => ?_⟩
        rw [same m q hm hq]
        cases hl : p.lastSent with
        | none => simp [hl] at ha
        | some last => exact ⟨last, rfl, by simpa [hl] using ha⟩
      · refine Or.inr ⟨n, p, view, hn, hk, hv, fun last hl => ?_, if_neg ha⟩
        simpa [hl] using ha

/-- Handing out updates marks nothing. -/
theorem marked_takeUpdate (g : Graph) (t : Tag) : (g.takeUpdate t).1.marked = g.marked := by
  rcases takeUpdate_cases g t with ⟨he, -⟩ | ⟨n, p, view, -, -, -, -, he⟩ <;> rw [he]
  rfl

/-- What setting a base value keeps, carrying out writes keeps. -/
theorem applyWrites_induction {P : Graph → Prop} {writes : Writes}
    (step : ∀ g t x r, (t, x) ∈ writes → P g → g.setBase t x = .ok r → P r.1) {g : Graph}
    (h : P g) : P (g.applyWrites writes).1 := by
  induction writes generalizing g with
  | nil => exact h
  | cons w writes ih =>
    have rest := fun g h => @ih (fun g t x r hw => step g t x r (List.mem_cons_of_mem _ hw)) g h
    unfold applyWrites
    split
    · next hs => exact rest _ (step g _ _ _ List.mem_cons_self h hs)
    · exact rest _ h

/-! ### All requests -/

/-- What can be asked of a graph. -/
inductive Request where
  /-- Makes a node from data. -/
  | create (t : Tag) (config : Json)
  /-- Makes a node as described. -/
  | make (t : Tag) (config : NodeConfig)
  /-- Makes `child` an input of `parent`. -/
  | connect (parent child : Tag)
  /-- Removes an edge. -/
  | disconnect (parent child : Tag)
  /-- Removes a node. -/
  | drop (t : Tag) (holders : List Holder)
  /-- Sets a base value. -/
  | setBase (t : Tag) (x : Float)
  /-- Sets an offset. -/
  | setOffset (t : Tag) (x : Float)
  /-- Merges an offset into the base value. -/
  | flattenOffset (t : Tag)
  /-- Moves a base value into the offset. -/
  | extractOffset (t : Tag)
  /-- Attaches a props node to a view. -/
  | attachView (t : Tag) (view : ViewId)
  /-- Detaches a props node from its view. -/
  | detachView (t : Tag) (view : ViewId)
  /-- Marks a node. -/
  | mark (t : Tag)
  /-- Carries out writes that expressions asked for. -/
  | applyWrites (writes : Writes)
  /-- Computes the marked nodes and all that depends on them. -/
  | propagate
  /-- Takes the update of a props node. -/
  | takeUpdate (t : Tag)
  /-- Takes back what was sent for a props node. -/
  | restoreDefaults (t : Tag)

/-- The node that a request removes, if it removes one. -/
def Request.dropped? : Request → Option Tag
  | .drop t _ => some t
  | _ => none

/-- Carries out a request. -/
def perform (g : Graph) : Request → Except GraphError Graph
  | .create t config => g.create t config
  | .make t config => g.make t config
  | .connect parent child => g.connect parent child
  | .disconnect parent child => g.disconnect parent child
  | .drop t holders => (g.drop t holders).map Prod.fst
  | .setBase t x => (g.setBase t x).map Prod.fst
  | .setOffset t x => (g.setOffset t x).map Prod.fst
  | .flattenOffset t => g.flattenOffset t
  | .extractOffset t => g.extractOffset t
  | .attachView t view => g.attachView t view
  | .detachView t view => g.detachView t view
  | .mark t => g.mark t
  | .applyWrites writes => .ok (g.applyWrites writes).1
  | .propagate => .ok g.propagate.1
  | .takeUpdate t => .ok (g.takeUpdate t).1
  | .restoreDefaults t => (g.restoreDefaults t).map Prod.fst

/-- The graph after a request; a refused one leaves it as it was. -/
def after (g : Graph) (r : Request) : Graph :=
  match g.perform r with
  | .ok g' => g'
  | .error _ => g

/-- The graph after several requests. -/
def afterAll (g : Graph) (rs : List Request) : Graph := rs.foldl after g

end Graph

end MotionGraph
