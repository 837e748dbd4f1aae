import MotionGraph.Proofs.Graph.Sound
import MotionGraph.Proofs.Node.Inputs

/-!
# Every change is announced by a mark

`Graph.Announced g g'` says that whatever differs between two graphs is announced: a node that has
changed its value or what it refers to, and a node that has gained or lost an edge, is marked in the
second graph or is gone from it, and marks are lost only with their nodes. Every request but a
propagation does this (`Announced.perform`), provided that a node is dropped only when all that
refer to it read it by an edge, since only its readers are marked (`Graph.Permits`). Without this
proviso nodes may be rewritten unannounced, but edges, marks and values still change only where a
mark tells (`Graph.Noticed`, `Noticed.perform`).

A node is stale while something marked is below it (`Graph.Stale`). A change that is noticed leaves
a stale node stale (`Noticed.stale`). After one that is announced, what a node reads is as it was if
neither of the two is marked (`Announced.child`).
-/

namespace MotionGraph

/-- A kind without what concerns its view. -/
def Kind.outline : Kind → Kind
  | .props p => .props { sources := p.sources }
  | k => k

namespace Kind

/-- What concerns a view does not make a call. -/
@[simp] theorem isCall_outline (k : Kind) : k.outline.isCall = k.isCall := by
  cases k <;> rfl

/-- Taking an input does not make a call. -/
@[simp] theorem isCall_attach (child : Tag) (k : Kind) : (k.attach child).isCall = k.isCall := by
  fun_cases Kind.attach child k <;> rfl

/-- Forgetting a node does not make a call. -/
@[simp] theorem isCall_forget (child : Tag) (k : Kind) : (k.forget child).isCall = k.isCall := by
  fun_cases Kind.forget child k <;> simp_all [isCall]

end Kind

/-- A node without what concerns its view. -/
def Node.outline (n : Node) : Node := { n with kind := n.kind.outline }

/-- Nodes of the same outline have the same base value. -/
theorem Node.base_of_outline {n n' : Node} (h : n'.outline = n.outline) : n'.base = n.base := by
  have hb : n'.outline.base = n.outline.base := by rw [h]
  exact hb

/-- Nodes of the same outline have the same offset. -/
theorem Node.offset_of_outline {n n' : Node} (h : n'.outline = n.outline) :
    n'.offset = n.offset := by
  have hf : n'.outline.offset = n.outline.offset := by rw [h]
  exact hf

/-- Nodes of the same outline have kinds of the same outline. -/
theorem Node.kind_of_outline {n n' : Node} (h : n'.outline = n.outline) :
    n'.kind.outline = n.kind.outline := by
  have hk : n'.outline.kind = n.outline.kind := by rw [h]
  exact hk

/-- A node as it can be when it is made. -/
structure Node.Fresh (n : Node) : Prop where
  /-- It starts from zero, unless it only holds a value. -/
  start : n.kind = .value ∨ n.base = 0.0 ∧ n.offset = 0.0
  /-- It is no call. -/
  not_call : n.kind.isCall = false
  /-- It is attached to no view. -/
  detached : ∀ p, n.kind = .props p → p.view = none ∧ p.lastSent = none

namespace Graph

/-! ### Requests that announce what they do -/

/-- What may be asked so that every change is announced: no calls are made, and a node is dropped
only when all that refer to it read it by an edge. -/
def Permits (g : Graph) : Request → Prop
  | .create _ config => ∀ c ∈ NodeConfig.ofJson? config, c.isCall = false
  | .make _ config => config.isCall = false
  | .drop t _ => ∀ e ∈ g.nodes.toList, t ∈ e.2.kind.references → g.edges.Reads e.1 t
  | _ => True

instance (g : Graph) (r : Request) : Decidable (g.Permits r) := by
  cases r <;> unfold Permits <;> infer_instance

/-- Whether a request computes nodes or carries out several writes. -/
def Request.isCompound : Request → Bool
  | .propagate => true
  | .applyWrites _ => true
  | _ => false

/-- Something marked is below a node, or the node is marked itself. -/
def Stale (g : Graph) (t : Tag) : Prop := ∃ m ∈ g.marked, g.edges.DependsOn t m

/-- Whatever differs between two graphs is announced by marks in the second. -/
structure Announced (g g' : Graph) : Prop where
  /-- A node that has lost an edge is marked or gone. -/
  edge : ∀ p c, g.edges.Reads p c →
    g'.edges.Reads p c ∨ p ∈ g'.marked ∨ g'.contains p = false
  /-- A node that has gained an edge is marked. -/
  new_edge : ∀ p c, g'.edges.Reads p c → g.edges.Reads p c ∨ p ∈ g'.marked
  /-- A node that has lost its mark is gone. -/
  mark : ∀ t ∈ g.marked, t ∈ g'.marked ∨ g'.contains t = false
  /-- A node was there before and is marked if it has changed, or it is new. -/
  node : ∀ t n', g'.node? t = some n' →
    (∃ n, g.node? t = some n ∧ n'.kind.isCall = n.kind.isCall ∧
      (t ∈ g'.marked ∨ n'.outline = n.outline)) ∨
    (g.contains t = false ∧ n'.Fresh)

/-- What readers see of nodes changes only where it is announced by marks in the second graph. -/
structure Noticed (g g' : Graph) : Prop where
  /-- A node that has lost an edge is marked or gone. -/
  edge : ∀ p c, g.edges.Reads p c →
    g'.edges.Reads p c ∨ p ∈ g'.marked ∨ g'.contains p = false
  /-- A node that has lost its mark is gone. -/
  mark : ∀ t ∈ g.marked, t ∈ g'.marked ∨ g'.contains t = false
  /-- A node that has another value is marked, if it is there before and after. -/
  value : ∀ t, g.contains t = true → g'.contains t = true →
    t ∈ g'.marked ∨ g'.value? t = g.value? t

/-- A node of the same outline has the same value. -/
theorem value?_of_outline {g g' : Graph} {t : Tag} {n n' : Node} (hn : g.node? t = some n)
    (hn' : g'.node? t = some n') (ho : n'.outline = n.outline) : g'.value? t = g.value? t := by
  rw [value?, value?, hn, hn', Option.map_some, Option.map_some, Node.value, Node.value,
    Node.base_of_outline ho, Node.offset_of_outline ho]

/-- What is announced is noticed. -/
theorem Announced.noticed {g g' : Graph} (ha : Announced g g') : Noticed g g' := by
  refine ⟨ha.edge, ha.mark, fun t ht ht' => ?_⟩
  obtain ⟨n', hn'⟩ := exists_node?_of_contains ht'
  rcases ha.node t n' hn' with ⟨n, hn, -, hm | ho⟩ | ⟨hfree, -⟩
  · exact Or.inl hm
  · exact Or.inr (value?_of_outline hn hn' ho)
  · rw [ht] at hfree
    cases hfree

/-- That a node is removed is noticed, also by those that refer to it without an edge:
they keep their values. -/
theorem Noticed.drop {g : Graph} (hs : g.Sound) {t : Tag} {holders : List Holder} {r : Graph × Node}
    (h : g.drop t holders = .ok r) : Noticed g r.1 := by
  have hnode := node?_drop h
  have hgone : r.1.contains t = false := by
    rw [contains_eq_isSome, hnode, if_pos rfl]
    rfl
  refine ⟨fun p c hpc => ?_, fun u hu => ?_, fun u _ hu => Or.inr ?_⟩
  · by_cases hp : p = t
    · exact Or.inr (Or.inr (hp ▸ hgone))
    · by_cases hc : c = t
      · exact Or.inr (Or.inl ((mem_marked_drop hs.mirrored h p).2 ⟨Or.inr (hc ▸ hpc), hp⟩))
      · exact Or.inl ((reads_drop hs.mirrored h p c).2 ⟨hpc, hp, hc⟩)
  · by_cases hut : u = t
    · exact Or.inr (hut ▸ hgone)
    · exact Or.inl ((mem_marked_drop hs.mirrored h u).2 ⟨Or.inl hu, hut⟩)
  · have hut : u ≠ t := by
      rintro rfl
      rw [hu] at hgone
      cases hgone
    rw [value?, value?, hnode, if_neg hut, Option.map_map]
    rfl

namespace Announced

variable {g g' : Graph}

/-- Nothing has changed. -/
theorem refl (g : Graph) : Announced g g where
  edge _ _ h := Or.inl h
  new_edge _ _ h := Or.inl h
  mark _ h := Or.inl h
  node _ n' h := Or.inl ⟨n', h, rfl, Or.inr rfl⟩

/-- Rewriting one node and its edges to what it reads is announced by marking it. -/
theorem rewrite (g : Graph) (t : Tag) {edges : Edges} {f : Node → Node}
    (he : ∀ a b, a ≠ t → (edges.Reads a b ↔ g.edges.Reads a b))
    (hf : ∀ n, g.node? t = some n → (f n).kind.isCall = n.kind.isCall) :
    Announced g ((({ g with edges } : Graph).update t f).touch t) where
  edge p c h := by
    by_cases hp : p = t
    · exact Or.inr (Or.inl (mem_marked_touch.2 (Or.inr hp)))
    · exact Or.inl ((he p c hp).2 h)
  new_edge p c h := by
    by_cases hp : p = t
    · exact Or.inr (mem_marked_touch.2 (Or.inr hp))
    · exact Or.inl ((he p c hp).1 h)
  mark u h := Or.inl (mem_marked_touch.2 (Or.inl h))
  node u n' h := by
    rw [node?_touch, node?_update] at h
    by_cases hu : u = t
    · subst hu
      rw [if_pos rfl] at h
      obtain ⟨n, hn, rfl⟩ := Option.map_eq_some_iff.1 h
      exact Or.inl ⟨n, hn, hf n hn, Or.inl (mem_marked_touch.2 (Or.inr rfl))⟩
    · rw [if_neg hu] at h
      exact Or.inl ⟨n', h, rfl, Or.inr rfl⟩

/-- Rewriting one node is announced by marking it. -/
theorem update_touch (g : Graph) (t : Tag) {f : Node → Node}
    (hf : ∀ n, g.node? t = some n → (f n).kind.isCall = n.kind.isCall) :
    Announced g ((g.update t f).touch t) :=
  rewrite g t (fun _ _ _ => Iff.rfl) hf

/-- A rewriting that concerns a view alone needs no mark. -/
theorem update (g : Graph) (t : Tag) {f : Node → Node}
    (hf : ∀ n, g.node? t = some n → (f n).outline = n.outline) : Announced g (g.update t f) where
  edge _ _ h := Or.inl h
  new_edge _ _ h := Or.inl h
  mark _ h := Or.inl h
  node u n' h := by
    rw [node?_update] at h
    by_cases hu : u = t
    · subst hu
      rw [if_pos rfl] at h
      obtain ⟨n, hn, rfl⟩ := Option.map_eq_some_iff.1 h
      have hk : (f n).kind.outline = n.kind.outline := Node.kind_of_outline (hf n hn)
      refine Or.inl ⟨n, hn, ?_, Or.inr (hf n hn)⟩
      rw [← Kind.isCall_outline, hk, Kind.isCall_outline]
    · rw [if_neg hu] at h
      exact Or.inl ⟨n', h, rfl, Or.inr rfl⟩

/-- Marking announces nothing that has not happened. -/
theorem touch (g : Graph) (t : Tag) : Announced g (g.touch t) where
  edge _ _ h := Or.inl h
  new_edge _ _ h := Or.inl h
  mark _ h := Or.inl (mem_marked_touch.2 (Or.inl h))
  node _ n' h := Or.inl ⟨n', h, rfl, Or.inr rfl⟩

/-- Replacing what is kept about a view needs no mark. -/
theorem setProps {t : Tag} {n : Node} {p q : Props} (hn : g.node? t = some n)
    (hp : n.kind = .props p) (hq : q.sources = p.sources) : Announced g (g.setProps t q) := by
  refine update g t fun m hm => ?_
  obtain rfl : n = m := Option.some.inj (hn.symm.trans hm)
  simp [Node.outline, hp, Kind.outline, hq]

/-! ### Nodes that come and go -/

/-- A new node is not marked; nothing has read it. -/
theorem make {t : Tag} {config : NodeConfig} (hc : config.isCall = false)
    (h : g.make t config = .ok g') : Announced g g' := by
  obtain ⟨ht, n, hb, rfl⟩ := make_eq_ok.1 h
  obtain ⟨hstart, hcall, hdetached⟩ := NodeConfig.build_eq_ok hb
  refine ⟨fun _ _ h => Or.inl h, fun _ _ h => Or.inl h, fun _ h => Or.inl h, fun u n' hu => ?_⟩
  rw [node?, OrderedMap.get?_insert] at hu
  by_cases hut : u = t
  · subst hut
    rw [if_pos rfl] at hu
    cases hu
    exact Or.inr ⟨ht, hstart, hcall.trans hc, hdetached⟩
  · rw [if_neg hut] at hu
    exact Or.inl ⟨n', hu, rfl, Or.inr rfl⟩

/-- A dropped node is announced by marking its readers, if all that refer to it are among them. -/
theorem drop (hs : g.Sound) {t : Tag} {holders : List Holder} {r : Graph × Node}
    (hrefs : ∀ u n, g.node? u = some n → t ∈ n.kind.references → g.edges.Reads u t)
    (h : g.drop t holders = .ok r) : Announced g r.1 := by
  have noticed := Noticed.drop hs h
  refine ⟨noticed.edge, fun p c hpc => Or.inl ((reads_drop hs.mirrored h p c).1 hpc).1,
    noticed.mark, fun u n' hu => ?_⟩
  rw [node?_drop h] at hu
  split at hu
  · cases hu
  · next hut =>
    obtain ⟨n, hn, rfl⟩ := Option.map_eq_some_iff.1 hu
    refine Or.inl ⟨n, hn, Kind.isCall_forget t n.kind, ?_⟩
    by_cases href : t ∈ n.kind.references
    · exact Or.inl ((mem_marked_drop hs.mirrored h u).2 ⟨Or.inr (hrefs u n hn href), hut⟩)
    · refine Or.inr (congrArg Node.outline ?_)
      simp only [Node.forget, Kind.forget_of_notMem href]

/-! ### All requests -/

/-- Setting a base value is announced. -/
theorem setBase {t : Tag} {x : Float} {r : Graph × Bool} (h : g.setBase t x = .ok r) :
    Announced g r.1 := by
  obtain ⟨n, hn, -, -, hr⟩ := setBase_eq_ok h
  rw [hr]
  split
  · exact update_touch g t fun _ _ => rfl
  · next hc =>
    refine update g t fun m hm => ?_
    obtain rfl : n = m := Option.some.inj (hn.symm.trans hm)
    rw [Node.setBase_of_not_baseChanges (by simpa using hc)]

/-- Setting an offset is announced. -/
theorem setOffset {t : Tag} {x : Float} {r : Graph × Bool} (h : g.setOffset t x = .ok r) :
    Announced g r.1 := by
  obtain ⟨n, hn, -, -, hr⟩ := setOffset_eq_ok h
  rw [hr]
  split
  · exact update_touch g t fun _ _ => rfl
  · next hc =>
    refine update g t fun m hm => ?_
    obtain rfl : n = m := Option.some.inj (hn.symm.trans hm)
    rw [Node.setOffset_of_not_offsetChanges (by simpa using hc)]

/-- Every request but the compound ones announces what it does. -/
theorem perform (hs : g.Sound) {r : Request} (hp : g.Permits r) (hr : r.isCompound = false)
    (h : g.perform r = .ok g') : Announced g g' := by
  cases r with
  | create t config =>
    obtain ⟨c, hc, hg⟩ := create_eq_ok.1 h
    exact make (hp c hc) hg
  | make t config => exact make hp h
  | connect parent child =>
    obtain ⟨p, c, -, -, -, ⟨-, rfl⟩ | ⟨-, -, rfl⟩⟩ := connect_eq_ok h
    · exact refl _
    · refine rewrite g parent (fun a b ha => ?_) fun n _ => Kind.isCall_attach child n.kind
      rw [Edges.reads_link]
      simp [ha]
  | disconnect parent child =>
    obtain ⟨p, c, -, -, -, rfl⟩ := disconnect_eq_ok h
    refine rewrite g parent (fun a b ha => ?_) fun n _ => Kind.isCall_forget child n.kind
    rw [Edges.reads_unlink]
    simp [ha]
  | drop t holders =>
    obtain ⟨r, hr, rfl⟩ := except_map_eq_ok.1 h
    exact drop hs (fun u n hn => hp (u, n) (OrderedMap.get?_eq_some_iff.1 hn)) hr
  | setBase t x =>
    obtain ⟨r, hr, rfl⟩ := except_map_eq_ok.1 h
    exact setBase hr
  | setOffset t x =>
    obtain ⟨r, hr, rfl⟩ := except_map_eq_ok.1 h
    exact setOffset hr
  | flattenOffset t =>
    obtain ⟨n, -, rfl⟩ := flattenOffset_eq_ok.1 h
    exact update_touch g t fun _ _ => rfl
  | extractOffset t =>
    obtain ⟨n, -, rfl⟩ := extractOffset_eq_ok.1 h
    exact update_touch g t fun _ _ => rfl
  | attachView t view =>
    obtain ⟨n, p, hn, hk, ⟨-, rfl⟩ | ⟨-, rfl⟩⟩ := attachView_eq_ok h
    · exact refl _
    · refine update_touch g t fun m hm => ?_
      obtain rfl : n = m := Option.some.inj (hn.symm.trans hm)
      simp [hk, Kind.isCall]
  | detachView t view =>
    obtain ⟨n, p, hn, hk, -, rfl⟩ := detachView_eq_ok h
    exact setProps hn hk rfl
  | mark t =>
    obtain ⟨n, -, rfl⟩ := mark_eq_ok.1 h
    exact touch g t
  | applyWrites writes => cases hr
  | propagate => cases hr
  | takeUpdate t =>
    cases h
    rcases takeUpdate_cases g t with ⟨he, -⟩ | ⟨n, p, view, hn, hk, -, -, he⟩
    · rw [he]
      exact refl g
    · rw [he]
      exact setProps hn hk rfl
  | restoreDefaults t =>
    obtain ⟨r, hr, rfl⟩ := except_map_eq_ok.1 h
    obtain ⟨n, p, hn, hk, hr, -⟩ := restoreDefaults_eq_ok hr
    rw [hr]
    exact setProps hn hk rfl

end Announced

/-- Every request but the compound ones is noticed. -/
theorem Noticed.perform {g g' : Graph} (hs : g.Sound) {r : Request} (hr : r.isCompound = false)
    (h : g.perform r = .ok g') : Noticed g g' := by
  have made : ∀ {t config}, g.make t config = .ok g' → Noticed g g' := by
    intro t config h
    obtain ⟨ht, n, -, rfl⟩ := make_eq_ok.1 h
    refine ⟨fun _ _ h => Or.inl h, fun _ h => Or.inl h, fun u hu _ => Or.inr ?_⟩
    have hut : u ≠ t := by
      rintro rfl
      rw [hu] at ht
      cases ht
    rw [value?, node?, OrderedMap.get?_insert, if_neg hut]
    rfl
  have permitted : g.Permits r → Noticed g g' := fun hp => (Announced.perform hs hp hr h).noticed
  cases r with
  | create t config =>
    obtain ⟨c, -, hg⟩ := create_eq_ok.1 h
    exact made hg
  | make t config => exact made h
  | drop t holders =>
    obtain ⟨r, hr, rfl⟩ := except_map_eq_ok.1 h
    exact drop hs hr
  | applyWrites writes => cases hr
  | propagate => cases hr
  | _ => exact permitted trivial

/-! ### What is below a node that is not stale -/

/-- What is above something stale is stale. -/
theorem Stale.above {g : Graph} {t c : Tag} (h : g.Stale c) (hd : g.edges.DependsOn t c) :
    g.Stale t := by
  obtain ⟨m, hm, hc⟩ := h
  exact ⟨m, hm, hd.trans hc⟩

/-- A stale node stays stale as long as it is there: if the chain down to the mark is cut, the node
above the cut is marked. -/
theorem Noticed.stale {g g' : Graph} (hn : Noticed g g') (hs' : g'.Sound) {t : Tag} (h : g.Stale t)
    (ht : g'.contains t = true) : g'.Stale t := by
  obtain ⟨m, hm, hd⟩ := h
  induction hd using Relation.ReflTransGen.head_induction_on with
  | refl =>
    rcases hn.mark m hm with hm | hm
    · exact ⟨m, hm, .refl⟩
    · rw [ht] at hm
      cases hm
  | @head t c hr _ ih =>
    rcases hn.edge t c hr with hr | hr | hr
    · exact (ih (hs'.child_live t c hr)).above (.single hr)
    · exact ⟨t, hr, .refl⟩
    · rw [ht] at hr
      cases hr

namespace Announced

variable {g g' : Graph} (ha : Announced g g') (hs' : g'.Sound)

include ha hs'

/-- An announced change leaves a stale node stale as long as it is there. -/
theorem stale {t : Tag} (h : g.Stale t) (ht : g'.contains t = true) : g'.Stale t :=
  ha.noticed.stale hs' h ht

/-- What a node reads by an edge has been there and is as it was, if neither of the two is
marked. -/
theorem child (hs : g.Sound) {p c : Tag} (hr : g'.edges.Reads p c) (hp : p ∉ g'.marked)
    (hc : c ∉ g'.marked) :
    g.edges.Reads p c ∧
      ∃ n n', g.node? c = some n ∧ g'.node? c = some n' ∧ n'.outline = n.outline := by
  have hr' := (ha.new_edge p c hr).resolve_right hp
  obtain ⟨n', hn'⟩ := exists_node?_of_contains (hs'.child_live p c hr)
  refine ⟨hr', ?_⟩
  rcases ha.node c n' hn' with ⟨n, hn, -, hc' | ho⟩ | ⟨hfree, -⟩
  · exact absurd hc' hc
  · exact ⟨n, n', hn, hn', ho⟩
  · rw [hs.child_live p c hr'] at hfree
    cases hfree

/-- What a node that is not stale reads, it has read before, with the same value. -/
theorem value?_child (hs : g.Sound) {t c : Tag} (hst : ¬g'.Stale t) (hr : g'.edges.Reads t c) :
    g.edges.Reads t c ∧ g'.value? c = g.value? c := by
  have ht : t ∉ g'.marked := fun ht => hst ⟨t, ht, .refl⟩
  have hc : c ∉ g'.marked := fun hc => hst ⟨c, hc, .single hr⟩
  obtain ⟨hr', n, n', hn, hn', ho⟩ := ha.child hs' hs hr ht hc
  exact ⟨hr', value?_of_outline hn hn' ho⟩

/-- A new node that is not stale reads nothing yet. -/
theorem not_reads_of_new (hs : g.Sound) {t : Tag} (hst : ¬g'.Stale t) (hfree : g.contains t = false)
    (c : Tag) : ¬g'.edges.Reads t c := by
  intro hr
  rw [hs.parent_live t c (ha.value?_child hs' hs hst hr).1] at hfree
  cases hfree

end Announced

/-! ### Runs without calls -/

/-- Whether no node is a call. -/
def CallFree (g : Graph) : Prop := ∀ t n, g.node? t = some n → n.kind.isCall = false

/-- An announced change makes no call. -/
theorem CallFree.of_announced {g g' : Graph} (h : g.CallFree) (ha : Announced g g') :
    g'.CallFree := by
  intro t n' hn'
  rcases ha.node t n' hn' with ⟨n, hn, hc, -⟩ | ⟨-, hf⟩
  · exact hc.trans (h t n hn)
  · exact hf.not_call

end Graph

end MotionGraph
