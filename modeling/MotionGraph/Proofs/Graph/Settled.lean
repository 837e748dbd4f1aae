import MotionGraph.Proofs.Graph.Repeat

/-!
# Nodes between propagations

In a permitted run a node that nothing marked is below is what computing makes of some node, from
the values as they are, as long as it reads by edges what it observes (`Graph.Settled`). Computing
such a node again changes its base value at most, and that only if it is a diff-clamp that does not
rest (`Settled.computed_eq`).

This says more than that the node is current (`Graph.Consistent`), for it concerns diff-clamps as
well, whose values are not computed from those of others alone. It is kept in the same way: an
announced change leaves the node and what it observes (`Settled.of_announced`), and a pass makes
each node that it computes from the values in the end (`node?_propagate_of_mem`).
-/

namespace MotionGraph

namespace Node

variable {g : Graph} {n : Node}

/-- Computing keeps the design. -/
theorem design_computed (g : Graph) (n : Node) : (n.computed g).design = n.design := by
  unfold computed
  split
  · next hk => simp [design, Kind.plan, hk, DiffClamp.restart, DiffClamp.step]
  · split <;> rfl

/-- Computing keeps offsets. -/
@[simp] theorem offset_computed (g : Graph) (n : Node) : (n.computed g).offset = n.offset := by
  have h := congrArg Node.offset (design_computed g n)
  exact h

/-- Computing changes a kind in its memory at most. -/
theorem plan_computed (g : Graph) (n : Node) : (n.computed g).kind.plan = n.kind.plan := by
  have h := congrArg Node.kind (design_computed g n)
  exact h

/-- Computing makes no new observations. -/
@[simp] theorem observes_computed (g : Graph) (n : Node) :
    (n.computed g).kind.observes = n.kind.observes := by
  rw [← Kind.observes_plan, plan_computed, Kind.observes_plan]

/-- A new node that observes nothing is computed without effect, if it is no expression. -/
theorem Fresh.computed_eq (h : n.Fresh) (hin : n.kind.observes = [])
    (hk : ∀ tree, n.kind ≠ .expression tree) : n.computed g = n := by
  have hclamp : ∀ input clamp, n.kind ≠ .diffClamp (some input) clamp := by
    intro input clamp hk
    rw [hk] at hin
    cases hin
  have hinputs : n.kind.inputs = [] :=
    List.eq_nil_of_subset_nil (hin ▸ n.kind.inputs_subset_observes)
  rw [computed_of_ne_diffClamp hclamp]
  split
  · next x hx =>
    obtain rfl : x = 0.0 := Kind.compute?_of_inputs_eq_nil hinputs hk hx
    rcases h.start with hv | ⟨hb, -⟩
    · rw [hv] at hx
      cases hx
    · rw [setBase, ← hb]
  · rfl

end Node

namespace Graph

variable {g g' : Graph}

/-- What a kind observes is read by edges, and an expression has an edge at all. -/
structure Linked (g : Graph) (t : Tag) (k : Kind) : Prop where
  observes : ∀ c ∈ k.observes, g.edges.Reads t c
  begun : ∀ tree, k = .expression tree → ∃ c, g.edges.Reads t c

/-- What a kind computes from is among what it observes. -/
theorem Linked.wired {t : Tag} {k : Kind} (h : g.Linked t k) : g.Wired t k :=
  ⟨fun c hc => h.observes c (k.inputs_subset_observes hc), h.begun⟩

/-- A node is linked if nodes read by edges what they observe and it has an edge. -/
theorem ReadsWired.linked (hw : g.ReadsWired) {t : Tag} {n : Node} (hn : g.node? t = some n)
    (hb : ∀ tree, n.kind = .expression tree → ∃ c, g.edges.Reads t c) : g.Linked t n.kind :=
  ⟨hw t n hn, hb⟩

/-- A node is what computing makes of some node, from the values as they are. -/
def Computed (g : Graph) (n : Node) : Prop := ∃ m : Node, n = m.computed g

/-- It matters for this what the node observes alone. -/
theorem Computed.congr {n : Node} (h : g.Computed n)
    (hv : ∀ c ∈ n.kind.observes, g.value? c = g'.value? c) : g'.Computed n := by
  obtain ⟨m, rfl⟩ := h
  rw [Node.observes_computed] at hv
  exact ⟨m, computed_congr hv⟩

/-- A linked node that is not stale has been computed from the values as they are. -/
structure Settled (g : Graph) : Prop where
  sound : g.Sound
  callFree : g.CallFree
  computed : ∀ t n, g.node? t = some n → g.Linked t n.kind → g.Stale t ∨ g.Computed n

namespace Settled

/-- The graph without nodes is settled. -/
theorem empty : Graph.empty.Settled where
  sound := sound_empty
  callFree _ _ h := by cases h
  computed _ _ h := by cases h

/-- Announced changes leave nodes that are not stale, and what these observe. -/
theorem of_announced (h : g.Settled) (hs' : g'.Sound) (ha : Announced g g') : g'.Settled := by
  refine ⟨hs', h.callFree.of_announced ha, fun t n' hn' hl => ?_⟩
  by_cases hst : g'.Stale t
  · exact Or.inl hst
  refine Or.inr ?_
  have hm : t ∉ g'.marked := fun hm => hst ⟨t, hm, .refl⟩
  have hchild : ∀ c, g'.edges.Reads t c → g.edges.Reads t c ∧ g'.value? c = g.value? c :=
    fun _ => ha.value?_child hs' h.sound hst
  rcases ha.node t n' hn' with ⟨n, hn, -, hm' | ho⟩ | ⟨hfree, hf⟩
  · exact absurd hm' hm
  · by_cases hp : ∃ p, n'.kind = .props p
    · obtain ⟨p, hp⟩ := hp
      exact ⟨n', (Node.computed_props hp).symm⟩
    · -- the node is as it was, and so are the values that it observes
      obtain rfl : n' = n := Node.eq_of_outline (fun p h => hp ⟨p, h⟩) ho
      have hl₀ : g.Linked t n'.kind := by
        refine ⟨fun c hc => (hchild c (hl.observes c hc)).1, fun tree ht => ?_⟩
        obtain ⟨c, hc⟩ := hl.begun tree ht
        exact ⟨c, (hchild c hc).1⟩
      rcases h.computed t n' hn hl₀ with hst₀ | hc
      · exact absurd (ha.stale hs' hst₀ (contains_of_node? hn')) hst
      · exact hc.congr fun c hc => (hchild c (hl.observes c hc)).2.symm
  · -- a new node has no edges yet
    have hnone : ∀ c, ¬g'.edges.Reads t c := ha.not_reads_of_new hs' h.sound hst hfree
    refine ⟨n', (hf.computed_eq ?_ fun tree ht => ?_).symm⟩
    · exact List.eq_nil_iff_forall_not_mem.2 fun c hc => hnone c (hl.observes c hc)
    · obtain ⟨c, hc⟩ := hl.begun tree ht
      exact hnone c hc

/-- A propagation settles all nodes. -/
theorem propagate (h : g.Settled) : g.propagate.1.Settled where
  sound := h.sound.perform (r := .propagate) rfl
  callFree :=
    CallFree.of_sameDesign (g := { g with marked := ∅ }) h.callFree (sameDesign_propagate g)
  computed t n hn hl := by
    have hd : SameDesign { g with marked := ∅ } g.propagate.1 := sameDesign_propagate g
    obtain ⟨n₀, hn₀, hnd⟩ := hd.exists_node? hn
    have hk : n.kind.plan = n₀.kind.plan := congrArg Node.kind hnd
    have hobserves : n.kind.observes = n₀.kind.observes := by
      rw [← Kind.observes_plan, hk, Kind.observes_plan]
    have hreads : ∀ c ∈ n₀.kind.observes, g.edges.Reads t c := fun c hc =>
      hd.edges ▸ hl.observes c (hobserves ▸ hc)
    refine Or.inr ?_
    by_cases ht : t ∈ g.affected
    · have hmade := node?_evaluateAll (g := { g with marked := ∅ }) h.callFree
        (fun u hu => h.sound.acyclic u (.single hu)) (Edges.nodup_order h.sound.mirrored _)
        (Edges.pairwise_order h.sound.mirrored _) ht hn₀ hreads
      exact ⟨n₀, Option.some.inj (hn.symm.trans hmade)⟩
    · -- nothing below is computed, so all of it is as it was
      have hsame : ∀ c, c ∉ g.affected → g.propagate.1.node? c = g.node? c := fun c hc =>
        node?_propagate_of_notMem h.callFree hc
      have hold : g.node? t = some n := (hsame t ht).symm.trans hn
      have hl₀ : g.Linked t n.kind := by
        refine ⟨fun c hc => hd.edges ▸ hl.observes c hc, fun tree htree => ?_⟩
        obtain ⟨c, hc⟩ := hl.begun tree htree
        exact ⟨c, hd.edges ▸ hc⟩
      rw [mem_affected_iff h.sound] at ht
      refine ((h.computed t n hold hl₀).resolve_left ht).congr fun c hc => ?_
      have hca : c ∉ g.affected := fun hca =>
        ht (((mem_affected_iff h.sound).1 hca).above (.single (hl₀.observes c hc)))
      rw [value?, value?, hsame c hca]

/-- Permitted runs leave settled graphs. -/
theorem afterAll (h : g.Settled) {rs : List Request} (hp : g.PermitsAll rs) :
    (g.afterAll rs).Settled :=
  afterAll_induction (P := Settled) (fun _ h => h.sound) (fun _ _ h => h.of_announced)
    (fun _ h => h.propagate) h hp

/-- A settled diff-clamp has seen its input as it is. -/
theorem last_eq (h : g.Settled) {t : Tag} {n : Node} (hn : g.node? t = some n)
    (hl : g.Linked t n.kind) (hst : ¬g.Stale t) {input : Tag} {clamp : DiffClamp}
    (hk : n.kind = .diffClamp (some input) clamp) : clamp.last = some (g.read input) := by
  obtain ⟨m, rfl⟩ := (h.computed t n hn hl).resolve_left hst
  by_cases hm : ∃ input clamp, m.kind = .diffClamp (some input) clamp
  · obtain ⟨input', clamp', hm⟩ := hm
    rw [Node.computed_diffClamp hm] at hk
    cases hk
    rfl
  · have hne : ∀ input clamp, m.kind ≠ .diffClamp (some input) clamp := fun input clamp h =>
      hm ⟨input, clamp, h⟩
    refine absurd ?_ (hne input clamp)
    rw [← hk, Node.computed_of_ne_diffClamp hne]
    split <;> rfl

/-- **Computing a settled node again** changes its base value at most, and that only if it is a
diff-clamp that does not rest. -/
theorem computed_eq (h : g.Settled) (hb : g.Everywhere Kind.Bounded) {t : Tag} {n : Node}
    (hn : g.node? t = some n) (hl : g.Linked t n.kind) (hst : ¬g.Stale t) :
    n.computed g = n.setBase (n.computed g).base ∧
      ((n.computed g).base = n.base ↔ ∀ input clamp, n.kind = .diffClamp (some input) clamp →
        DiffClamp.Rests n.base (g.read input)) := by
  have hbounded := hb t n hn
  obtain ⟨m, rfl⟩ := (h.computed t n hn hl).resolve_left hst
  rw [← Kind.lasting_bounded.plan, Node.plan_computed, Kind.lasting_bounded.plan] at hbounded
  exact ⟨Node.computed_computed g m, Node.base_computed_computed_iff hbounded⟩

end Settled

end Graph

end MotionGraph
