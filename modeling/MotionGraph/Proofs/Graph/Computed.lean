import MotionGraph.Proofs.Graph.Current
import MotionGraph.Proofs.Graph.InPlace
import MotionGraph.Proofs.Graph.Views

/-!
# A pass as a system of equations

Computing a node that is no call makes of it what `Node.computed` says, from the values of the nodes
that it observes, and leaves all others (`node?_evaluate`). If nodes read by edges whatever they
observe (`Graph.ReadsWired`), then what a pass makes of a computed node can be read off the values
after the pass: it is what computing makes of the node as it was before (`node?_evaluateAll`).
-/

namespace MotionGraph

namespace Kind

/-- The nodes whose values a kind takes in, to compute from, to follow or to show. What an
expression only writes into is not among them. -/
def observes : Kind → List Tag
  | .expression tree => tree.leaves
  | k => k.reads

/-- Memory observes nothing. -/
@[simp] theorem observes_plan (k : Kind) : k.plan.observes = k.observes := by
  cases k <;> rfl

/-- Nor does what concerns a view. -/
@[simp] theorem observes_outline (k : Kind) : k.outline.observes = k.observes := by
  cases k <;> rfl

/-- What a value is computed from is observed. -/
theorem inputs_subset_observes (k : Kind) : k.inputs ⊆ k.observes := by
  cases k <;> simp [inputs, observes, reads]

end Kind

/-- What computing a node makes of it, unless it is a call: a diff-clamp that has an input takes a
step, and what a kind computes becomes the base value. -/
def Node.computed (g : Graph) (n : Node) : Node :=
  match n.kind with
  | .diffClamp (some input) clamp =>
    { n with
      kind := .diffClamp (some input) (clamp.step n.base (g.read input)).1
      base := (clamp.step n.base (g.read input)).2 }
  | k =>
    match k.compute? g.value? with
    | some x => n.setBase x
    | none => n

namespace Node

variable {g : Graph} {n : Node}

/-- A diff-clamp that has an input takes a step. -/
theorem computed_diffClamp {input : Tag} {clamp : DiffClamp}
    (hk : n.kind = .diffClamp (some input) clamp) :
    n.computed g =
      { n with
        kind := .diffClamp (some input) (clamp.step n.base (g.read input)).1
        base := (clamp.step n.base (g.read input)).2 } := by
  simp only [computed, hk]

/-- Any other node takes the value that its kind computes, if any. -/
theorem computed_of_ne_diffClamp (hk : ∀ input clamp, n.kind ≠ .diffClamp (some input) clamp) :
    n.computed g =
      match n.kind.compute? g.value? with
      | some x => n.setBase x
      | none => n := by
  unfold computed
  split
  · next input clamp h => exact absurd h (hk input clamp)
  · rfl

end Node

namespace Graph

variable {g g' : Graph}

/-- Whether all nodes read by edges what they observe. -/
def ReadsWired (g : Graph) : Prop :=
  ∀ t n, g.node? t = some n → ∀ c ∈ n.kind.observes, g.edges.Reads t c

instance (g : Graph) (P : Tag → Node → Prop) [∀ t n, Decidable (P t n)] :
    Decidable (∀ t n, g.node? t = some n → P t n) :=
  decidable_of_iff (∀ e ∈ g.nodes.toList, P e.1 e.2)
    ⟨fun h t n hn => h (t, n) (OrderedMap.get?_eq_some_iff.1 hn),
      fun h e he => h e.1 e.2 (OrderedMap.get?_eq_some_iff.2 he)⟩

instance (g : Graph) : Decidable g.ReadsWired := by
  unfold ReadsWired
  infer_instance

instance (g : Graph) : Decidable g.CallFree := by
  unfold CallFree
  infer_instance

/-- Computing makes no new observations. -/
theorem ReadsWired.of_sameDesign (h : g.ReadsWired) (hd : SameDesign g g') : g'.ReadsWired := by
  intro t n' hn' c hcn
  obtain ⟨n, hn, hnd⟩ := hd.exists_node? hn'
  have hk : n'.kind.plan = n.kind.plan := congrArg Node.kind hnd
  rw [← Kind.observes_plan, hk, Kind.observes_plan] at hcn
  rw [hd.edges]
  exact h t n hn c hcn

/-- What a props node shows is read by edges, if all that is observed is. -/
theorem ReadsWired.propsWired (h : g.ReadsWired) {t : Tag} {n : Node} {p : Props}
    (hn : g.node? t = some n) (hk : n.kind = .props p) : g.PropsWired t p.sources where
  source s hs := h t n hn s (by rw [hk]; exact hs)
  entry s _ m entries hm hmk c hcm := h s m hm c (by rw [hmk]; exact hcm)
  operand u _ m entries hm hmk e he c hce :=
    h u m hm c (by rw [hmk]; exact List.mem_filterMap.2 ⟨e, he, hce⟩)

/-- Computing depends on the values of the observed nodes alone. -/
theorem computed_congr {n : Node} (h : ∀ c ∈ n.kind.observes, g.value? c = g'.value? c) :
    n.computed g = n.computed g' := by
  have hx : n.kind.compute? g.value? = n.kind.compute? g'.value? :=
    Kind.compute?_congr fun c hc => h c (n.kind.inputs_subset_observes hc)
  unfold Node.computed
  split
  · next input clamp hk =>
    have hv : g.read input = g'.read input := by
      rw [read, read, h input (by rw [hk]; exact List.mem_singleton.2 rfl)]
    rw [hv]
  · rw [hx]

/-! ### One node -/

/-- A node may be rewritten by any function that does the same to it. -/
theorem update_congr {t : Tag} {f f' : Node → Node} (h : ∀ n, g.node? t = some n → f n = f' n) :
    g.update t f = g.update t f' := by
  have hm : g.nodes.modify t f = g.nodes.modify t f' := by
    apply OrderedMap.ext
    refine List.map_congr_left fun e he => ?_
    by_cases ht : e.1 = t
    · have hn : g.node? t = some e.2 := OrderedMap.get?_eq_some_iff.2 (ht ▸ he)
      simp only [ht, if_true, h e.2 hn]
    · simp only [ht, if_false]
  rw [update, update, hm]

/-- Rewriting a node does nothing if it leaves the node as it is. -/
theorem update_of_fixed {t : Tag} {f : Node → Node} (h : ∀ n, g.node? t = some n → f n = n) :
    g.update t f = g := by
  rw [update, OrderedMap.modify_of_fixed h]

/-- **Computing a node that is no call rewrites it.** -/
theorem evaluate_eq_update {t : Tag} (hc : ∀ n, g.node? t = some n → n.kind.isCall = false) :
    (g.evaluate t).1 = g.update t (Node.computed g) := by
  unfold evaluate
  split
  · next hn => exact (update_of_fixed fun n hn' => by rw [hn] at hn'; cases hn').symm
  · next n hn =>
    have same : ∀ m, g.node? t = some m → n = m := fun m hm => Option.some.inj (hn.symm.trans hm)
    split
    · next input clamp hk =>
      refine update_congr fun m hm => ?_
      obtain rfl := same m hm
      rw [Node.computed_diffClamp hk]
    · next p hk =>
      have hcall := hc n hn
      rw [hk] at hcall
      cases hcall
    · next hclamp hproc =>
      have hcomputed := Node.computed_of_ne_diffClamp (g := g) hclamp
      cases hx : n.kind.compute? g.value? with
      | some x =>
        refine update_congr fun m hm => ?_
        obtain rfl := same m hm
        rw [hcomputed, hx]
      | none =>
        refine (update_of_fixed fun m hm => ?_).symm
        obtain rfl := same m hm
        rw [hcomputed, hx]

/-- What nodes are after one that is no call has been computed. -/
theorem node?_evaluate {t : Tag} (hc : ∀ n, g.node? t = some n → n.kind.isCall = false) (u : Tag) :
    (g.evaluate t).1.node? u = if u = t then (g.node? u).map (Node.computed g) else g.node? u := by
  rw [evaluate_eq_update hc, node?_update]

/-! ### Several nodes -/

/-- Without calls only the nodes computed change. -/
theorem CallFree.node?_evaluateAll (h : g.CallFree) {ts : List Tag} {u : Tag} (hu : u ∉ ts) :
    (g.evaluateAll ts).1.node? u = g.node? u := by
  induction ts generalizing g with
  | nil => rfl
  | cons t ts ih =>
    rw [List.mem_cons, not_or] at hu
    have hd : SameDesign g (g.evaluate t).1 := sameDesign_evaluate g t
    refine (ih (h.of_sameDesign hd) hu.2).trans ?_
    rw [node?_evaluate (h t), if_neg hu.1]

/-- What a node reads that has its turn in an order of evaluation is not computed from then on: it
has the value that it has in the end. -/
theorem CallFree.value?_evaluateAll_of_reads (h : g.CallFree)
    (hself : ∀ t, ¬g.edges.Reads t t) {t : Tag} {ts : List Tag}
    (ho : ∀ c ∈ ts, ¬g.edges.Reads t c) {c : Tag} (hr : g.edges.Reads t c) :
    (g.evaluateAll (t :: ts)).1.value? c = g.value? c := by
  have hct : c ≠ t := by
    rintro rfl
    exact hself c hr
  have hmem : c ∉ t :: ts := by
    rw [List.mem_cons, not_or]
    exact ⟨hct, fun hcts => ho c hcts hr⟩
  rw [value?, value?, h.node?_evaluateAll hmem]

/-- **What a pass makes of a node**: in an order of evaluation a node becomes what computing makes
of it, from the values that there are in the end, if it reads what it observes. -/
theorem node?_evaluateAll {ts : List Tag} (hc : g.CallFree) (hself : ∀ t, ¬g.edges.Reads t t)
    (hd : ts.Nodup) (ho : ts.Pairwise fun a b => ¬g.edges.Reads a b) {t : Tag} (ht : t ∈ ts)
    {n : Node} (hn : g.node? t = some n) (hw : ∀ c ∈ n.kind.observes, g.edges.Reads t c) :
    (g.evaluateAll ts).1.node? t = some (n.computed (g.evaluateAll ts).1) := by
  induction ts generalizing g with
  | nil => exact absurd ht List.not_mem_nil
  | cons u us ih =>
    rw [List.nodup_cons] at hd
    rw [List.pairwise_cons] at ho
    have hd₁ : SameDesign g (g.evaluate u).1 := sameDesign_evaluate g u
    have hc₁ : (g.evaluate u).1.CallFree := hc.of_sameDesign hd₁
    show ((g.evaluate u).1.evaluateAll us).1.node? t =
      some (n.computed ((g.evaluate u).1.evaluateAll us).1)
    by_cases htu : t = u
    · subst htu
      rw [hc₁.node?_evaluateAll hd.1, node?_evaluate (hc t), if_pos rfl, hn, Option.map_some,
        Option.some.injEq]
      exact computed_congr fun c hcn => (hc.value?_evaluateAll_of_reads hself ho.1 (hw c hcn)).symm
    · refine ih hc₁ ?_ hd.2 ?_ ((List.mem_cons.1 ht).resolve_left htu) ?_ ?_
      · rw [hd₁.edges]
        exact hself
      · rw [hd₁.edges]
        exact ho.2
      · rw [node?_evaluate (hc u), if_neg htu]
        exact hn
      · rw [hd₁.edges]
        exact hw

/-- Computing nodes of which none changes leaves the graph. -/
theorem evaluateAll_of_fixed {ts : List Tag}
    (h : ∀ t ∈ ts, ∀ n, g.node? t = some n → n.kind.isCall = false ∧ n.computed g = n) :
    (g.evaluateAll ts).1 = g := by
  induction ts with
  | nil => rfl
  | cons t ts ih =>
    have ht := h t List.mem_cons_self
    have he : (g.evaluate t).1 = g := by
      rw [evaluate_eq_update fun n hn => (ht n hn).1]
      exact update_of_fixed fun n hn => (ht n hn).2
    show ((g.evaluate t).1.evaluateAll ts).1 = g
    rw [he]
    exact ih fun u hu => h u (List.mem_cons_of_mem _ hu)

/-! ### A propagation -/

/-- A propagation leaves the nodes that it does not compute. -/
theorem node?_propagate_of_notMem (hc : g.CallFree) {t : Tag} (ht : t ∉ g.affected) :
    g.propagate.1.node? t = g.node? t :=
  CallFree.node?_evaluateAll (g := { g with marked := ∅ }) hc ht

/-- **What a propagation makes of a node that it computes**, from the values after it. -/
theorem node?_propagate_of_mem (hs : g.Sound) (hc : g.CallFree) (hw : g.ReadsWired) {t : Tag}
    (ht : t ∈ g.affected) {n : Node} (hn : g.node? t = some n) :
    g.propagate.1.node? t = some (n.computed g.propagate.1) :=
  node?_evaluateAll (g := { g with marked := ∅ }) hc (fun u hu => hs.acyclic u (.single hu))
    (Edges.nodup_order hs.mirrored _) (Edges.pairwise_order hs.mirrored _) ht hn (hw t n hn)

end Graph

end MotionGraph
