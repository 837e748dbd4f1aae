import MotionGraph.Proofs.Graph.Computed

/-!
# Propagation does not depend on the order of changes

Two graphs that differ in the order of their lists alone, of what is marked and of who reads whom,
are `Reordered`. Base values and offsets that are set on different nodes in another order lead to
such graphs (`Reordered.settings`).

The order of evaluation differs between them, but each lists the same nodes
(`Reordered.affected_perm`), and in either a node becomes what computing makes of it from the values
in the end (`node?_propagate_of_mem`). So the first node in which the results differed would read
others that do not, which cannot be (`Reordered.node?_propagate`). What a pass hands out is what its
nodes ask for, each from the values in the end (`Handed.evaluateAll`), so that it is the same but
for the order (`propagate_ignores_order`).
-/

namespace MotionGraph.Graph

/-- Two graphs that differ in the order of their lists alone. -/
structure Reordered (g h : Graph) : Prop where
  node : ∀ t, h.node? t = g.node? t
  marked : ∀ t, t ∈ h.marked ↔ t ∈ g.marked
  children : ∀ t c, c ∈ h.edges.childrenOf t ↔ c ∈ g.edges.childrenOf t
  parents : ∀ t p, p ∈ h.edges.parentsOf t ↔ p ∈ g.edges.parentsOf t

namespace Reordered

variable {g h : Graph}

/-! ### What the order does not show -/

/-- The same nodes read the same. -/
theorem reads (hr : Reordered g h) (p c : Tag) : h.edges.Reads p c ↔ g.edges.Reads p c :=
  hr.children p c

/-- The same nodes are there. -/
theorem contains (hr : Reordered g h) (t : Tag) : h.contains t = g.contains t := by
  rw [contains_eq_isSome, contains_eq_isSome, hr.node]

/-- The invariant of graphs is not about order. -/
theorem sound (hr : Reordered g h) (hs : g.Sound) : h.Sound where
  acyclic := hs.acyclic.mono fun a b => (hr.reads a b).1
  mirrored p c := ((hr.parents c p).trans (hs.mirrored p c)).trans (hr.reads p c).symm
  parent_live p c hp := (hr.contains p).trans (hs.parent_live p c ((hr.reads p c).1 hp))
  child_live p c hp := (hr.contains c).trans (hs.child_live p c ((hr.reads p c).1 hp))
  child_not_sink p c n hp hn := hs.child_not_sink p c n ((hr.reads p c).1 hp) (hr.node c ▸ hn)
  marked_live t ht := (hr.contains t).trans (hs.marked_live t ((hr.marked t).1 ht))

/-- Neither is it whether there are calls. -/
theorem callFree (hr : Reordered g h) (hc : g.CallFree) : h.CallFree :=
  fun t n hn => hc t n (hr.node t ▸ hn)

/-- Nor whether nodes read by edges what they observe. -/
theorem readsWired (hr : Reordered g h) (hw : g.ReadsWired) : h.ReadsWired :=
  fun t n hn c hcn => (hr.reads t c).2 (hw t n (hr.node t ▸ hn) c hcn)

/-- The same nodes are to be computed. -/
theorem stale (hr : Reordered g h) (t : Tag) : h.Stale t ↔ g.Stale t := by
  have same : h.edges.Reads = g.edges.Reads := by
    funext p c
    exact propext (hr.reads p c)
  unfold Stale
  simp only [Edges.DependsOn, same, hr.marked]

/-- **The orders of evaluation list the same nodes.** -/
theorem affected_perm (hr : Reordered g h) (hs : g.Sound) : h.affected.Perm g.affected := by
  refine (List.perm_ext_iff_of_nodup (Edges.nodup_order (hr.sound hs).mirrored _)
    (Edges.nodup_order hs.mirrored _)).2 fun t => ?_
  exact ((mem_affected_iff (hr.sound hs)).trans (hr.stale t)).trans (mem_affected_iff hs).symm

/-! ### What setting values in another order leaves -/

/-- A graph has its own order. -/
theorem refl (g : Graph) : Reordered g g :=
  ⟨fun _ => rfl, fun _ => .rfl, fun _ _ => .rfl, fun _ _ => .rfl⟩

/-- Orders may change more than once. -/
theorem trans {k : Graph} (hr : Reordered g h) (hk : Reordered h k) : Reordered g k :=
  ⟨fun t => (hk.node t).trans (hr.node t), fun t => (hk.marked t).trans (hr.marked t),
    fun t c => (hk.children t c).trans (hr.children t c),
    fun t p => (hk.parents t p).trans (hr.parents t p)⟩

end Reordered

/-- The node of which a request sets the base value or the offset. -/
def Request.setting? : Request → Option Tag
  | .setBase t _ | .setOffset t _ => some t
  | _ => none

/-- What setting a value does, as far as order does not show: `f` is what becomes of the node, and
`p` tells whether it is marked. -/
structure SetsAt (r : Request) (t : Tag) (f : Option Node → Option Node) (p : Option Node → Prop) :
    Prop where
  edges : ∀ g : Graph, (g.after r).edges = g.edges
  node : ∀ (g : Graph) u, (g.after r).node? u = if u = t then f (g.node? u) else g.node? u
  marked : ∀ (g : Graph) u, u ∈ (g.after r).marked ↔ u ∈ g.marked ∨ (u = t ∧ p (g.node? t))

/-- A request to rewrite one node that holds a number, and to mark it if the number is another one,
is about this node alone. -/
theorem setsAt_of_rewrite {r : Request} {t : Tag} (f : Node → Node) (changes : Node → Bool)
    (rewrites : ∀ g : Graph, g.after r =
      match g.holder t with
      | .ok n => if changes n then (g.update t f).touch t else g.update t f
      | .error _ => g) :
    SetsAt r t (Option.map fun n => if n.holdsValue then f n else n)
      fun o => ∃ n, o = some n ∧ n.holdsValue = true ∧ changes n = true := by
  have refused : ∀ g : Graph, ∀ cause, g.holder t = .error cause →
      ∀ n, g.node? t = some n → n.holdsValue = false := by
    intro g cause hg n hn
    rw [Bool.eq_false_iff]
    intro hv
    rw [holder_eq_ok.2 ⟨hn, hv⟩] at hg
    cases hg
  refine ⟨fun g => ?_, fun g u => ?_, fun g u => ?_⟩
  · rw [rewrites]
    split
    · split <;> rfl
    · rfl
  · rw [rewrites]
    split
    · next n hg =>
      obtain ⟨hn, hv⟩ := holder_eq_ok.1 hg
      have hnode : (if changes n then (g.update t f).touch t else g.update t f).node? u =
          (g.update t f).node? u := by
        split
        · exact node?_touch _ t u
        · rfl
      rw [hnode, node?_update]
      split
      · next hu => simp [hu, hn, hv]
      · rfl
    · next cause hg =>
      split
      · next hu =>
        subst hu
        cases hn : g.node? u with
        | none => rfl
        | some n => simp [refused g cause hg n hn]
      · rfl
  · rw [rewrites]
    split
    · next n hg =>
      obtain ⟨hn, hv⟩ := holder_eq_ok.1 hg
      split
      · next hch =>
        rw [mem_marked_touch]
        exact or_congr_right ⟨fun hu => ⟨hu, n, hn, hv, hch⟩, And.left⟩
      · next hch =>
        refine ⟨Or.inl, ?_⟩
        rintro (hu | ⟨-, m, hm, -, hch'⟩)
        · exact hu
        · obtain rfl : n = m := Option.some.inj (hn.symm.trans hm)
          exact absurd hch' hch
    · next cause hg =>
      refine ⟨Or.inl, ?_⟩
      rintro (hu | ⟨-, n, hn, hv, -⟩)
      · exact hu
      · rw [refused g cause hg n hn] at hv
        cases hv

/-- Setting a value is about one node alone. -/
theorem exists_setsAt {r : Request} {t : Tag} (hr : r.setting? = some t) :
    ∃ f p, SetsAt r t f p := by
  unfold Request.setting? at hr
  split at hr
  · next u x =>
    obtain rfl : u = t := Option.some.inj hr
    refine ⟨_, _, setsAt_of_rewrite (fun n => n.setBase x) (fun n => n.baseChanges x) fun g => ?_⟩
    simp only [after, perform, setBase]
    cases g.holder u with
    | error cause => rfl
    | ok n => cases hch : n.baseChanges x <;> simp [hch, Except.map]
  · next u x =>
    obtain rfl : u = t := Option.some.inj hr
    refine ⟨_, _, setsAt_of_rewrite (fun n => n.setOffset x) (fun n => n.offsetChanges x)
      fun g => ?_⟩
    simp only [after, perform, setOffset]
    cases g.holder u with
    | error cause => rfl
    | ok n => cases hch : n.offsetChanges x <;> simp [hch, Except.map]
  · cases hr

namespace Reordered

variable {g h : Graph}

/-- Setting the same value keeps the order the only difference. -/
theorem after (hr : Reordered g h) {r : Request} {t : Tag} (hs : r.setting? = some t) :
    Reordered (g.after r) (h.after r) := by
  obtain ⟨f, p, at_t⟩ := exists_setsAt hs
  refine ⟨fun u => ?_, fun u => ?_, fun u c => ?_, fun u c => ?_⟩
  · rw [at_t.node, at_t.node, hr.node]
  · rw [at_t.marked, at_t.marked, hr.marked, hr.node]
  · rw [at_t.edges, at_t.edges]
    exact hr.children u c
  · rw [at_t.edges, at_t.edges]
    exact hr.parents u c

/-- Values of two nodes may be set in either order. -/
theorem swap (g : Graph) {r s : Request} {t u : Tag} (hr : r.setting? = some t)
    (hs : s.setting? = some u) (hne : t ≠ u) :
    Reordered ((g.after r).after s) ((g.after s).after r) := by
  obtain ⟨f, p, at_t⟩ := exists_setsAt hr
  obtain ⟨f', p', at_u⟩ := exists_setsAt hs
  refine ⟨fun v => ?_, fun v => ?_, fun v c => ?_, fun v c => ?_⟩
  · rw [at_t.node, at_u.node, at_u.node, at_t.node]
    by_cases hv : v = t
    · simp [hv, hne]
    · simp [hv]
  · rw [at_t.marked, at_u.marked, at_u.marked, at_t.marked, at_t.node, at_u.node, if_neg hne,
      if_neg hne.symm, or_right_comm]
  · rw [at_t.edges, at_u.edges, at_u.edges, at_t.edges]
  · rw [at_t.edges, at_u.edges, at_u.edges, at_t.edges]

/-- Setting the same values keeps the order the only difference. -/
theorem afterAll {rs : List Request} (hset : ∀ r ∈ rs, r.setting?.isSome) (hr : Reordered g h) :
    Reordered (g.afterAll rs) (h.afterAll rs) := by
  induction rs generalizing g h with
  | nil => exact hr
  | cons r rs ih =>
    obtain ⟨t, ht⟩ := Option.isSome_iff_exists.1 (hset r List.mem_cons_self)
    exact ih (fun s hs => hset s (List.mem_cons_of_mem _ hs)) (hr.after ht)

/-- **Values of different nodes may be set in any order.** -/
theorem settings {rs rs' : List Request} (hp : rs.Perm rs') (hset : ∀ r ∈ rs, r.setting?.isSome)
    (hd : (rs.map Request.setting?).Nodup) (hr : Reordered g h) :
    Reordered (g.afterAll rs) (h.afterAll rs') := by
  induction hp generalizing g h with
  | nil => exact hr
  | cons r _ ih =>
    obtain ⟨t, ht⟩ := Option.isSome_iff_exists.1 (hset r List.mem_cons_self)
    exact ih (fun s hs => hset s (List.mem_cons_of_mem _ hs)) (List.nodup_cons.1 hd).2 (hr.after ht)
  | swap r s rs =>
    obtain ⟨u, hu⟩ := Option.isSome_iff_exists.1 (hset s List.mem_cons_self)
    obtain ⟨t, ht⟩ :=
      Option.isSome_iff_exists.1 (hset r (List.mem_cons_of_mem _ List.mem_cons_self))
    have hne : u ≠ t := by
      rintro rfl
      exact (List.nodup_cons.1 hd).1 (List.mem_cons.2 (Or.inl (hu.trans ht.symm)))
    have hswap : Reordered ((g.after s).after r) ((h.after r).after s) :=
      (swap g hu ht hne).trans ((hr.after ht).after hu)
    exact hswap.afterAll fun q hq => hset q (List.mem_cons_of_mem _ (List.mem_cons_of_mem _ hq))
  | trans h₁ _ ih₁ ih₂ =>
    refine (ih₁ hset hd hr).trans (ih₂ (fun r hr' => hset r (h₁.mem_iff.2 hr')) ?_ (refl h))
    exact (h₁.map _).nodup_iff.1 hd

/-! ### The nodes after a propagation -/

/-- **Every node becomes the same.** -/
theorem node?_propagate (hr : Reordered g h) (hs : g.Sound) (hc : g.CallFree) (hw : g.ReadsWired)
    (t : Tag) : h.propagate.1.node? t = g.propagate.1.node? t := by
  have haffected : ∀ u, u ∈ h.affected ↔ u ∈ g.affected := fun u => (hr.affected_perm hs).mem_iff
  have others : ∀ u, u ∉ g.affected → h.propagate.1.node? u = g.propagate.1.node? u := by
    intro u hu
    rw [node?_propagate_of_notMem (hr.callFree hc) (mt (haffected u).1 hu),
      node?_propagate_of_notMem hc hu, hr.node]
  by_cases ht : t ∈ g.affected
  · -- along the edges: the nodes that one reads have become the same
    refine hs.acyclic.mem_induction (P := fun u => h.propagate.1.node? u = g.propagate.1.node? u)
      (fun u hu below => ?_) t ht
    cases hn : g.node? u with
    | none =>
      have hd := (sameDesign_propagate g).node u
      have hd' := (sameDesign_propagate h).node u
      rw [show ({ g with marked := ∅ } : Graph).node? u = none from hn, Option.map_none,
        Option.map_eq_none_iff] at hd
      rw [show ({ h with marked := ∅ } : Graph).node? u = none from (hr.node u).trans hn,
        Option.map_none, Option.map_eq_none_iff] at hd'
      rw [hd, hd']
    | some n =>
      rw [node?_propagate_of_mem hs hc hw hu hn,
        node?_propagate_of_mem (hr.sound hs) (hr.callFree hc) (hr.readsWired hw)
          ((haffected u).2 hu) ((hr.node u).trans hn), Option.some.injEq]
      refine computed_congr fun c hcn => ?_
      rw [value?, value?]
      by_cases hca : c ∈ g.affected
      · rw [below c hca (hw u n hn c hcn)]
      · rw [others c hca]
  · exact others t ht

end Reordered

/-! ### What a pass hands out -/

/-- What computing a node that is no call hands out. -/
theorem snd_evaluate {g : Graph} {t : Tag} {n : Node} (hn : g.node? t = some n)
    (hc : n.kind.isCall = false) :
    (g.evaluate t).2 =
      { recomputed := [t]
        sinks := if n.isSink then OrderedSet.empty.insert t else ∅
        writes := n.kind.asks g.value?
        requests := n.kind.requests g.value? } := by
  unfold evaluate
  rw [hn]
  dsimp only
  split
  · next hk => simp [hk, Node.isSink, Kind.isSink, Kind.asks, Kind.requests]
  · next hk =>
    rw [hk] at hc
    cases hc
  · split <;> rfl

/-- Without a node nothing is handed out. -/
theorem snd_evaluate_of_none {g : Graph} {t : Tag} (hn : g.node? t = none) :
    (g.evaluate t).2 = { recomputed := [t] } := by
  rw [evaluate, hn]

/-- What a node asks for, as values are. -/
def askedBy {β : Type} (ask : (Tag → Option Float) → Kind → List β) (g : Graph) (t : Tag) :
    List β :=
  ((g.node? t).map fun n => ask g.value? n.kind).getD []

/-- A part of what a pass hands out that its nodes ask for, each by its kind and from the
values that it observes. -/
structure Handed {β : Type} (part : Pass → List β) (ask : (Tag → Option Float) → Kind → List β) :
    Prop where
  empty : part {} = []
  append : ∀ p q, part (p.append q) = part p ++ part q
  plan : ∀ read k, ask read k.plan = ask read k
  observed : ∀ read read' (k : Kind), (∀ c ∈ k.observes, read c = read' c) →
    ask read k = ask read' k
  evaluate : ∀ (g : Graph) t, (∀ n, g.node? t = some n → n.kind.isCall = false) →
    part (g.evaluate t).2 = g.askedBy ask t

/-- Expressions ask for writes. -/
theorem handed_writes : Handed Pass.writes Kind.asks where
  empty := rfl
  append _ _ := rfl
  plan read k := by cases k <;> rfl
  observed read read' k h := by
    cases k with
    | expression tree => simp only [Kind.asks, Expr.evaluate, tree.eval_congr [] h]
    | _ => rfl
  evaluate g t hc := by
    unfold askedBy
    cases hn : g.node? t with
    | none => rw [snd_evaluate_of_none hn]; rfl
    | some n => rw [snd_evaluate hn (hc n hn)]; rfl

/-- Tracking nodes ask for animations. -/
theorem handed_requests : Handed Pass.requests Kind.requests where
  empty := rfl
  append _ _ := rfl
  plan read k := by cases k <;> rfl
  observed read read' k h := by
    cases k with
    | tracking t =>
      obtain ⟨animation, followed, follower, template⟩ := t
      cases followed with
      | none => rfl
      | some followed =>
        have hv : read followed = read' followed := h followed List.mem_cons_self
        cases follower with
        | none => rfl
        | some follower => simp only [Kind.requests, hv]
    | _ => rfl
  evaluate g t hc := by
    unfold askedBy
    cases hn : g.node? t with
    | none => rw [snd_evaluate_of_none hn]; rfl
    | some n => rw [snd_evaluate hn (hc n hn)]; rfl

namespace Handed

variable {β : Type} {part : Pass → List β} {ask : (Tag → Option Float) → Kind → List β}
  {g h : Graph}

/-- Nodes of one design that observe the same values ask for the same. -/
theorem askedBy_congr (hh : Handed part ask) {t : Tag}
    (hd : (h.node? t).map Node.design = (g.node? t).map Node.design)
    (hv : ∀ n, g.node? t = some n → ∀ c ∈ n.kind.observes, h.value? c = g.value? c) :
    h.askedBy ask t = g.askedBy ask t := by
  unfold askedBy
  cases hn : g.node? t with
  | none =>
    rw [hn, Option.map_none, Option.map_eq_none_iff] at hd
    rw [hd]
    rfl
  | some n =>
    rw [hn, Option.map_some, Option.map_eq_some_iff] at hd
    obtain ⟨n', hn', hd⟩ := hd
    have hk : n'.kind.plan = n.kind.plan := congrArg Node.kind hd
    rw [hn', Option.map_some, Option.map_some, Option.getD_some, Option.getD_some, ← hh.plan,
      hk, hh.plan]
    exact hh.observed _ _ _ (hv n hn)

/-- **What a pass hands out**, node by node: what each asks for from the values that
there are in the end. -/
theorem evaluateAll (hh : Handed part ask) {ts : List Tag} (hc : g.CallFree) (hw : g.ReadsWired)
    (hself : ∀ t, ¬g.edges.Reads t t) (ho : ts.Pairwise fun a b => ¬g.edges.Reads a b) :
    part (g.evaluateAll ts).2 = ts.flatMap ((g.evaluateAll ts).1.askedBy ask) := by
  induction ts generalizing g with
  | nil => exact hh.empty
  | cons t ts ih =>
    rw [List.pairwise_cons] at ho
    have hd : SameDesign g (g.evaluate t).1 := sameDesign_evaluate g t
    have hrest :=
      ih (hc.of_sameDesign hd) (hw.of_sameDesign hd) (hd.edges ▸ hself) (hd.edges ▸ ho.2)
    have hlast : (g.evaluateAll (t :: ts)).1.askedBy ask t = g.askedBy ask t :=
      hh.askedBy_congr ((sameDesign_evaluateAll (t :: ts) g).node t) fun n hn c hcn =>
        hc.value?_evaluateAll_of_reads hself ho.1 (hw t n hn c hcn)
    rw [List.flatMap_cons, hlast, ← hh.evaluate g t (hc t)]
    exact (hh.append _ _).trans (congrArg _ hrest)

/-- **In another order a pass hands out the same.** -/
theorem perm_propagate (hh : Handed part ask) (hr : Reordered g h) (hs : g.Sound) (hc : g.CallFree)
    (hw : g.ReadsWired) : (part h.propagate.2).Perm (part g.propagate.2) := by
  have handed : ∀ k : Graph, k.Sound → k.CallFree → k.ReadsWired →
      part k.propagate.2 = k.affected.flatMap (k.propagate.1.askedBy ask) := fun k hs hc hw =>
    hh.evaluateAll (g := { k with marked := ∅ }) hc hw (fun t ht => hs.acyclic t (.single ht))
      (Edges.pairwise_order hs.mirrored _)
  have hnode := hr.node?_propagate hs hc hw
  have hasked : h.propagate.1.askedBy ask = g.propagate.1.askedBy ask := by
    funext t
    refine hh.askedBy_congr (by rw [hnode]) fun n _ c _ => ?_
    rw [value?, value?, hnode]
  rw [handed h (hr.sound hs) (hr.callFree hc) (hr.readsWired hw), handed g hs hc hw, hasked]
  exact (hr.affected_perm hs).flatMap_right _

end Handed

/-- The props nodes among those computed are noted, and no others. -/
theorem mem_sinks_evaluateAll_iff {g : Graph} {ts : List Tag} (hc : g.CallFree) {t : Tag} :
    t ∈ (g.evaluateAll ts).2.sinks ↔ t ∈ ts ∧ ∃ n, g.node? t = some n ∧ n.isSink = true := by
  refine ⟨fun h => ?_, fun ⟨ht, n, hn, hs⟩ => mem_sinks_evaluateAll ht hn hs⟩
  induction ts generalizing g with
  | nil => cases h
  | cons u us ih =>
    have hor : t ∈ (g.evaluate u).2.sinks ∨ t ∈ ((g.evaluate u).1.evaluateAll us).2.sinks :=
      OrderedSet.mem_insertAll.1 h
    rcases hor with h | h
    · cases hn : g.node? u with
      | none =>
        rw [snd_evaluate_of_none hn] at h
        cases h
      | some n =>
        rw [snd_evaluate hn (hc u n hn)] at h
        dsimp only at h
        split at h
        · next hs =>
          obtain rfl : t = u := (OrderedSet.mem_insert.1 h).resolve_left List.not_mem_nil
          exact ⟨List.mem_cons_self, n, hn, hs⟩
        · cases h
    · have hd : SameDesign g (g.evaluate u).1 := sameDesign_evaluate g u
      obtain ⟨ht, n', hn', hs⟩ := ih (hc.of_sameDesign hd) h
      obtain ⟨n, hn, hnd⟩ := hd.exists_node? hn'
      have hk : n'.kind.plan = n.kind.plan := congrArg Node.kind hnd
      refine ⟨List.mem_cons_of_mem u ht, n, hn, ?_⟩
      rwa [Node.isSink, ← Kind.isSink_plan, ← hk, Kind.isSink_plan]

/-- **Propagation does not depend on the order of changes**: of two graphs without calls that differ
in the order of their lists alone, and whose nodes read by edges what they observe, every node
becomes the same; the passes compute the same nodes, note the same props nodes and hand out the same
writes and the same animations, but for the order. -/
theorem propagate_ignores_order {g h : Graph} (hs : g.Sound) (hc : g.CallFree) (hw : g.ReadsWired)
    (hr : Reordered g h) :
    (∀ t, h.propagate.1.node? t = g.propagate.1.node? t) ∧
      h.propagate.2.recomputed.Perm g.propagate.2.recomputed ∧
      (∀ t, t ∈ h.propagate.2.sinks ↔ t ∈ g.propagate.2.sinks) ∧
      h.propagate.2.writes.Perm g.propagate.2.writes ∧
      h.propagate.2.requests.Perm g.propagate.2.requests := by
  refine ⟨hr.node?_propagate hs hc hw, ?_, fun t => ?_,
    handed_writes.perm_propagate hr hs hc hw, handed_requests.perm_propagate hr hs hc hw⟩
  · rw [recomputed_propagate, recomputed_propagate]
    exact hr.affected_perm hs
  · have noted : ∀ k : Graph, k.CallFree → (t ∈ k.propagate.2.sinks ↔
        t ∈ k.affected ∧ ∃ n, k.node? t = some n ∧ n.isSink = true) := fun k hc =>
      mem_sinks_evaluateAll_iff (g := { k with marked := ∅ }) hc
    rw [noted h (hr.callFree hc), noted g hc, (hr.affected_perm hs).mem_iff, hr.node]

/-- A sum of two values is clamped, shown and followed, and an expression writes its double. -/
def sharedSum : List Request :=
  [.make ⟨1⟩ (.value 1.0 0.0), .make ⟨2⟩ (.value 2.0 0.0), .make ⟨3⟩ (.arithmetic .addition []),
   .make ⟨4⟩ (.diffClamp none 0.0 10.0), .make ⟨5⟩ (.tracking ⟨9⟩ ⟨3⟩ ⟨8⟩ (.object [])),
   .make ⟨6⟩ (.expression (.set ⟨8⟩ (.fold .add [.value ⟨3⟩, .value ⟨3⟩]))),
   .make ⟨7⟩ (.props (OrderedMap.ofList [("opacity", ⟨3⟩)])), .make ⟨8⟩ (.value 0.0 0.0),
   .connect ⟨3⟩ ⟨1⟩, .connect ⟨3⟩ ⟨2⟩, .connect ⟨4⟩ ⟨3⟩, .connect ⟨5⟩ ⟨3⟩, .connect ⟨6⟩ ⟨3⟩,
   .connect ⟨7⟩ ⟨3⟩, .propagate]

set_option maxRecDepth 2000 in
/-- The values may be set in either order, though the nodes are computed in another one then. -/
theorem sharedSum_ignores_order :
    let g := (empty.afterAll sharedSum).afterAll [.setBase ⟨1⟩ 3.0, .setOffset ⟨2⟩ 0.5]
    let h := (empty.afterAll sharedSum).afterAll [.setOffset ⟨2⟩ 0.5, .setBase ⟨1⟩ 3.0]
    g.Sound ∧ g.CallFree ∧ g.ReadsWired ∧ Reordered g h ∧
      g.propagate.2.recomputed = [⟨1⟩, ⟨2⟩, ⟨3⟩, ⟨4⟩, ⟨5⟩, ⟨6⟩, ⟨7⟩] ∧
      h.propagate.2.recomputed = [⟨2⟩, ⟨1⟩, ⟨3⟩, ⟨4⟩, ⟨5⟩, ⟨6⟩, ⟨7⟩] ∧
      g.propagate.2.writes = [(⟨8⟩, 11.0)] ∧ g.propagate.1.base? ⟨4⟩ = some 2.5 ∧
      (∀ t, h.propagate.1.node? t = g.propagate.1.node? t) ∧
      h.propagate.2.writes.Perm g.propagate.2.writes := by
  have hs : ((empty.afterAll sharedSum).afterAll [.setBase ⟨1⟩ 3.0, .setOffset ⟨2⟩ 0.5]).Sound :=
    (sound_empty.afterAll _).afterAll _
  have hc : ((empty.afterAll sharedSum).afterAll
      [.setBase ⟨1⟩ 3.0, .setOffset ⟨2⟩ 0.5]).CallFree := by decide +kernel
  have hw : ((empty.afterAll sharedSum).afterAll
      [.setBase ⟨1⟩ 3.0, .setOffset ⟨2⟩ 0.5]).ReadsWired := by decide +kernel
  have hr : Reordered ((empty.afterAll sharedSum).afterAll [.setBase ⟨1⟩ 3.0, .setOffset ⟨2⟩ 0.5])
      ((empty.afterAll sharedSum).afterAll [.setOffset ⟨2⟩ 0.5, .setBase ⟨1⟩ 3.0]) :=
    .settings (.swap _ _ _) (by simp [Request.setting?]) (by simp [Request.setting?]) (.refl _)
  obtain ⟨same, -, -, written, -⟩ := propagate_ignores_order hs hc hw hr
  exact ⟨hs, hc, hw, hr, by decide +kernel, by decide +kernel, by decide +kernel, by decide +kernel,
    same, written⟩

end MotionGraph.Graph
