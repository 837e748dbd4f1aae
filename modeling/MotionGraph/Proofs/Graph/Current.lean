import MotionGraph.Proofs.Graph.Calls
import MotionGraph.Proofs.Graph.Marks
import MotionGraph.Proofs.Graph.Schedule

/-!
# Propagation agrees with computing everything again

A propagation computes the nodes above the marked ones alone. `base_after_propagate` says that
nothing is missed: in a run without calls in which nodes are dropped as `Graph.Permits` asks, right
after a propagation every node has the base value that its kind computes from the values of the
others as they are, as long as it reads them by edges, whether it was computed by that propagation
or not.

The invariant is `Graph.Consistent`: a node that is not stale is current. Announced changes keep it,
for what a node computes from is below it (`Consistent.of_announced`). A propagation makes every
node current: one above a mark is computed after what it reads, which does not change any more
(`current_evaluateAll`), and of any other nothing below has changed.
-/

namespace MotionGraph

namespace Kind

/-- What concerns a view does not enter a computed value. -/
@[simp] theorem compute?_outline (read : Tag → Option Float) (k : Kind) :
    k.outline.compute? read = k.compute? read := by
  cases k <;> rfl

/-- What concerns a view is no input. -/
@[simp] theorem inputs_outline (k : Kind) : k.outline.inputs = k.inputs := by
  cases k <;> rfl

/-- Memory does not enter a value computed from others alone. -/
@[simp] theorem compute?_plan (read : Tag → Option Float) (k : Kind) :
    k.plan.compute? read = k.compute? read := by
  cases k <;> rfl

/-- Memory is no input. -/
@[simp] theorem inputs_plan (k : Kind) : k.plan.inputs = k.inputs := by
  cases k <;> rfl

/-- Memory does not make a call. -/
@[simp] theorem isCall_plan (k : Kind) : k.plan.isCall = k.isCall := by
  cases k <;> rfl

/-- An expression has no view. -/
theorem outline_eq_expression {k : Kind} {tree : Expr} :
    k.outline = .expression tree ↔ k = .expression tree := by
  cases k <;> simp [outline]

/-- An expression has no memory. -/
theorem plan_eq_expression {k : Kind} {tree : Expr} :
    k.plan = .expression tree ↔ k = .expression tree := by
  cases k <;> simp [plan]

/-- A kind without inputs computes zero, if it is no expression. -/
theorem compute?_of_inputs_eq_nil {read : Tag → Option Float} {k : Kind} {x : Float}
    (h : k.inputs = []) (hk : ∀ tree, k ≠ .expression tree) (hx : k.compute? read = some x) :
    x = 0.0 := by
  cases k with
  | interpolation input curve => cases input <;> simp_all [inputs, compute?]
  | arithmetic op inputs =>
    obtain rfl : inputs = [] := h
    exact (Option.some.inj hx).symm
  | expression tree => exact absurd rfl (hk tree)
  | _ => cases hx

end Kind

namespace Graph

/-- What the kind of a node computes from is read by edges, and an expression has an edge at all. -/
structure Wired (g : Graph) (t : Tag) (k : Kind) : Prop where
  inputs : ∀ c ∈ k.inputs, g.edges.Reads t c
  begun : ∀ tree, k = .expression tree → ∃ c, g.edges.Reads t c

/-- The base value of a node is what its kind computes from the values as they are. -/
def Current (g : Graph) (n : Node) : Prop := ∀ x, n.kind.compute? g.value? = some x → n.base = x

/-- A wired node that is not stale is current. -/
structure Consistent (g : Graph) : Prop where
  sound : g.Sound
  callFree : g.CallFree
  current : ∀ t n, g.node? t = some n → g.Wired t n.kind → g.Stale t ∨ g.Current n

/-! ### Announced changes -/

/-- The graph without nodes is consistent. -/
theorem consistent_empty : empty.Consistent where
  sound := sound_empty
  callFree _ _ h := by cases h
  current _ _ h := by cases h

/-- Announced changes keep nodes current that are not stale. -/
theorem Consistent.of_announced {g g' : Graph} (h : g.Consistent) (hs' : g'.Sound)
    (ha : Announced g g') : g'.Consistent := by
  refine ⟨hs', h.callFree.of_announced ha, fun t n' hn' hw => ?_⟩
  by_cases hst : g'.Stale t
  · exact Or.inl hst
  refine Or.inr fun x hx => ?_
  have hm : t ∉ g'.marked := fun hm => hst ⟨t, hm, .refl⟩
  have hchild : ∀ c, g'.edges.Reads t c → g.edges.Reads t c ∧ g'.value? c = g.value? c :=
    fun _ => ha.value?_child hs' h.sound hst
  rcases ha.node t n' hn' with ⟨n, hn, -, hm' | ho⟩ | ⟨hfree, hf⟩
  · exact absurd hm' hm
  · -- the node is as it was, and so is what it computes from
    have hk : n'.kind.outline = n.kind.outline := Node.kind_of_outline ho
    have hin : n'.kind.inputs = n.kind.inputs := by
      rw [← Kind.inputs_outline, hk, Kind.inputs_outline]
    have hw₀ : g.Wired t n.kind := by
      refine ⟨fun c hc => (hchild c (hw.inputs c (hin ▸ hc))).1, fun tree ht => ?_⟩
      rw [← Kind.outline_eq_expression, ← hk, Kind.outline_eq_expression] at ht
      obtain ⟨c, hc⟩ := hw.begun tree ht
      exact ⟨c, (hchild c hc).1⟩
    have hx₀ : n.kind.compute? g.value? = some x := by
      rw [← hx, ← Kind.compute?_outline _ n'.kind, hk, Kind.compute?_outline]
      refine Kind.compute?_congr fun c hc => ?_
      exact (hchild c (hw.inputs c (hin ▸ hc))).2.symm
    rcases h.current t n hn hw₀ with hst₀ | hc
    · exact absurd (ha.stale hs' hst₀ (contains_of_node? hn')) hst
    · exact (Node.base_of_outline ho).trans (hc x hx₀)
  · -- a new node has no edges yet
    have hnone : ∀ c, ¬g'.edges.Reads t c := ha.not_reads_of_new hs' h.sound hst hfree
    have hin : n'.kind.inputs = [] :=
      List.eq_nil_iff_forall_not_mem.2 fun c hc => hnone c (hw.inputs c hc)
    have hne : ∀ tree, n'.kind ≠ .expression tree := by
      intro tree ht
      obtain ⟨c, hc⟩ := hw.begun tree ht
      exact hnone c hc
    rcases hf.start with hv | ⟨hb, -⟩
    · rw [hv] at hx
      cases hx
    · rw [hb, Kind.compute?_of_inputs_eq_nil hin hne hx]

/-! ### A propagation -/

section Pass

variable {g g' : Graph}

/-- Without calls nothing is handed to other nodes. -/
theorem CallFree.handedAll_eq_nil (h : g.CallFree) (ts : List Tag) : g.handedAll ts = [] := by
  refine List.eq_nil_iff_forall_not_mem.2 fun w hw => ?_
  obtain ⟨t, -, n, p, hn, hp, -⟩ := exists_proc_of_mem_handedAll hw
  have hc := h t n hn
  rw [hp] at hc
  cases hc

/-- Without calls only the nodes computed change their base values. -/
theorem CallFree.base?_evaluateAll (h : g.CallFree) {ts : List Tag} {u : Tag} (hu : u ∉ ts) :
    (g.evaluateAll ts).1.base? u = g.base? u := by
  rw [Graph.base?_evaluateAll ts g hu, h.handedAll_eq_nil]
  simp [Writes.latest?]

/-- Computing makes no calls. -/
theorem CallFree.of_sameDesign (h : g.CallFree) (hd : SameDesign g g') : g'.CallFree := by
  intro t n' hn'
  obtain ⟨n, hn, hnd⟩ := hd.exists_node? hn'
  have hk : n'.kind.plan = n.kind.plan := congrArg Node.kind hnd
  rw [← Kind.isCall_plan, hk, Kind.isCall_plan]
  exact h t n hn

/-- A node that computing has left its base value has its value. -/
theorem SameDesign.value?_eq (hd : SameDesign g g') {t : Tag} (hb : g'.base? t = g.base? t) :
    g'.value? t = g.value? t := by
  cases hn' : g'.node? t with
  | none =>
    have hnone : g.base? t = none := by rw [← hb, base?, hn', Option.map_none]
    have hn : g.node? t = none := Option.map_eq_none_iff.1 hnone
    rw [value?, value?, hn, hn']
  | some n' =>
    obtain ⟨n, hn, hnd⟩ := hd.exists_node? hn'
    have hf : n'.offset = n.offset := congrArg (fun n => n.offset) hnd
    rw [base?, base?, hn, hn', Option.map_some, Option.map_some, Option.some.injEq] at hb
    rw [value?, value?, hn, hn', Option.map_some, Option.map_some, Node.value, Node.value, hb, hf]

/-- Computing a node stores what its kind computes from the values of others. -/
theorem base?_evaluate_self {t : Tag} {n : Node} {x : Float} (hn : g.node? t = some n)
    (hc : n.kind.isCall = false) (hx : n.kind.compute? g.value? = some x) :
    (g.evaluate t).1.base? t = some x := by
  obtain ⟨hn', -⟩ | ⟨m, hm, hcases⟩ := evaluate_cases g t
  · rw [hn] at hn'
    cases hn'
  · obtain rfl : n = m := Option.some.inj (hn.symm.trans hm)
    obtain ⟨input, clamp, hk, -⟩ | ⟨p, hk, -⟩ | ⟨-, he⟩ := hcases
    · rw [hk] at hx
      cases hx
    · rw [hk] at hc
      cases hc
    · rw [he, hx]
      show (g.store t x).base? t = some x
      rw [base?_store, if_pos rfl, base?, hn, Option.map_some, Option.map_some]

/-- Computing nodes in an order of evaluation makes each of them current: what it reads has been
computed before, and does not change any more. -/
theorem current_evaluateAll {ts : List Tag} (hc : g.CallFree) (hself : ∀ t, ¬g.edges.Reads t t)
    (hd : ts.Nodup) (ho : ts.Pairwise fun a b => ¬g.edges.Reads a b) {t : Tag} (ht : t ∈ ts)
    {n : Node} (hn : (g.evaluateAll ts).1.node? t = some n)
    (hw : ∀ c ∈ n.kind.inputs, g.edges.Reads t c) : (g.evaluateAll ts).1.Current n := by
  induction ts generalizing g with
  | nil => exact absurd ht List.not_mem_nil
  | cons u us ih =>
    rw [List.nodup_cons] at hd
    rw [List.pairwise_cons] at ho
    have hd₁ : SameDesign g (g.evaluate u).1 := sameDesign_evaluate g u
    have hc₁ : (g.evaluate u).1.CallFree := hc.of_sameDesign hd₁
    change ((g.evaluate u).1.evaluateAll us).1.node? t = some n at hn
    show ((g.evaluate u).1.evaluateAll us).1.Current n
    rcases List.mem_cons.1 ht with rfl | ht
    · have hd₂ : SameDesign (g.evaluate t).1 ((g.evaluate t).1.evaluateAll us).1 :=
        sameDesign_evaluateAll us _
      obtain ⟨n₀, hn₀, hnd⟩ := (hd₁.trans hd₂).exists_node? hn
      have hk : n.kind.plan = n₀.kind.plan := congrArg Node.kind hnd
      intro x hx
      have hin :
          ∀ c ∈ n₀.kind.inputs, ((g.evaluate t).1.evaluateAll us).1.value? c = g.value? c := by
        intro c hcin
        have hr : g.edges.Reads t c := hw c (by rwa [← Kind.inputs_plan, hk, Kind.inputs_plan])
        have hct : c ≠ t := by
          rintro rfl
          exact hself c hr
        have hcu : c ∉ us := fun hcu => ho.1 c hcu hr
        refine (hd₁.trans hd₂).value?_eq ?_
        have hone : (g.evaluateAll [t]).1.base? c = g.base? c :=
          hc.base?_evaluateAll (by simpa using hct)
        exact (hc₁.base?_evaluateAll hcu).trans hone
      have hx₀ : n₀.kind.compute? g.value? = some x := by
        rw [← hx, ← Kind.compute?_plan _ n.kind, hk, Kind.compute?_plan]
        exact (Kind.compute?_congr hin).symm
      have hb := base?_evaluate_self hn₀ (hc t n₀ hn₀) hx₀
      rw [← hc₁.base?_evaluateAll hd.1, base?, hn] at hb
      exact Option.some.inj hb
    · refine ih hc₁ ?_ hd.2 ?_ ht hn ?_
      · rw [hd₁.edges]
        exact hself
      · rw [hd₁.edges]
        exact ho.2
      · rw [hd₁.edges]
        exact hw

/-- A propagation computes what is stale. -/
theorem mem_affected_iff (hs : g.Sound) {t : Tag} : t ∈ g.affected ↔ g.Stale t := by
  rw [affected, Edges.mem_order_iff hs.mirrored _ hs.acyclic]
  constructor
  · rintro ⟨m, hm, hd⟩
    exact ⟨m, (List.mem_filter.1 hm).1, hd⟩
  · rintro ⟨m, hm, hd⟩
    exact ⟨m, List.mem_filter.2 ⟨hm, hs.marked_live m hm⟩, hd⟩

/-- After a propagation every wired node is current. -/
theorem Consistent.current_propagate (h : g.Consistent) {t : Tag} {n : Node}
    (hn : g.propagate.1.node? t = some n) (hw : g.propagate.1.Wired t n.kind) :
    g.propagate.1.Current n := by
  have hd : SameDesign { g with marked := ∅ } g.propagate.1 := sameDesign_propagate g
  have hinputs : ∀ c ∈ n.kind.inputs, g.edges.Reads t c := fun c hc => hd.edges ▸ hw.inputs c hc
  by_cases ht : t ∈ g.affected
  · refine current_evaluateAll (g := { g with marked := ∅ }) h.callFree (fun u hu => ?_) ?_ ?_ ht
      hn hinputs
    · exact h.sound.acyclic u (.single hu)
    · exact Edges.nodup_order h.sound.mirrored _
    · exact Edges.pairwise_order h.sound.mirrored _
  · -- nothing below is computed, so all of it is as it was
    have hsame : ∀ c, c ∉ g.affected → g.propagate.1.base? c = g.base? c := fun c hc =>
      CallFree.base?_evaluateAll (g := { g with marked := ∅ }) h.callFree hc
    obtain ⟨n₀, hn₀, hnd⟩ := hd.exists_node? hn
    have hk : n.kind.plan = n₀.kind.plan := congrArg Node.kind hnd
    have hb : n.base = n₀.base := by
      have hbt := hsame t ht
      rw [base?, base?, hn, show g.node? t = some n₀ from hn₀] at hbt
      exact Option.some.inj hbt
    have hw₀ : g.Wired t n₀.kind := by
      refine ⟨fun c hc => hinputs c ?_, fun tree htree => ?_⟩
      · rwa [← Kind.inputs_plan, hk, Kind.inputs_plan]
      · rw [← Kind.plan_eq_expression, ← hk, Kind.plan_eq_expression] at htree
        obtain ⟨c, hc⟩ := hw.begun tree htree
        exact ⟨c, hd.edges ▸ hc⟩
    rw [mem_affected_iff h.sound] at ht
    intro x hx
    have hx₀ : n₀.kind.compute? g.value? = some x := by
      rw [← hx, ← Kind.compute?_plan _ n.kind, hk, Kind.compute?_plan]
      refine Kind.compute?_congr fun c hc =>
        (SameDesign.value?_eq hd (hsame c fun hca => ht ?_)).symm
      exact Stale.above ((mem_affected_iff h.sound).1 hca) (.single (hw₀.inputs c hc))
    rw [hb]
    exact ((h.current t n₀ hn₀ hw₀).resolve_left ht) x hx₀

/-- A propagation keeps graphs consistent. -/
theorem Consistent.propagate (h : g.Consistent) : g.propagate.1.Consistent where
  sound := h.sound.perform (r := .propagate) rfl
  callFree :=
    CallFree.of_sameDesign (g := { g with marked := ∅ }) h.callFree (sameDesign_propagate g)
  current _ _ hn hw := Or.inr (h.current_propagate hn hw)

end Pass

/-! ### Runs -/

/-- Whether all of several requests that are not refused may be asked, each when its turn comes. -/
def PermitsAll (g : Graph) : List Request → Prop
  | [] => True
  | r :: rs => ((g.perform r).isOk = true → g.Permits r) ∧ (g.after r).PermitsAll rs

instance decidablePermitsAll : ∀ (g : Graph) (rs : List Request), Decidable (g.PermitsAll rs)
  | _, [] => .isTrue trivial
  | g, r :: rs =>
    have := decidablePermitsAll (g.after r) rs
    inferInstanceAs
      (Decidable (((g.perform r).isOk = true → g.Permits r) ∧ (g.after r).PermitsAll rs))

section Permitted

variable {P : Graph → Prop} (sound : ∀ g, P g → g.Sound)
  (announced : ∀ g g', P g → g'.Sound → Announced g g' → P g')
  (propagate : ∀ g, P g → P g.propagate.1)

include sound announced propagate

/-- What announced changes and propagations keep, permitted requests keep. -/
theorem perform_induction {g g' : Graph} (h : P g) {r : Request} (hp : g.Permits r)
    (hg : g.perform r = .ok g') : P g' := by
  have hs : g.Sound := sound g h
  cases hr : r.isCompound with
  | false => exact announced g g' h (hs.perform hg) (.perform hs hp hr hg)
  | true =>
    cases r with
    | propagate =>
      cases hg
      exact propagate g h
    | applyWrites writes =>
      cases hg
      exact applyWrites_induction
        (fun g _ _ _ _ h hr => announced g _ h ((sound g h).setBase hr) (.setBase hr)) h
    | _ => cases hr

/-- **What announced changes and propagations keep, permitted runs keep.** -/
theorem afterAll_induction {g : Graph} (h : P g) {rs : List Request} (hp : g.PermitsAll rs) :
    P (g.afterAll rs) := by
  induction rs generalizing g with
  | nil => exact h
  | cons r rs ih =>
    refine ih ?_ hp.2
    unfold after
    split
    · next hg => exact perform_induction sound announced propagate h (hp.1 (by rw [hg]; rfl)) hg
    · exact h

end Permitted

/-- Permitted runs keep graphs consistent. -/
theorem Consistent.afterAll {g : Graph} (h : g.Consistent) {rs : List Request}
    (hp : g.PermitsAll rs) : (g.afterAll rs).Consistent :=
  afterAll_induction (P := Consistent) (fun _ h => h.sound) (fun _ _ h => h.of_announced)
    (fun _ h => h.propagate) h hp

/-- **Propagation agrees with computing everything again**: right after a propagation in a permitted
run, every arithmetic node, every interpolation node with an input and every expression node with an
edge has the base value that its own function gives for the values of the others as they are, if it
reads these by edges. -/
theorem base_after_propagate {rs : List Request} (hp : empty.PermitsAll rs) {g : Graph}
    (hg : g = (empty.afterAll rs).propagate.1) {t : Tag} {n : Node} (hn : g.node? t = some n) :
    (∀ op inputs, n.kind = .arithmetic op inputs → (∀ c ∈ inputs, g.edges.Reads t c) →
      n.base = op.fold (inputs.filterMap g.value?)) ∧
    (∀ input curve, n.kind = .interpolation (some input) curve → g.edges.Reads t input →
      n.base = curve.evaluate (g.read input)) ∧
    (∀ tree, n.kind = .expression tree → (∃ c, g.edges.Reads t c) →
      (∀ c ∈ tree.leaves, g.edges.Reads t c) → n.base = (tree.evaluate g.value?).1) := by
  subst hg
  have hcur := (consistent_empty.afterAll hp).current_propagate hn
  refine ⟨fun op inputs hk hin => ?_, fun input curve hk hin => ?_, fun tree hk hbegun hin => ?_⟩
  · exact hcur ⟨by rwa [hk], fun tree ht => by rw [hk] at ht; cases ht⟩ _ (by rw [hk]; rfl)
  · refine hcur ⟨fun c hc => ?_, fun tree ht => by rw [hk] at ht; cases ht⟩ _ (by rw [hk]; rfl)
    rw [hk] at hc
    exact List.mem_singleton.1 hc ▸ hin
  · exact hcur ⟨by rwa [hk], fun _ _ => hbegun⟩ _ (by rw [hk]; rfl)

/-- A sum of two values is propagated; then one of them is set and the other one dropped. -/
def sumRun : List Request :=
  [.make ⟨1⟩ (.value 1.0 0.0), .make ⟨2⟩ (.value 2.0 0.0), .make ⟨3⟩ (.arithmetic .addition []),
   .connect ⟨3⟩ ⟨1⟩, .connect ⟨3⟩ ⟨2⟩, .propagate, .setBase ⟨1⟩ 5.0, .drop ⟨2⟩ []]

/-- The sum is that of the value that is left. -/
theorem sumRun_after_propagate :
    empty.PermitsAll sumRun ∧
      ∃ n, (empty.afterAll sumRun).propagate.1.node? ⟨3⟩ = some n ∧
        n.kind = .arithmetic .addition [⟨1⟩] ∧
        (empty.afterAll sumRun).propagate.1.edges.Reads ⟨3⟩ ⟨1⟩ ∧
        n.base = Arithmetic.addition.fold
          ([⟨1⟩].filterMap (empty.afterAll sumRun).propagate.1.value?) := by
  have hp : empty.PermitsAll sumRun := by decide +kernel
  have hk : ((empty.afterAll sumRun).propagate.1.node? ⟨3⟩).map Node.kind =
      some (.arithmetic .addition [⟨1⟩]) := by with_unfolding_all rfl
  have hr : (empty.afterAll sumRun).propagate.1.edges.Reads ⟨3⟩ ⟨1⟩ := by decide +kernel
  obtain ⟨n, hn, hk⟩ := Option.map_eq_some_iff.1 hk
  refine ⟨hp, n, hn, hk, hr, (base_after_propagate hp rfl hn).1 _ _ hk fun c hc => ?_⟩
  exact List.mem_singleton.1 hc ▸ hr

end Graph

end MotionGraph
