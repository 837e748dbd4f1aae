import MotionGraph.Proofs.Graph.Requests

/-!
# What computing nodes leaves alone

Computing nodes changes base values and the memory of diff-clamps, and nothing else: the edges, the
marks and the design of every node, which is all the rest of it, stay (`sameDesign_evaluateAll`).
The pass lists the computed nodes in the order given (`recomputed_evaluateAll`).
-/

namespace MotionGraph

/-- A kind without what it remembers of earlier inputs. -/
def Kind.plan : Kind → Kind
  | .diffClamp input clamp => .diffClamp input clamp.restart
  | k => k

/-- A node without its base value and its memory. -/
def Node.design (n : Node) : Node := { n with kind := n.kind.plan, base := 0.0 }

namespace Kind

/-- Memory does not make a sink. -/
@[simp] theorem isSink_plan (k : Kind) : k.plan.isSink = k.isSink := by
  cases k <;> rfl

/-- Taking an input does not make a sink. -/
@[simp] theorem isSink_attach (child : Tag) (k : Kind) : (k.attach child).isSink = k.isSink := by
  fun_cases Kind.attach child k <;> rfl

/-- Forgetting a node does not make a sink. -/
@[simp] theorem isSink_forget (child : Tag) (k : Kind) : (k.forget child).isSink = k.isSink := by
  fun_cases Kind.forget child k <;> simp_all [Kind.isSink]

/-- Memory does not decide whether there is a number to set. -/
@[simp] theorem holdsValue_plan (k : Kind) : k.plan.holdsValue = k.holdsValue := by
  cases k <;> rfl

end Kind

namespace Graph

/-- Two graphs that differ in base values and memories at most. -/
structure SameDesign (g g' : Graph) : Prop where
  edges : g'.edges = g.edges
  marked : g'.marked = g.marked
  node : ∀ t, (g'.node? t).map Node.design = (g.node? t).map Node.design

namespace SameDesign

variable {g g' g'' : Graph}

/-- A graph is designed as it is. -/
theorem refl (g : Graph) : SameDesign g g := ⟨rfl, rfl, fun _ => rfl⟩

/-- Sameness of design goes on from step to step. -/
theorem trans (h : SameDesign g g') (h' : SameDesign g' g'') : SameDesign g g'' :=
  ⟨h'.edges.trans h.edges, h'.marked.trans h.marked, fun t => (h'.node t).trans (h.node t)⟩

/-- A rewriting that keeps designs keeps that of the graph. -/
theorem update (g : Graph) (t : Tag) {f : Node → Node}
    (h : ∀ n, g.node? t = some n → (f n).design = n.design) : SameDesign g (g.update t f) := by
  refine ⟨rfl, rfl, fun u => ?_⟩
  rw [node?_update]
  by_cases hu : u = t
  · subst hu
    cases hn : g.node? u with
    | none => simp
    | some n => simp [h n hn]
  · simp [hu]

/-- The node of a name has a counterpart of the same design. -/
theorem exists_node? (h : SameDesign g g') {t : Tag} {n' : Node} (hn : g'.node? t = some n') :
    ∃ n, g.node? t = some n ∧ n'.design = n.design := by
  have ht := h.node t
  rw [hn, Option.map_some, eq_comm, Option.map_eq_some_iff] at ht
  obtain ⟨n, hn, hd⟩ := ht
  exact ⟨n, hn, hd.symm⟩

/-- Same nodes are there. -/
theorem contains (h : SameDesign g g') (t : Tag) : g'.contains t = g.contains t := by
  have ht := congrArg Option.isSome (h.node t)
  simpa [contains_eq_isSome] using ht

end SameDesign

/-! ### Computing nodes -/

/-- Storing a value keeps the design. -/
theorem sameDesign_store (g : Graph) (t : Tag) (x : Float) : SameDesign g (g.store t x) :=
  .update g t fun _ _ => rfl

/-- Handing values to nodes keeps the design. -/
theorem sameDesign_handOver (values : Writes) (g : Graph) :
    SameDesign g (values.foldl (fun g (b : Tag × Float) =>
      g.update b.1 fun n => if n.holdsValue then n.setBase b.2 else n) g) := by
  induction values generalizing g with
  | nil => exact .refl g
  | cons b values ih =>
    rw [List.foldl_cons]
    refine SameDesign.trans (.update g b.1 fun n _ => ?_) (ih _)
    split <;> rfl

/-- A call keeps the design. -/
theorem sameDesign_call (g : Graph) (t : Tag) (p : Proc) : SameDesign g (g.call t p).1 := by
  have hb : SameDesign g (g.bind p) := sameDesign_handOver _ g
  unfold call
  cases p.expression with
  | none => exact hb
  | some callee =>
    dsimp only
    split
    · exact hb.trans ((sameDesign_store _ callee _).trans (sameDesign_store _ t _))
    · exact hb

/-- Computing a node does nothing to the graph if there is no such node, advances a diff-clamp that
has an input, carries out a call, and else stores the value that the kind computes, if any. -/
theorem evaluate_cases (g : Graph) (t : Tag) :
    (g.node? t = none ∧ (g.evaluate t).1 = g) ∨
      ∃ n, g.node? t = some n ∧
        ((∃ input clamp, n.kind = .diffClamp (some input) clamp ∧
            (g.evaluate t).1 = g.update t fun m =>
              { m with
                kind := .diffClamp (some input) (clamp.step n.base (g.read input)).1
                base := (clamp.step n.base (g.read input)).2 }) ∨
          (∃ p, n.kind = .proc p ∧ (g.evaluate t).1 = (g.call t p).1) ∨
          ((∀ p, n.kind ≠ .proc p) ∧
            (g.evaluate t).1 =
              match n.kind.compute? g.value? with
              | some x => g.store t x
              | none => g)) := by
  cases hn : g.node? t with
  | none => exact Or.inl ⟨rfl, by simp only [evaluate, hn]⟩
  | some n =>
    refine Or.inr ⟨n, rfl, ?_⟩
    simp only [evaluate, hn]
    split
    · next input clamp hk => exact Or.inl ⟨input, clamp, hk, rfl⟩
    · next p hk => exact Or.inr (Or.inl ⟨p, hk, rfl⟩)
    · next hp =>
      refine Or.inr (Or.inr ⟨hp, ?_⟩)
      cases n.kind.compute? g.value? <;> rfl

/-- Computing a node keeps the design. -/
theorem sameDesign_evaluate (g : Graph) (t : Tag) : SameDesign g (g.evaluate t).1 := by
  obtain ⟨-, he⟩ | ⟨n, hn, ⟨input, clamp, hk, he⟩ | ⟨p, -, he⟩ | ⟨-, he⟩⟩ := evaluate_cases g t
  · rw [he]
    exact .refl g
  · rw [he]
    refine .update g t fun m hm => ?_
    obtain rfl : n = m := Option.some.inj (hn.symm.trans hm)
    simp [Node.design, hk, Kind.plan, DiffClamp.step, DiffClamp.restart]
  · rw [he]
    exact sameDesign_call g t p
  · rw [he]
    split
    · exact sameDesign_store g t _
    · exact .refl g

/-- Computing several nodes keeps the design. -/
theorem sameDesign_evaluateAll (ts : List Tag) (g : Graph) : SameDesign g (g.evaluateAll ts).1 := by
  induction ts generalizing g with
  | nil => exact .refl g
  | cons t ts ih => exact (sameDesign_evaluate g t).trans (ih _)

/-- A propagation takes the marks away and keeps all other design. -/
theorem sameDesign_propagate (g : Graph) : SameDesign { g with marked := ∅ } g.propagate.1 :=
  sameDesign_evaluateAll _ _

/-- Computing a node lists it. -/
theorem recomputed_evaluate (g : Graph) (t : Tag) : (g.evaluate t).2.recomputed = [t] := by
  unfold evaluate
  split
  · rfl
  · split
    · rfl
    · rfl
    · dsimp only
      split <;> rfl

/-- Computing several nodes lists them in order. -/
theorem recomputed_evaluateAll (ts : List Tag) (g : Graph) :
    (g.evaluateAll ts).2.recomputed = ts := by
  induction ts generalizing g with
  | nil => rfl
  | cons t ts ih =>
    show (g.evaluate t).2.recomputed ++ ((g.evaluate t).1.evaluateAll ts).2.recomputed = t :: ts
    rw [recomputed_evaluate, ih]
    rfl

/-- Computing a props node notes it. -/
theorem mem_sinks_evaluate {g : Graph} {t : Tag} {n : Node} (hn : g.node? t = some n)
    (hs : n.isSink = true) : t ∈ (g.evaluate t).2.sinks := by
  obtain ⟨p, hp⟩ : ∃ p, n.kind = .props p := by
    unfold Node.isSink Kind.isSink at hs
    split at hs
    · next p hp => exact ⟨p, hp⟩
    · cases hs
  simp [evaluate, hn, hp, Kind.compute?, Kind.isSink]

/-- Computing several nodes notes all props nodes among them. -/
theorem mem_sinks_evaluateAll {ts : List Tag} {g : Graph} {t : Tag} (ht : t ∈ ts) {n : Node}
    (hn : g.node? t = some n) (hs : n.isSink = true) : t ∈ (g.evaluateAll ts).2.sinks := by
  induction ts generalizing g n with
  | nil => exact absurd ht List.not_mem_nil
  | cons u us ih =>
    show t ∈ (g.evaluate u).2.sinks.insertAll ((g.evaluate u).1.evaluateAll us).2.sinks.toList
    rw [OrderedSet.mem_insertAll]
    rcases List.mem_cons.1 ht with rfl | ht
    · exact Or.inl (mem_sinks_evaluate hn hs)
    · have hd := (sameDesign_evaluate g u).node t
      rw [hn, Option.map_some, Option.map_eq_some_iff] at hd
      obtain ⟨n', hn', hd⟩ := hd
      refine Or.inr (ih ht hn' ?_)
      have hk : n'.kind.plan = n.kind.plan := congrArg Node.kind hd
      rw [Node.isSink, ← Kind.isSink_plan, hk, Kind.isSink_plan]
      exact hs

/-- A propagation lists what it computes. -/
theorem recomputed_propagate (g : Graph) : g.propagate.2.recomputed = g.affected :=
  recomputed_evaluateAll _ _

end Graph

end MotionGraph
