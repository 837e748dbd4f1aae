import MotionGraph.Proofs.Graph.Evaluation

/-!
# What calls write into other nodes

Computing a node stores a value in it, and a call also writes into other nodes: the values of its
inputs into the receivers, and its result into the node that holds the expression. `Graph.handed`
lists these writes, and `Graph.handedOver` those of a whole propagation.

A node that a propagation does not compute has afterwards the base value last handed to it, or else
the one it had (`base?_propagate`). So its base value changes without being listed exactly when the
value last handed to it is another one (`change_listed_iff`), and this needs a call among the
computed nodes that names it (`computed_or_named`). It does happen: the receiver of `boundCall` and
its expression change and are not listed.
-/

namespace MotionGraph

namespace Writes

/-- Of two lists of writes the second decides, and the first where the second is silent. -/
theorem latest?_append (v w : Writes) (t : Tag) :
    latest? (v ++ w) t = (latest? w t).or (latest? v t) := by
  simp only [latest?, List.reverse_append, List.find?_append]
  cases w.reverse.find? fun e => e.1 = t <;> simp

/-- A single write. -/
theorem latest?_singleton (u t : Tag) (x : Float) :
    latest? [(u, x)] t = if u = t then some x else none := by
  by_cases h : u = t <;> simp [latest?, h]

/-- A write before others counts where they are silent. -/
theorem latest?_cons (w : Tag × Float) (ws : Writes) (t : Tag) :
    latest? (w :: ws) t = (latest? ws t).or (if w.1 = t then some w.2 else none) := by
  rw [← List.singleton_append, latest?_append, ← latest?_singleton]

/-- The value last written has been written. -/
theorem mem_of_latest? {ws : Writes} {t : Tag} {x : Float} (h : latest? ws t = some x) :
    (t, x) ∈ ws := by
  obtain ⟨⟨u, y⟩, hf, rfl⟩ := Option.map_eq_some_iff.1 h
  have ht := List.find?_some hf
  simp only [decide_eq_true_eq] at ht
  subst ht
  exact List.mem_reverse.1 (List.mem_of_find?_eq_some hf)

end Writes

namespace Graph

/-- The base value of a node. -/
def base? (g : Graph) (t : Tag) : Option Float := (g.node? t).map Node.base

/-- Whether there is a node of a name that holds a number. -/
def holds (g : Graph) (t : Tag) : Bool := ((g.node? t).map Node.holdsValue).getD false

/-- What a call hands to the receivers of its inputs, as far as they are there and hold numbers. -/
def bound (g : Graph) (p : Proc) : Writes :=
  (p.bindings.map fun b => (b.2, g.read b.1)).filter fun w => g.holds w.1

/-- What a call hands to the node that holds the expression, once the inputs are handed over. -/
def answered (g : Graph) (p : Proc) : Writes :=
  match p.expression with
  | none => []
  | some callee =>
    match ((g.bind p).node? callee).map Node.kind with
    | some (.expression tree) => [(callee, (tree.evaluate (g.bind p).value?).1)]
    | _ => []

/-- What computing a node writes into other nodes. -/
def handed (g : Graph) (t : Tag) : Writes :=
  match (g.node? t).map Node.kind with
  | some (.proc p) => g.bound p ++ g.answered p
  | _ => []

/-- What computing several nodes one after the other writes into other nodes. -/
def handedAll (g : Graph) : List Tag → Writes
  | [] => []
  | t :: ts => g.handed t ++ handedAll (g.evaluate t).1 ts

/-- What a propagation writes into other nodes than those it is computing. -/
def handedOver (g : Graph) : Writes := ({ g with marked := ∅ } : Graph).handedAll g.affected

/-! ### Base values after computing -/

/-- Storing a value changes the base value of that node alone. -/
theorem base?_store (g : Graph) (t u : Tag) (x : Float) :
    (g.store t x).base? u = if u = t then (g.base? u).map fun _ => x else g.base? u := by
  unfold store base?
  rw [node?_update]
  split
  · rw [Option.map_map, Option.map_map]
    rfl
  · rfl

/-- Handing values over does not decide who holds numbers. -/
theorem holds_of_sameDesign {g g' : Graph} (h : SameDesign g g') (t : Tag) :
    g'.holds t = g.holds t := by
  have hv : Node.holdsValue ∘ Node.design = Node.holdsValue :=
    funext fun n => Kind.holdsValue_plan n.kind
  have ht := congrArg (Option.map Node.holdsValue) (h.node t)
  rw [Option.map_map, Option.map_map, hv] at ht
  rw [holds, holds, ht]

/-- Handing one value over changes the base value of a node that holds a number. -/
theorem base?_hand (g : Graph) (t u : Tag) (x : Float) :
    (g.update t fun n => if n.holdsValue then n.setBase x else n).base? u =
      if u = t ∧ g.holds t = true then (g.base? u).map fun _ => x else g.base? u := by
  unfold base? holds
  rw [node?_update]
  by_cases hu : u = t
  · subst hu
    cases g.node? u with
    | none => simp
    | some n =>
      cases hv : n.holdsValue <;> simp [hv, Node.setBase]
  · simp [hu]

/-- Of several values handed over the last one to a node stays. -/
theorem base?_handOver (ws : Writes) (g : Graph) (u : Tag) :
    (ws.foldl (fun g (b : Tag × Float) =>
        g.update b.1 fun n => if n.holdsValue then n.setBase b.2 else n) g).base? u =
      (g.base? u).map fun y => (Writes.latest? (ws.filter fun w => g.holds w.1) u).getD y := by
  induction ws generalizing g with
  | nil => simp [Writes.latest?]
  | cons w ws ih =>
    have hd : SameDesign g (g.update w.1 fun n => if n.holdsValue then n.setBase w.2 else n) := by
      refine .update g w.1 fun n _ => ?_
      split <;> rfl
    rw [List.foldl_cons, ih, base?_hand, List.filter_cons]
    simp only [holds_of_sameDesign hd]
    by_cases hw : g.holds w.1 = true
    · rw [if_pos hw, Writes.latest?_cons]
      by_cases hu : w.1 = u
      · subst hu
        cases g.base? w.1 <;> simp [hw, Option.or_some]
      · simp [hu, Ne.symm hu]
    · simp [hw]

/-- Base values after the inputs of a call are handed over. -/
theorem base?_bind (g : Graph) (p : Proc) (u : Tag) :
    (g.bind p).base? u = (g.base? u).map fun y => ((g.bound p).latest? u).getD y :=
  base?_handOver _ g u

/-- Base values after a call, but for the calling node. -/
theorem base?_call (g : Graph) {t u : Tag} (p : Proc) (h : u ≠ t) :
    (g.call t p).1.base? u =
      (g.base? u).map fun y => ((g.bound p ++ g.answered p).latest? u).getD y := by
  have hbind := base?_bind g p u
  have quiet : g.answered p = [] → (g.bind p).base? u =
      (g.base? u).map fun y => ((g.bound p ++ g.answered p).latest? u).getD y := by
    intro hn
    rw [hn, List.append_nil, hbind]
  unfold call
  cases hp : p.expression with
  | none => exact quiet (by rw [answered, hp])
  | some callee =>
    dsimp only
    split
    · next tree hk =>
      have answer : g.answered p = [(callee, (tree.evaluate (g.bind p).value?).1)] := by
        rw [answered, hp]
        dsimp only
        rw [hk]
      rw [answer, base?_store, if_neg h, base?_store, hbind]
      simp only [Writes.latest?_append, Writes.latest?_singleton]
      by_cases hu : callee = u
      · simp [hu, Function.comp_def]
      · simp [hu, Ne.symm hu]
    · next hk =>
      refine quiet ?_
      rw [answered, hp]
      dsimp only
      split
      · next tree hk' => exact absurd hk' (hk tree)
      · rfl

/-- Base values after computing a node, but for that node. -/
theorem base?_evaluate (g : Graph) {t u : Tag} (h : u ≠ t) :
    (g.evaluate t).1.base? u = (g.base? u).map fun y => ((g.handed t).latest? u).getD y := by
  have same : g.base? u = (g.base? u).map fun y => (Writes.latest? [] u).getD y := by
    simp [Writes.latest?]
  obtain ⟨hn, he⟩ | ⟨n, hn, ⟨input, clamp, hk, he⟩ | ⟨p, hk, he⟩ | ⟨hp, he⟩⟩ := evaluate_cases g t
  · simp only [he, handed, hn, Option.map_none]
    exact same
  · simp only [he, handed, hn, Option.map_some, hk]
    rw [← same, base?, node?_update, if_neg h]
    rfl
  · simp only [he, handed, hn, Option.map_some, hk]
    exact base?_call g p h
  · have hh : g.handed t = [] := by
      simp only [handed, hn, Option.map_some]
      split
      · next p hk => exact absurd (Option.some.inj hk) (hp p)
      · rfl
    rw [he, hh, ← same]
    split
    · rw [base?_store, if_neg h]
    · rfl

/-- Base values after computing several nodes, but for those nodes. -/
theorem base?_evaluateAll (ts : List Tag) (g : Graph) {u : Tag} (h : u ∉ ts) :
    (g.evaluateAll ts).1.base? u =
      (g.base? u).map fun y => ((g.handedAll ts).latest? u).getD y := by
  induction ts generalizing g with
  | nil => simp [evaluateAll, handedAll, Writes.latest?]
  | cons t ts ih =>
    rw [List.mem_cons, not_or] at h
    show ((g.evaluate t).1.evaluateAll ts).1.base? u = _
    rw [ih _ h.2, base?_evaluate g h.1, handedAll]
    simp only [Writes.latest?_append, Option.map_map]
    congr 1
    funext y
    cases ((g.evaluate t).1.handedAll ts).latest? u <;> simp

/-- A node that a propagation does not compute keeps its base value, but for what is handed to
it. -/
theorem base?_propagate (g : Graph) {t : Tag} (h : t ∉ g.propagate.2.recomputed) :
    g.propagate.1.base? t = (g.base? t).map fun y => (g.handedOver.latest? t).getD y := by
  rw [recomputed_propagate] at h
  exact base?_evaluateAll g.affected { g with marked := ∅ } h

/-! ### Who hands values over -/

/-- Values are handed over by calls alone, and to nodes that the call names. -/
theorem exists_proc_of_mem_handed {g : Graph} {t u : Tag} {x : Float} (h : (u, x) ∈ g.handed t) :
    ∃ n p, g.node? t = some n ∧ n.kind = .proc p ∧
      (u ∈ p.bindings.map Prod.snd ∨ p.expression = some u) := by
  unfold handed at h
  split at h
  · next p hp =>
    obtain ⟨n, hn, hk⟩ := Option.map_eq_some_iff.1 hp
    refine ⟨n, p, hn, hk, ?_⟩
    rcases List.mem_append.1 h with h | h
    · obtain ⟨b, hb, he⟩ := List.mem_map.1 (List.mem_filter.1 h).1
      cases he
      exact Or.inl (List.mem_map_of_mem hb)
    · unfold answered at h
      cases hc : p.expression with
      | none => simp [hc] at h
      | some callee =>
        simp only [hc] at h
        split at h
        · cases List.mem_singleton.1 h
          exact Or.inr rfl
        · exact absurd h List.not_mem_nil
  · exact absurd h List.not_mem_nil

/-- Calls keep their design. -/
theorem SameDesign.exists_proc {g g' : Graph} (h : SameDesign g g') {t : Tag} {n' : Node} {p : Proc}
    (hn : g'.node? t = some n') (hp : n'.kind = .proc p) :
    ∃ n, g.node? t = some n ∧ n.kind = .proc p := by
  obtain ⟨n, hn, hd⟩ := h.exists_node? hn
  refine ⟨n, hn, ?_⟩
  have hk : n'.kind.plan = n.kind.plan := congrArg Node.kind hd
  rw [hp] at hk
  cases hc : n.kind <;> simp_all [Kind.plan]

/-- What computing several nodes hands over is handed over by calls among them. -/
theorem exists_proc_of_mem_handedAll {ts : List Tag} {g : Graph} {u : Tag} {x : Float}
    (h : (u, x) ∈ g.handedAll ts) :
    ∃ t ∈ ts, ∃ n p, g.node? t = some n ∧ n.kind = .proc p ∧
      (u ∈ p.bindings.map Prod.snd ∨ p.expression = some u) := by
  induction ts generalizing g with
  | nil => exact absurd h List.not_mem_nil
  | cons t ts ih =>
    rcases List.mem_append.1 h with h | h
    · exact ⟨t, List.mem_cons_self, exists_proc_of_mem_handed h⟩
    · obtain ⟨c, hc, n', p, hn, hp, hu⟩ := ih h
      obtain ⟨n, hn, hp⟩ := (sameDesign_evaluate g t).exists_proc hn hp
      exact ⟨c, List.mem_cons_of_mem _ hc, n, p, hn, hp, hu⟩

/-! ### Changes in silence -/

/-- A node that changes and is not listed as computed is named by a call that is. -/
theorem computed_or_named {g : Graph} {t : Tag} (h : g.propagate.1.base? t ≠ g.base? t) :
    t ∈ g.propagate.2.recomputed ∨
      ∃ c ∈ g.propagate.2.recomputed, ∃ n p, g.node? c = some n ∧ n.kind = .proc p ∧
        (t ∈ p.bindings.map Prod.snd ∨ p.expression = some t) := by
  by_cases ht : t ∈ g.propagate.2.recomputed
  · exact Or.inl ht
  · rw [base?_propagate g ht] at h
    cases hl : g.handedOver.latest? t with
    | none => simp [hl] at h
    | some x =>
      have hm : (t, x) ∈ ({ g with marked := ∅ } : Graph).handedAll g.affected :=
        Writes.mem_of_latest? hl
      obtain ⟨c, hc, n, p, hn, hp⟩ := exists_proc_of_mem_handedAll hm
      rw [recomputed_propagate]
      exact Or.inr ⟨c, hc, n, p, hn, hp⟩

/-- **When a change is listed**: the pass lists a node if its base value changes exactly when it
computes the node, or when the value last handed to the node, if any, is the one that it had. -/
theorem change_listed_iff (g : Graph) (t : Tag) :
    (g.propagate.1.base? t ≠ g.base? t → t ∈ g.propagate.2.recomputed) ↔
      t ∈ g.propagate.2.recomputed ∨
        ∀ x, g.handedOver.latest? t = some x → ∀ y, g.base? t = some y → x = y := by
  by_cases ht : t ∈ g.propagate.2.recomputed
  · simp [ht]
  · rw [base?_propagate g ht]
    simp only [ht, imp_false, false_or, ne_eq, not_not]
    cases g.base? t with
    | none => simp
    | some y => cases g.handedOver.latest? t <;> simp

/-- A call with one input `2` and one receiver `1`, which the expression reads; the input is set. -/
def boundCall : List Request :=
  [.make ⟨1⟩ (.value 0.0 0.0), .make ⟨2⟩ (.value 0.0 0.0), .make ⟨3⟩ (.expression (.value ⟨1⟩)),
   .make ⟨4⟩ (.proc ⟨3⟩ [⟨2⟩] [⟨1⟩]), .connect ⟨4⟩ ⟨2⟩, .setBase ⟨2⟩ 5.0]

/-- The receiver and the expression change from zero to five, and neither is listed. -/
theorem boundCall_changes_in_silence :
    let g := empty.afterAll boundCall
    g.propagate.2.recomputed = [⟨2⟩, ⟨4⟩] ∧
      g.base? ⟨1⟩ = some 0.0 ∧ g.propagate.1.base? ⟨1⟩ = some 5.0 ∧
      g.base? ⟨3⟩ = some 0.0 ∧ g.propagate.1.base? ⟨3⟩ = some 5.0 := by
  decide +kernel

end Graph

end MotionGraph
