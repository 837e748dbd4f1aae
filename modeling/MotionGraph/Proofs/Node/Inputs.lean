import Mathlib.Data.List.Basic
import MotionGraph.Graph.Propagation
import MotionGraph.Node.Config

/-!
# What the computed value of a node depends on

`Kind.inputs` lists the nodes whose values a kind computes from, and `Kind.references` all nodes
that it refers to in any way. The computed value depends on the values of the inputs alone
(`Kind.compute?_congr`), and forgetting a node matters only to a kind that refers to it
(`Kind.forget_of_notMem`).

For expressions both are inductions over the tree: `Expr.leaves` are the reads of a tree, and
`Expr.mentions` also the targets of its writes.
-/

namespace MotionGraph

namespace Expr

/-! ### Reads of an expression -/

mutual

/-- The nodes whose values a tree reads, a node as often as it is read. -/
def leaves : Expr → List Tag
  | .fold _ operands => leavesAll operands
  | .unary _ e => leaves e
  | .compare _ l r => leaves l ++ leaves r
  | .value tag => [tag]
  | .number _ => []
  | .cond test yes no => leaves test ++ leaves yes ++ leaves no
  | .set _ source => leaves source
  | .block steps => leavesAll steps
termination_by structural e => e

/-- The nodes whose values several trees read. -/
def leavesAll : List Expr → List Tag
  | [] => []
  | e :: es => leaves e ++ leavesAll es
termination_by structural es => es

end

variable {read read' : Tag → Option Float}

mutual

/-- A tree sees nothing of the nodes but the values of its leaves. -/
theorem eval_congr : ∀ (e : Expr) (ws : Writes), (∀ c ∈ e.leaves, read c = read' c) →
    e.eval read ws = e.eval read' ws
  | .fold op operands, ws, h => evalFold_congr op operands ws h
  | .unary op e, ws, h => by
    simp only [eval, eval_congr e ws h]
  | .compare op l r, ws, h => by
    have hl := fun ws => eval_congr l ws fun c hc => h c (List.mem_append_left _ hc)
    have hr := fun ws => eval_congr r ws fun c hc => h c (List.mem_append_right _ hc)
    simp only [eval, hl, hr]
  | .value tag, ws, h => by
    simp only [eval, readThrough, h tag List.mem_cons_self]
  | .number x, ws, h => rfl
  | .cond test yes no, ws, h => by
    have ht := fun ws => eval_congr test ws fun c hc => h c (by simp [leaves, hc])
    have hy := fun ws => eval_congr yes ws fun c hc => h c (by simp [leaves, hc])
    have hn := fun ws => eval_congr no ws fun c hc => h c (by simp [leaves, hc])
    simp only [eval, ht, hy, hn]
  | .set target source, ws, h => by
    simp only [eval, eval_congr source ws h]
  | .block steps, ws, h => evalSteps_congr 0.0 steps ws h
termination_by structural e => e

/-- Nor does an operator over its operands. -/
theorem evalFold_congr (op : FoldOp) : ∀ (es : List Expr) (ws : Writes),
    (∀ c ∈ leavesAll es, read c = read' c) → evalFold read op es ws = evalFold read' op es ws
  | [], ws, h => rfl
  | e :: es, ws, h => by
    have he := eval_congr e ws fun c hc => h c (List.mem_append_left _ hc)
    have hes := fun acc ws =>
      evalRest_congr op acc es ws fun c hc => h c (List.mem_append_right _ hc)
    simp only [evalFold, he, hes]
termination_by structural es => es

/-- Nor does an operator over further operands. -/
theorem evalRest_congr (op : FoldOp) : ∀ (acc : Float) (es : List Expr) (ws : Writes),
    (∀ c ∈ leavesAll es, read c = read' c) →
      evalRest read op acc es ws = evalRest read' op acc es ws
  | acc, [], ws, h => rfl
  | acc, e :: es, ws, h => by
    have he := eval_congr e ws fun c hc => h c (List.mem_append_left _ hc)
    have hes := fun acc ws =>
      evalRest_congr op acc es ws fun c hc => h c (List.mem_append_right _ hc)
    simp only [evalRest, he, hes]
termination_by structural _ es => es

/-- Nor does a sequence of steps. -/
theorem evalSteps_congr : ∀ (last : Float) (es : List Expr) (ws : Writes),
    (∀ c ∈ leavesAll es, read c = read' c) →
      evalSteps read last es ws = evalSteps read' last es ws
  | last, [], ws, h => rfl
  | last, e :: es, ws, h => by
    have he := eval_congr e ws fun c hc => h c (List.mem_append_left _ hc)
    have hes := fun last ws =>
      evalSteps_congr last es ws fun c hc => h c (List.mem_append_right _ hc)
    simp only [evalSteps, he, hes]
termination_by structural _ es => es

end

/-! ### Forgetting a node that is not mentioned -/

mutual

/-- A tree does not change when it forgets a node that it does not mention. -/
theorem forget_of_notMem {t : Tag} : ∀ e : Expr, t ∉ e.mentions → e.forget t = e
  | .fold op operands, h => congrArg (Expr.fold op) (forgetAll_of_notMem operands h)
  | .unary op e, h => congrArg (Expr.unary op) (forget_of_notMem e h)
  | .compare op l r, h => by
    simp only [mentions, List.mem_append, not_or] at h
    simp only [forget, forget_of_notMem l h.1, forget_of_notMem r h.2]
  | .value tag, h => if_neg fun he => h (List.mem_singleton.2 he.symm)
  | .number x, h => rfl
  | .cond test yes no, h => by
    simp only [mentions, List.mem_append, not_or] at h
    simp only [forget, forget_of_notMem test h.1.1, forget_of_notMem yes h.1.2,
      forget_of_notMem no h.2]
  | .set target source, h => by
    simp only [mentions, List.mem_cons, not_or] at h
    simp only [forget, forget_of_notMem source h.2, if_neg (Ne.symm h.1)]
  | .block steps, h => congrArg Expr.block (forgetAll_of_notMem steps h)
termination_by structural e => e

/-- Nor do several trees. -/
theorem forgetAll_of_notMem {t : Tag} : ∀ es : List Expr, t ∉ mentionsAll es → forgetAll t es = es
  | [], h => rfl
  | e :: es, h => by
    simp only [mentionsAll, List.mem_append, not_or] at h
    simp only [forgetAll, forget_of_notMem e h.1, forgetAll_of_notMem es h.2]
termination_by structural es => es

end

end Expr

/-- A test that all entries pass takes nothing out. -/
theorem OrderedMap.filter_eq_self {κ α : Type} {m : OrderedMap κ α} {keep : κ → α → Bool}
    (h : ∀ e ∈ m.toList, keep e.1 e.2 = true) : m.filter keep = m :=
  OrderedMap.ext (List.filter_eq_self.2 h)

namespace Kind

/-! ### Inputs and references -/

/-- The nodes whose values a kind computes its own from, as `compute?` does. -/
def inputs : Kind → List Tag
  | .interpolation input _ => input.toList
  | .arithmetic _ inputs => inputs
  | .expression tree => tree.leaves
  | _ => []

/-- The nodes that a kind acts on: the one that a tracking node animates, and the receivers of a
call. -/
def targets : Kind → List Tag
  | .tracking t => t.follower.toList
  | .proc p => p.bindings.map Prod.snd
  | _ => []

/-- All nodes that a kind refers to. -/
def references (k : Kind) : List Tag := k.reads ++ k.targets

/-- The computed value depends on the values of the inputs alone. -/
theorem compute?_congr {read read' : Tag → Option Float} {k : Kind}
    (h : ∀ c ∈ k.inputs, read c = read' c) : k.compute? read = k.compute? read' := by
  cases k with
  | interpolation input curve =>
    cases input with
    | none => rfl
    | some input => simp only [compute?, h input List.mem_cons_self]
  | arithmetic op inputs =>
    have hf : inputs.filterMap read = inputs.filterMap read' := List.filterMap_congr h
    simp only [compute?, hf]
  | expression tree => simp only [compute?, Expr.evaluate, tree.eval_congr [] h]
  | _ => rfl

/-- A reference to another node is not cleared. -/
theorem clear_of_ne {t : Tag} {slot : Option Tag} (h : t ∉ slot.toList) : clear t slot = slot :=
  if_neg fun he => h (by simp [he])

/-- A kind does not change when it forgets a node that it does not refer to. -/
theorem forget_of_notMem {t : Tag} {k : Kind} (h : t ∉ k.references) : k.forget t = k := by
  rw [references, List.mem_append, not_or] at h
  obtain ⟨h, h'⟩ := h
  cases k with
  | value => rfl
  | style sources =>
    refine congrArg Kind.style (OrderedMap.filter_eq_self fun e he => ?_)
    exact decide_eq_true fun ht : e.2 = t => h (ht ▸ List.mem_map_of_mem he)
  | transform entries =>
    refine congrArg Kind.transform (List.filter_eq_self.2 fun e he => ?_)
    exact decide_eq_true fun ht => h (List.mem_filterMap.2 ⟨e, he, ht⟩)
  | interpolation input curve => simp only [forget, clear_of_ne h]
  | arithmetic op inputs =>
    refine congrArg (Kind.arithmetic op) (List.filter_eq_self.2 fun c hc => ?_)
    exact decide_eq_true fun ht : c = t => h (ht ▸ hc)
  | diffClamp input clamp => exact if_neg fun he => h (by simp [reads, he])
  | tracking tracking => simp only [forget, clear_of_ne h, clear_of_ne h']
  | props p =>
    have hs : p.sources.filter (fun _ u => u ≠ t) = p.sources :=
      OrderedMap.filter_eq_self fun e he =>
        decide_eq_true fun ht : e.2 = t => h (ht ▸ List.mem_map_of_mem he)
    simp only [forget, hs]
  | expression tree =>
    refine congrArg Kind.expression (tree.forget_of_notMem fun ht => h ?_)
    exact OrderedSet.mem_insertAll.2 (Or.inr ht)
  | proc p =>
    simp only [reads, List.mem_append, not_or] at h
    have hb : (p.bindings.filter fun b => b.1 ≠ t && b.2 ≠ t) = p.bindings := by
      refine List.filter_eq_self.2 fun b hb => ?_
      have h₁ : b.1 ≠ t := fun ht => h.1 (ht ▸ List.mem_map_of_mem hb)
      have h₂ : b.2 ≠ t := fun ht => h' (ht ▸ List.mem_map_of_mem hb)
      simp [h₁, h₂]
    simp only [forget, clear_of_ne h.2, hb]

end Kind

/-! ### The same datum again -/

/-- Only a double itself is the same datum. -/
theorem Double.same_iff {x y : Float} : Double.same x y = true ↔ x = y := by
  unfold Double.same
  rw [beq_iff_eq]
  constructor
  · intro h
    obtain ⟨⟨a, ha⟩⟩ := x
    obtain ⟨⟨b, hb⟩⟩ := y
    cases (show a = b from h)
    rfl
  · rintro rfl
    rfl

namespace Node

/-- A base value that is no change leaves the node as it is. -/
theorem setBase_of_not_baseChanges {n : Node} {x : Float} (h : n.baseChanges x = false) :
    n.setBase x = n := by
  have hx : n.base = x := Double.same_iff.1 (by simpa [baseChanges] using h)
  rw [← hx]
  rfl

/-- An offset that is no change leaves the node as it is. -/
theorem setOffset_of_not_offsetChanges {n : Node} {x : Float} (h : n.offsetChanges x = false) :
    n.setOffset x = n := by
  have hx : n.offset = x := Double.same_iff.1 (by simpa [offsetChanges] using h)
  rw [← hx]
  rfl

end Node

/-! ### New nodes -/

/-- Whether a node is described as a call. -/
def NodeConfig.isCall : NodeConfig → Bool
  | .proc _ _ _ => true
  | _ => false

/-- Whether a node of the kind is a call. -/
def Kind.isCall : Kind → Bool
  | .proc _ => true
  | _ => false

/-- What is known of a new node: it has the values it is described with, or else starts from zero;
it is a call when it is described as one; and no view has received anything from it. -/
structure Node.MadeFrom (n : Node) (config : NodeConfig) : Prop where
  start : n.kind = .value ∨ n.base = 0.0 ∧ n.offset = 0.0
  call : n.kind.isCall = config.isCall
  detached : ∀ p, n.kind = .props p → p.view = none ∧ p.lastSent = none

/-- A node that starts from zero and is attached to no view because it is no props node. -/
theorem Node.MadeFrom.of_zero {t : Tag} {k : Kind} {config : NodeConfig}
    (hcall : k.isCall = config.isCall) (hp : ∀ p, k ≠ .props p) :
    Node.MadeFrom { tag := t, kind := k } config where
  start := Or.inr ⟨rfl, rfl⟩
  call := hcall
  detached p hk := absurd hk (hp p)

/-- Every node is made from its description. -/
theorem NodeConfig.build_eq_ok {config : NodeConfig} {t : Tag} {n : Node}
    (h : config.build t = .ok n) : n.MadeFrom config := by
  cases config with
  | value base offset =>
    cases h
    exact ⟨Or.inl rfl, rfl, nofun⟩
  | props sources =>
    cases h
    refine ⟨Or.inr ⟨rfl, rfl⟩, rfl, fun p hp => ?_⟩
    cases hp
    exact ⟨rfl, rfl⟩
  | style sources =>
    cases h
    exact .of_zero rfl nofun
  | transform entries =>
    simp only [build] at h
    cases hm : entries.mapM TransformConfig.build with
    | error cause =>
      rw [hm] at h
      cases h
    | ok entries =>
      rw [hm] at h
      cases h
      exact .of_zero rfl nofun
  | interpolation input inputs outputs both left right =>
    simp only [build] at h
    split at h <;> cases h
    exact .of_zero rfl nofun
  | arithmetic op inputs =>
    cases h
    exact .of_zero rfl nofun
  | diffClamp input low high =>
    simp only [build] at h
    split at h <;> cases h
    exact .of_zero rfl nofun
  | tracking animation followed follower template =>
    simp only [build] at h
    split at h <;> cases h
    exact .of_zero rfl nofun
  | expression tree =>
    cases h
    exact .of_zero rfl nofun
  | proc callee args params =>
    simp only [build] at h
    split at h <;> cases h
    exact .of_zero rfl nofun

end MotionGraph
