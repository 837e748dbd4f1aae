import MotionGraph.Proofs.Node.References

/-!
# Where an expression names nodes

The parts of a tree are the tree itself, the trees right below its root, the trees below those, and
so on (`Expr.PartOf`). A node is named by a part that reads it or writes into it. The tags of a tree
are the nodes that its parts name (`Expr.mem_mentions_iff_exists_part`), in the branches of a
condition that are not taken as well as in the one that is.

Therefore nothing else matters: what a tree is worth, and what it asks to be written, is the same
for any two ways of reading that agree on its tags, and it writes into no other node
(`Expr.determined_by_tags`).
-/

namespace MotionGraph

namespace Expr

/-! ### Parts of a tree -/

/-- The trees right below the root, from left to right. -/
def children : Expr → List Expr
  | .fold _ operands => operands
  | .unary _ e => [e]
  | .compare _ l r => [l, r]
  | .value _ => []
  | .number _ => []
  | .cond test yes no => [test, yes, no]
  | .set _ source => [source]
  | .block steps => steps

/-- Whether a tree stands somewhere in another one. -/
inductive PartOf (part : Expr) : Expr → Prop where
  | self : PartOf part part
  | within {child e : Expr} : child ∈ e.children → PartOf part child → PartOf part e

/-- Whether the root of a tree reads a node or writes into it. -/
def Names (e : Expr) (t : Tag) : Prop := e = .value t ∨ ∃ source, e = .set t source

/-- A tree below another one is smaller. -/
theorem sizeOf_lt_of_mem_children {child e : Expr} (h : child ∈ e.children) :
    sizeOf child < sizeOf e := by
  cases e with
  | fold op operands =>
    have smaller : sizeOf child < sizeOf operands := List.sizeOf_lt_of_mem h
    simp only [fold.sizeOf_spec]
    omega
  | block steps =>
    have smaller : sizeOf child < sizeOf steps := List.sizeOf_lt_of_mem h
    simp only [block.sizeOf_spec]
    omega
  | unary op e =>
    obtain rfl := List.mem_singleton.1 h
    simp only [unary.sizeOf_spec]
    omega
  | compare op l r =>
    simp only [children, List.mem_cons, List.not_mem_nil, or_false] at h
    rcases h with rfl | rfl <;> simp only [compare.sizeOf_spec] <;> omega
  | cond test yes no =>
    simp only [children, List.mem_cons, List.not_mem_nil, or_false] at h
    rcases h with rfl | rfl | rfl <;> simp only [cond.sizeOf_spec] <;> omega
  | set target source =>
    obtain rfl := List.mem_singleton.1 h
    simp only [set.sizeOf_spec]
    omega
  | value t => cases h
  | number x => cases h

/-- What holds of a tree as soon as it holds of the trees below its root holds of all trees. -/
@[elab_as_elim] theorem children_induction {motive : Expr → Prop}
    (step : ∀ e, (∀ child ∈ e.children, motive child) → motive e) (e : Expr) : motive e :=
  step e fun child h =>
    have := sizeOf_lt_of_mem_children h
    children_induction step child
termination_by sizeOf e

/-! ### Names in the parts -/

/-- What several trees mention, one of them does. -/
theorem mem_mentionsAll {t : Tag} {es : List Expr} :
    t ∈ mentionsAll es ↔ ∃ e ∈ es, t ∈ e.mentions := by
  induction es with
  | nil => simp [mentionsAll]
  | cons e es ih => simp [mentionsAll, ih]

/-- What several trees read, one of them does. -/
theorem mem_leavesAll {t : Tag} {es : List Expr} : t ∈ leavesAll es ↔ ∃ e ∈ es, t ∈ e.leaves := by
  induction es with
  | nil => simp [leavesAll]
  | cons e es ih => simp [leavesAll, ih]

/-- A tree mentions the node that its root names, and what the trees below mention. -/
theorem mem_mentions_iff {t : Tag} {e : Expr} :
    t ∈ e.mentions ↔ e.Names t ∨ ∃ child ∈ e.children, t ∈ child.mentions := by
  cases e with
  | fold op operands => simp [mentions, children, Names, mem_mentionsAll]
  | block steps => simp [mentions, children, Names, mem_mentionsAll]
  | _ => simp [mentions, children, Names, eq_comm]

/-- A tree reads the node of its root, if it is a read, and what the trees below read. -/
theorem mem_leaves_iff {t : Tag} {e : Expr} :
    t ∈ e.leaves ↔ e = .value t ∨ ∃ child ∈ e.children, t ∈ child.leaves := by
  cases e with
  | fold op operands => simp [leaves, children, mem_leavesAll]
  | block steps => simp [leaves, children, mem_leavesAll]
  | _ => simp [leaves, children, eq_comm]

/-- **A tree mentions the nodes that its parts name.** -/
theorem mem_mentions_iff_exists_part {t : Tag} {e : Expr} :
    t ∈ e.mentions ↔ ∃ part : Expr, part.PartOf e ∧ part.Names t := by
  constructor
  · intro h
    induction e using children_induction with
    | step e ih =>
      rcases mem_mentions_iff.1 h with named | ⟨child, hc, hm⟩
      · exact ⟨e, .self, named⟩
      · obtain ⟨part, hp, named⟩ := ih child hc hm
        exact ⟨part, .within hc hp, named⟩
  · rintro ⟨part, hp, named⟩
    induction hp with
    | self => exact mem_mentions_iff.2 (Or.inl named)
    | within hc _ ih => exact mem_mentions_iff.2 (Or.inr ⟨_, hc, ih⟩)

/-- What a tree reads, it mentions. -/
theorem mem_mentions_of_mem_leaves {t : Tag} {e : Expr} (h : t ∈ e.leaves) : t ∈ e.mentions := by
  induction e using children_induction with
  | step e ih =>
    rcases mem_leaves_iff.1 h with read | ⟨child, hc, hl⟩
    · exact mem_mentions_iff.2 (Or.inl (Or.inl read))
    · exact mem_mentions_iff.2 (Or.inr ⟨child, hc, ih child hc hl⟩)

/-! ### What a tree depends on -/

/-- **A tree depends on its tags alone.** Two ways of reading that agree on the tags give it the
same value and make it ask for the same writes, all of them into nodes among the tags. The tags are
the nodes that some part of the tree reads or writes into, each of them once. -/
theorem determined_by_tags (e : Expr) :
    (∀ read read' : Tag → Option Float, (∀ t ∈ e.tags, read t = read' t) →
        e.evaluate read = e.evaluate read') ∧
      (∀ read, ∀ w ∈ (e.evaluate read).2, w.1 ∈ e.tags) ∧
      (∀ t, t ∈ e.tags ↔
        ∃ part : Expr, part.PartOf e ∧ (part = .value t ∨ ∃ source, part = .set t source)) ∧
      e.tags.toList.Nodup := by
  refine ⟨?_, ?_, ?_, e.tags.nodup⟩
  · intro read read' agree
    apply eval_congr e []
    intro t ht
    exact agree t (mem_tags.2 (mem_mentions_of_mem_leaves ht))
  · intro read w hw
    exact mem_tags.2 (mem_mentions_of_evaluate hw)
  · intro t
    exact mem_tags.trans mem_mentions_iff_exists_part

/-- One node decides whether the value of another one is put into a third; else a fourth is read. -/
def switched : Expr := .cond (.value ⟨1⟩) (.set ⟨2⟩ (.value ⟨3⟩)) (.value ⟨4⟩)

/-- What the nodes of no part hold does not matter to the value, nor to the write. -/
theorem switched_determined :
    let read : Tag → Option Float := fun t => if t = ⟨5⟩ then some 1.0 else some 7.0
    let read' : Tag → Option Float := fun t => if t = ⟨5⟩ then none else some 7.0
    switched.tags.toList = [⟨1⟩, ⟨2⟩, ⟨3⟩, ⟨4⟩] ∧ read ⟨5⟩ ≠ read' ⟨5⟩ ∧
      (∀ t ∈ switched.tags, read t = read' t) ∧ switched.evaluate read = (7.0, [(⟨2⟩, 7.0)]) ∧
      switched.evaluate read' = (7.0, [(⟨2⟩, 7.0)]) := by
  intro read read'
  have tags : switched.tags.toList = [⟨1⟩, ⟨2⟩, ⟨3⟩, ⟨4⟩] := rfl
  have agree : ∀ t ∈ switched.tags, read t = read' t := by
    intro t ht
    rw [← OrderedSet.mem_toList, tags] at ht
    simp only [List.mem_cons, List.not_mem_nil, or_false] at ht
    rcases ht with rfl | rfl | rfl | rfl <;> rfl
  have value : switched.evaluate read = (7.0, [(⟨2⟩, 7.0)]) := by decide +kernel
  exact ⟨tags, Option.some_ne_none _, agree, value,
    ((determined_by_tags switched).1 read read' agree).symm.trans value⟩

end Expr

end MotionGraph
