import Mathlib.Data.List.Induction
import MotionGraph.Proofs.Graph.Roles
import MotionGraph.Proofs.Node.Walk

/-!
# Writes carried out at once and writes carried out afterwards

An expression only asks for writes, which are carried out when it has been evaluated
(`Graph.evaluateThenWrite`). The other way would be to carry out each one where it stands
(`Graph.enact`), so that later reads see the node itself, its offset included.

Evaluation is the second walk with one difference: a node that has been written reads as its base
value from then on, without its offset (`enactOnBases_eq`). The two ways agree on a tree if what it
writes into a node that it reads is not changed by the offset (`enact_eq`); where the offset does
change it, writing and reading back tells them apart (`enact_readBack`,
`evaluateThenWrite_readBack`).
-/

namespace MotionGraph

/-- There is no last write to a node exactly if there is none. -/
theorem Writes.latest?_eq_none_iff {ws : Writes} {t : Tag} :
    ws.latest? t = none ↔ t ∉ ws.map Prod.fst := by
  simp only [latest?, Option.map_eq_none_iff, List.find?_eq_none, List.mem_reverse,
    decide_eq_true_eq, List.mem_map, not_exists, not_and]

namespace Graph

/-- The offset of a node. -/
def offset (g : Graph) (t : Tag) : Float := ((g.node? t).map Node.offset).getD 0.0

/-- Reads see nodes as they are, and writes are carried out; one that is refused does nothing. -/
def atOnce : Access Graph where
  read g t := g.read t
  write g t x := g.after (.setBase t x)

/-- As `atOnce`, but a node that has been written reads as its base value. The store remembers
which nodes those are. -/
def onBases : Access (Graph × List Tag) where
  read s t := if t ∈ s.2 then (s.1.base? t).getD 0.0 else s.1.read t
  write s t x := (s.1.after (.setBase t x), t :: s.2)

/-- The value of an expression, and the graph, if each write is carried out where it stands. -/
def enact (g : Graph) (e : Expr) : Float × Graph := (e.walk atOnce).run g

/-- The same if written nodes read as their base values. -/
def enactOnBases (g : Graph) (e : Expr) : Float × Graph :=
  let r := (e.walk onBases).run (g, [])
  (r.1, r.2.1)

/-- The value of an expression, and the graph once its writes are carried out. -/
def evaluateThenWrite (g : Graph) (e : Expr) : Float × Graph :=
  let r := e.evaluate g.value?
  (r.1, (g.applyWrites r.2).1)

/-! ### Nodes after writes -/

/-- Setting a base value is granted for a node that holds a number, and sets it. -/
theorem setBase_of_holds {g : Graph} {t : Tag} (h : g.holds t = true) (x : Float) :
    ∃ r, g.setBase t x = .ok r ∧ r.1.nodes = (g.update t fun n => n.setBase x).nodes := by
  obtain ⟨n, hn⟩ := exists_holder_of_holds h
  have hs : g.setBase t x = .ok (if n.baseChanges x then
      ((g.update t fun n => n.setBase x).touch t, true)
    else (g.update t fun n => n.setBase x, false)) := by
    rw [setBase, hn]
    rfl
  refine ⟨_, hs, ?_⟩
  split <;> rfl

/-- Setting a base value is refused for any other. -/
theorem setBase_of_not_holds {g : Graph} {t : Tag} (h : g.holds t = false) (x : Float) :
    ∃ cause, g.setBase t x = .error cause := by
  cases hs : g.setBase t x with
  | error cause => exact ⟨cause, rfl⟩
  | ok r =>
    obtain ⟨n, hn, hv, -⟩ := setBase_eq_ok hs
    rw [holds_of_node? hn hv] at h
    cases h

/-- A single write is the request to set a base value. -/
theorem applyWrites_singleton (g : Graph) (t : Tag) (x : Float) :
    (g.applyWrites [(t, x)]).1 = g.after (.setBase t x) := by
  simp only [after, perform, applyWrites]
  cases g.setBase t x <;> rfl

/-- Writes are carried out one after the other. -/
theorem applyWrites_append (g : Graph) (v w : Writes) :
    (g.applyWrites (v ++ w)).1 = ((g.applyWrites v).1.applyWrites w).1 := by
  induction v generalizing g with
  | nil => rfl
  | cons e v ih =>
    rw [List.cons_append, applyWrites, applyWrites]
    split <;> exact ih _

/-- A base value is set in one node, if that holds a number. -/
theorem node?_after_setBase (g : Graph) (t u : Tag) (x : Float) :
    (g.after (.setBase t x)).node? u =
      if u = t ∧ g.holds t = true then (g.node? u).map fun n => n.setBase x else g.node? u := by
  cases h : g.holds t with
  | true =>
    obtain ⟨r, hr, hnodes⟩ := setBase_of_holds h x
    have ha : g.after (.setBase t x) = r.1 := by simp only [after, perform, hr, Except.map]
    rw [ha, node?, hnodes, ← node?, node?_update]
    simp
  | false =>
    obtain ⟨cause, hr⟩ := setBase_of_not_holds h x
    have ha : g.after (.setBase t x) = g := by simp only [after, perform, hr, Except.map]
    rw [ha]
    simp

/-- Setting a base value does not decide who holds numbers. -/
theorem holds_after_setBase (g : Graph) (t u : Tag) (x : Float) :
    (g.after (.setBase t x)).holds u = g.holds u := by
  rw [holds, node?_after_setBase, holds]
  split
  · rw [Option.map_map]
    rfl
  · rfl

/-- Of several writes to a node that holds a number the last one stays, and nothing else of it
changes. -/
theorem node?_applyWrites (g : Graph) (ws : Writes) (u : Tag) :
    (g.applyWrites ws).1.node? u =
      (g.node? u).map fun n =>
        if g.holds u then n.setBase ((ws.latest? u).getD n.base) else n := by
  induction ws generalizing g with
  | nil =>
    show g.node? u = _
    cases g.node? u with
    | none => rfl
    | some n => cases g.holds u <;> rfl
  | cons w ws ih =>
    rw [← List.singleton_append, applyWrites_append, applyWrites_singleton, ih,
      holds_after_setBase, node?_after_setBase, List.singleton_append, Writes.latest?_cons]
    by_cases hu : u = w.1
    · subst hu
      cases hv : g.holds w.1 with
      | false => simp
      | true => cases g.node? w.1 <;> cases Writes.latest? ws w.1 <;> simp [Node.setBase]
    · simp [hu, Ne.symm hu]

/-- Setting a base value marks the node if it changes the value. -/
theorem mem_marked_after_setBase {g : Graph} {t u : Tag} {x : Float} :
    u ∈ (g.after (.setBase t x)).marked ↔
      u ∈ g.marked ∨ u = t ∧ ∃ n, g.node? u = some n ∧ n.holdsValue = true ∧
        n.baseChanges x = true := by
  cases hs : g.setBase t x with
  | error cause =>
    have ha : g.after (.setBase t x) = g := by simp only [after, perform, hs, Except.map]
    rw [ha]
    refine ⟨.inl, fun h => h.resolve_right ?_⟩
    rintro ⟨rfl, n, hn, hv, -⟩
    obtain ⟨r, hr, -⟩ := setBase_of_holds (holds_of_node? hn hv) x
    rw [hs] at hr
    cases hr
  | ok r =>
    obtain ⟨n, hn, hv, -, hr⟩ := setBase_eq_ok hs
    have ha : g.after (.setBase t x) = r.1 := by simp only [after, perform, hs, Except.map]
    have there : (u = t ∧ ∃ m, g.node? u = some m ∧ m.holdsValue = true ∧ m.baseChanges x = true) ↔
        u = t ∧ n.baseChanges x = true := by
      refine and_congr_right fun hu => ?_
      subst hu
      exact ⟨fun ⟨m, hm, _, hb⟩ => Option.some.inj (hn.symm.trans hm) ▸ hb,
        fun hb => ⟨n, hn, hv, hb⟩⟩
    rw [ha, hr, there]
    split
    · next hb => simp [hb, update]
    · next hb => simp [hb, update]

/-- **Writes mark the nodes that one of them changes**: by then the node has the value written last
before, or else its own. -/
theorem mem_marked_applyWrites {g : Graph} {ws : Writes} {u : Tag} :
    u ∈ (g.applyWrites ws).1.marked ↔
      u ∈ g.marked ∨ ∃ (n : Node) (before : Writes) (x : Float) (after : Writes),
        g.node? u = some n ∧ n.holdsValue = true ∧ ws = before ++ (u, x) :: after ∧
          Double.same ((before.latest? u).getD n.base) x = false := by
  induction ws using List.reverseRecOn with
  | nil => simp [applyWrites]
  | append_singleton ws w ih =>
    obtain ⟨t, y⟩ := w
    -- what the node is like when the last write comes
    have now : ∀ n, g.node? u = some n → n.holdsValue = true →
        (g.applyWrites ws).1.node? u = some (n.setBase ((Writes.latest? ws u).getD n.base)) :=
        fun n hn hv => by
      rw [node?_applyWrites, hn, Option.map_some, if_pos (holds_of_node? hn hv)]
    rw [applyWrites_append, applyWrites_singleton, mem_marked_after_setBase, ih]
    constructor
    · rintro ((hm | ⟨n, before, x, after, hn, hv, rfl, hs⟩) | ⟨rfl, m, hm, hv, hb⟩)
      · exact .inl hm
      · exact .inr ⟨n, before, x, after ++ [(t, y)], hn, hv, by simp, hs⟩
      · rw [node?_applyWrites] at hm
        obtain ⟨n, hn, rfl⟩ := Option.map_eq_some_iff.1 hm
        have holds : n.holdsValue = true := by
          split at hv <;> exact hv
        rw [if_pos (holds_of_node? hn holds)] at hb
        exact .inr ⟨n, ws, y, [], hn, holds, rfl,
          by simpa [Node.baseChanges, Node.setBase] using hb⟩
    · rintro (hm | ⟨n, before, x, after, hn, hv, hs, hc⟩)
      · exact .inl (.inl hm)
      · rcases List.eq_nil_or_concat after with rfl | ⟨rest, z, rfl⟩
        · obtain ⟨rfl, he⟩ := List.append_inj' hs rfl
          obtain ⟨rfl, rfl⟩ := Prod.mk.inj (List.singleton_inj.1 he)
          exact .inr ⟨rfl, _, now n hn hv, hv, by simpa [Node.baseChanges, Node.setBase] using hc⟩
        · rw [List.concat_eq_append, ← List.cons_append, ← List.append_assoc] at hs
          exact .inl (.inr ⟨n, before, x, rest, hn, hv, (List.append_inj' hs rfl).1, hc⟩)

/-- A node that holds a number is there. -/
theorem exists_node?_of_holds {g : Graph} {t : Tag} (h : g.holds t = true) :
    ∃ n, g.node? t = some n := by
  obtain ⟨n, hn⟩ := exists_holder_of_holds h
  exact ⟨n, (holder_eq_ok.1 hn).1⟩

/-- What is read after writes: in a node that holds a number the last of them, with the offset. -/
theorem read_applyWrites (g : Graph) (ws : Writes) {t : Tag} (h : g.holds t = true) :
    (g.applyWrites ws).1.read t =
      match ws.latest? t with
      | some x => x + g.offset t
      | none => g.read t := by
  obtain ⟨n, hn⟩ := exists_node?_of_holds h
  simp only [read, value?, node?_applyWrites, offset, hn, h, Option.map_some, if_true,
    Option.getD_some]
  cases ws.latest? t <;> rfl

/-- What the base value is after writes: the last of them, in a node that holds a number. -/
theorem base?_applyWrites (g : Graph) (ws : Writes) {t : Tag} (h : g.holds t = true) :
    ((g.applyWrites ws).1.base? t).getD 0.0 = (ws.latest? t).getD ((g.base? t).getD 0.0) := by
  obtain ⟨n, hn⟩ := exists_node?_of_holds h
  simp only [base?, node?_applyWrites, hn, h, Option.map_some, if_true, Option.getD_some]
  rfl

/-- A node without writes to it stays as it is. -/
theorem node?_applyWrites_of_latest?_eq_none (g : Graph) {ws : Writes} {t : Tag}
    (h : ws.latest? t = none) : (g.applyWrites ws).1.node? t = g.node? t := by
  rw [node?_applyWrites, h]
  cases g.node? t with
  | none => rfl
  | some n => cases g.holds t <;> rfl

/-- What is read of a node without writes to it. -/
theorem read_applyWrites_of_latest?_eq_none (g : Graph) {ws : Writes} {t : Tag}
    (h : ws.latest? t = none) : (g.applyWrites ws).1.read t = g.read t := by
  rw [read, value?, node?_applyWrites_of_latest?_eq_none g h, read, value?]

/-! ### The two ways compared -/

variable {g : Graph} {e : Expr}

/-- What evaluation reads of a node that it has not written is what the graph gives after the
writes. -/
theorem readThrough_of_latest?_eq_none {ws : Writes} {t : Tag} (h : ws.latest? t = none) :
    Expr.readThrough g.value? ws t = (g.applyWrites ws).1.read t := by
  rw [read_applyWrites_of_latest?_eq_none g h, Expr.readThrough, h]
  rfl

/-- **Evaluation works on base values**: it is the walk that carries out each write at once, in
which a node that has been written reads as its base value. -/
theorem enactOnBases_eq (ht : ∀ t ∈ e.targets, g.holds t = true) :
    g.enactOnBases e = g.evaluateThenWrite e := by
  have hrun : (e.walk onBases).run (g, []) =
      ((e.evaluate g.value?).1, (g.applyWrites (e.evaluate g.value?).2).1,
        ((e.evaluate g.value?).2.map Prod.fst).reverse) := by
    refine Expr.run_walk_eq (fun ws => ((g.applyWrites ws).1, (ws.map Prod.fst).reverse))
      (fun w => g.holds w.1 = true) (fun t _ ws hws => ?_) (fun ws t x => ?_)
      fun w hw => ht w.1 (Expr.mem_targets_of_evaluate hw)
    · cases hl : ws.latest? t with
      | none =>
        have hm : t ∉ (ws.map Prod.fst).reverse := by
          rw [List.mem_reverse]
          exact Writes.latest?_eq_none_iff.1 hl
        exact (if_neg hm).trans (readThrough_of_latest?_eq_none hl).symm
      | some x =>
        have hw := Writes.mem_of_latest? hl
        have hm : t ∈ (ws.map Prod.fst).reverse := List.mem_reverse.2 (List.mem_map_of_mem hw)
        refine (if_pos hm).trans ?_
        rw [base?_applyWrites g ws (hws _ hw), Expr.readThrough, hl]
        rfl
    · simp [onBases, applyWrites_append, applyWrites_singleton]
  rw [enactOnBases, hrun]
  rfl

/-- **Writes carried out at once and afterwards agree** if no node that is read is written with a
value that its offset changes. -/
theorem enact_eq (ht : ∀ t ∈ e.targets, g.holds t = true)
    (hw : ∀ w ∈ (e.evaluate g.value?).2, w.1 ∈ e.leaves → w.2 + g.offset w.1 = w.2) :
    g.enact e = g.evaluateThenWrite e := by
  refine Expr.run_walk_eq (fun ws => (g.applyWrites ws).1)
    (fun w => g.holds w.1 = true ∧ (w.1 ∈ e.leaves → w.2 + g.offset w.1 = w.2))
    (fun t htm ws hws => ?_) (fun ws t x => ?_)
    fun w hm => ⟨ht w.1 (Expr.mem_targets_of_evaluate hm), hw w hm⟩
  · cases hl : ws.latest? t with
    | none => exact (readThrough_of_latest?_eq_none hl).symm
    | some x =>
      obtain ⟨hold, hback⟩ := hws _ (Writes.mem_of_latest? hl)
      show (g.applyWrites ws).1.read t = _
      rw [read_applyWrites g ws hold, Expr.readThrough, hl]
      exact hback htm
  · simp [atOnce, applyWrites_append, applyWrites_singleton]

/-- Writes a number into a node and reads the node. -/
def readBack (t : Tag) (x : Float) : Expr := .block [.set t (.number x), .value t]

/-- Read back from the node, a number comes with the offset. -/
theorem enact_readBack {t : Tag} (ht : g.holds t = true) (x : Float) :
    (g.enact (readBack t x)).1 = x + g.offset t := by
  have hr := read_applyWrites g [(t, x)] ht
  rw [Writes.latest?_singleton, if_pos rfl, applyWrites_singleton] at hr
  exact hr

/-- Read back from the writes, it comes as it was. -/
theorem evaluateThenWrite_readBack (g : Graph) (t : Tag) (x : Float) :
    (g.evaluateThenWrite (readBack t x)).1 = x := by
  show ((Writes.latest? [(t, x)] t).or (g.value? t)).getD 0.0 = x
  rw [Writes.latest?_singleton, if_pos rfl]
  rfl

/-- **How deferred writes agree with immediate ones**: evaluating a tree whose targets hold
numbers and carrying out its writes afterwards is the walk that carries out each write at
once and reads written nodes by their base values. It gives the same value and the same graph
as the walk that reads them with their offsets if no offset changes what is written into a
node that is read. Wherever an offset does change a number, writing that number and reading
it back gives two values. -/
theorem writes_agree_unless_offset (g : Graph) :
    (∀ e : Expr, (∀ t ∈ e.targets, g.holds t = true) →
      g.enactOnBases e = g.evaluateThenWrite e ∧
        ((∀ w ∈ (e.evaluate g.value?).2, w.1 ∈ e.leaves → w.2 + g.offset w.1 = w.2) →
          g.enact e = g.evaluateThenWrite e)) ∧
    ∀ t x, g.holds t = true → x + g.offset t ≠ x →
      (g.enact (readBack t x)).1 ≠ (g.evaluateThenWrite (readBack t x)).1 := by
  refine ⟨fun e ht => ⟨enactOnBases_eq ht, enact_eq ht⟩, fun t x ht hx => ?_⟩
  rw [enact_readBack ht, evaluateThenWrite_readBack]
  exact hx

/-- Node `1` has no offset, and nodes `2` and `3` have one. -/
def shiftedRun : List Request :=
  [.make ⟨1⟩ (.value 0.0 0.0), .make ⟨2⟩ (.value 5.0 3.0), .make ⟨3⟩ (.value 0.0 10.0)]

/-- Writes into `1` what `2` is worth and one more, reads it back, and writes into `3` if it is
large. -/
def chainedTree : Expr :=
  .block
    [.set ⟨1⟩ (.fold .add [.value ⟨2⟩, .number 1.0]),
     .cond (.compare .greaterThan (.value ⟨1⟩) (.number 8.0)) (.set ⟨3⟩ (.value ⟨1⟩)) (.number 0.0),
     .value ⟨1⟩]

/-- The two ways give nine, and leave the same graph. -/
theorem chainedTree_agrees :
    let g := empty.afterAll shiftedRun
    (∀ t ∈ chainedTree.targets, g.holds t = true) ∧
      (∀ w ∈ (chainedTree.evaluate g.value?).2, w.1 ∈ chainedTree.leaves →
        w.2 + g.offset w.1 = w.2) ∧
      g.enact chainedTree = g.evaluateThenWrite chainedTree ∧ (g.enact chainedTree).1 = 9.0 ∧
      g.holds ⟨3⟩ = true ∧ 11.0 + g.offset ⟨3⟩ ≠ 11.0 ∧
      (g.enact (readBack ⟨3⟩ 11.0)).1 ≠ (g.evaluateThenWrite (readBack ⟨3⟩ 11.0)).1 := by
  have ht : ∀ t ∈ chainedTree.targets, (empty.afterAll shiftedRun).holds t = true := by
    decide +kernel
  have hw : ∀ w ∈ (chainedTree.evaluate (empty.afterAll shiftedRun).value?).2,
      w.1 ∈ chainedTree.leaves → w.2 + (empty.afterAll shiftedRun).offset w.1 = w.2 := by
    decide +kernel
  have hv : ((empty.afterAll shiftedRun).enact chainedTree).1 = 9.0 := by decide +kernel
  have h₃ : (empty.afterAll shiftedRun).holds ⟨3⟩ = true := by decide +kernel
  have hx : 11.0 + (empty.afterAll shiftedRun).offset ⟨3⟩ ≠ 11.0 := by decide +kernel
  obtain ⟨agree, differ⟩ := writes_agree_unless_offset (empty.afterAll shiftedRun)
  exact ⟨ht, hw, (agree chainedTree ht).2 hw, hv, h₃, hx, differ ⟨3⟩ 11.0 h₃ hx⟩

/-- Eleven, written into node `3` and read back, is eleven to evaluation, and twenty-one if the
write is carried out at once. -/
theorem readBack_differs :
    let g := empty.afterAll shiftedRun
    (∀ t ∈ (readBack ⟨3⟩ 11.0).targets, g.holds t = true) ∧
      (g.evaluateThenWrite (readBack ⟨3⟩ 11.0)).1 = 11.0 ∧
      (g.enact (readBack ⟨3⟩ 11.0)).1 = 21.0 := by
  decide +kernel

end Graph

end MotionGraph
