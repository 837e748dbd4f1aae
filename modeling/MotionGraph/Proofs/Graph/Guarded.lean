import MotionGraph.Event.Router
import MotionGraph.Proofs.Graph.Kinds
import MotionGraph.Proofs.Graph.Schedule
import MotionGraph.Proofs.Graph.Sound
import MotionGraph.Proofs.Node.Breakpoints
import MotionGraph.Proofs.Number.Doubles

/-!
# Propagation within bounds

Some steps of a propagation make sense only under conditions: a list is read at a position that it
has, a number is brought between bounds that are in order, one is taken from a count that is not
zero. The definitions of the graph give such a step some meaning or other in any case. Here the
steps are guarded: `Graph.propagate?` is a propagation that gives nothing as soon as it comes to a
step whose condition does not hold.

In a sound graph whose diff-clamps have bounds in order it always gives something, and what it gives
is what `Graph.propagate` gives (`Guarded.propagate?_eq`). Three arguments meet there. The polyline
of an interpolation has at least two breakpoints and as many outputs as inputs, since it was made of
lists that were checked (`Interpolation.evaluateAt?_of_ofLists`); so a search through the inputs
stops at a position that has a right neighbour, whatever it searches for
(`Interpolation.exists_positionFrom?`). Bounds stay what they were made with. And a tag is only
ticked by a tag that it waits for (`Edges.Releasing.release?`).
-/

namespace MotionGraph

/-- `x` brought into `[lo, hi]`, which has to be an interval. -/
def Double.clamp? (x lo hi : Float) : Option Float := do
  guard (lo ≤ hi)
  return clamp x lo hi

/-- Bounds in order can be brought between. -/
theorem Double.clamp?_eq {x lo hi : Float} (h : lo ≤ hi) :
    clamp? x lo hi = some (clamp x lo hi) := by
  simp [clamp?, h]

/-! ### Interpolations -/

namespace Interpolation

variable {α : Type} [Scalar α]

/-- The first position from `i` on whose input is not below `v`, or the last position. -/
def positionFrom? (inputs : List α) (v : α) (i : Nat) : Option Nat :=
  if i < inputs.length - 1 then
    match inputs[i]? with
    | some x => if v ≤ x then some i else positionFrom? inputs v (i + 1)
    | none => none
  else some i
termination_by inputs.length - i

/-- The value at an input, by coordinates that are read at positions. The search needs a last
position, and leaves out the first one. -/
def evaluateAt? (inputs outputs : List α) (left right : Extrapolation) (v : α) : Option α := do
  guard (inputs ≠ [])
  let j ← positionFrom? inputs v 1
  guard (j ≠ 0)
  let a := Breakpoint.mk (← inputs[j - 1]?) (← outputs[j - 1]?)
  let b := Breakpoint.mk (← inputs[j - 1 + 1]?) (← outputs[j - 1 + 1]?)
  return evaluate ⟨a, b, [], left, right⟩ v

/-- The value at an input, by coordinates that are read at positions. -/
def evaluate? (c : Interpolation α) (v : α) : Option α :=
  evaluateAt? c.inputs c.outputs c.left c.right v

/-- **The search stops at the right end of a segment**: a position that is there, as is the one
before. -/
theorem exists_positionFrom? (v : α) (rest : List (Breakpoint α)) {points : List (Breakpoint α)}
    {i : Nat} {a b : Breakpoint α} (h : points.drop i = a :: b :: rest) :
    ∃ j, positionFrom? (points.map Breakpoint.input) v (i + 1) = some (j + 1) ∧
      points[j]? = some (segmentFrom v a b rest).1 ∧
      points[j + 1]? = some (segmentFrom v a b rest).2 := by
  induction rest generalizing i a b with
  | nil =>
    have hlen := congrArg List.length h
    have ha := congrArg (·[0]?) h
    have hb := congrArg (·[1]?) h
    simp only [List.length_drop, List.length_cons, List.length_nil] at hlen
    simp only [List.getElem?_drop] at ha hb
    refine ⟨i, ?_, ha, hb⟩
    rw [positionFrom?, if_neg]
    simp only [List.length_map]
    omega
  | cons c rest ih =>
    have hlen := congrArg List.length h
    have ha := congrArg (·[0]?) h
    have hb := congrArg (·[1]?) h
    simp only [List.length_drop, List.length_cons] at hlen
    simp only [List.getElem?_drop] at ha hb
    have hlt : i + 1 < (points.map Breakpoint.input).length - 1 := by
      simp only [List.length_map]
      omega
    have hx : (points.map Breakpoint.input)[i + 1]? = some b.input := by
      rw [List.getElem?_map, hb]
      rfl
    rw [positionFrom?, if_pos hlt, hx, segmentFrom]
    by_cases hv : v ≤ b.input
    · simp only [hv, if_true]
      exact ⟨i, rfl, ha, hb⟩
    · simp only [hv, if_false]
      refine ih ?_
      rw [← List.drop_drop, h]
      rfl

/-- **No position outside the breakpoints is read**, for any input. -/
theorem evaluate?_eq (c : Interpolation α) (v : α) : c.evaluate? v = some (c.evaluate v) := by
  have start : c.breakpoints.drop 0 = c.first :: c.second :: c.rest := rfl
  obtain ⟨j, hj, ha, hb⟩ := exists_positionFrom? v c.rest start
  have hne : c.breakpoints.map Breakpoint.input ≠ [] := List.cons_ne_nil _ _
  have ha : c.breakpoints[j]? = some (c.segment v).1 := ha
  have hb : c.breakpoints[j + 1]? = some (c.segment v).2 := hb
  rw [Nat.zero_add] at hj
  simp only [evaluate?, evaluateAt?, inputs, outputs, guard, hne, hj, Option.bind_eq_bind,
    Option.pure_def, Option.bind_some, Nat.add_sub_cancel, Nat.add_one_ne_zero, ne_eq,
    not_false_eq_true, if_true, List.getElem?_map, ha, hb, Option.map_some]
  rfl

/-- **Checked lists are a polyline that is read within bounds**: whatever lists an interpolation can
be made of, no position outside them is read, for any input. -/
theorem evaluateAt?_of_ofLists {inputs outputs : List α} {left right : Extrapolation}
    {c : Interpolation α} (h : ofLists inputs outputs left right = .ok c) (v : α) :
    evaluateAt? inputs outputs left right v = some (c.evaluate v) := by
  obtain ⟨rfl, rfl, rfl, rfl, -⟩ := ofLists_eq_ok h
  exact evaluate?_eq c v

/-- With a single breakpoint there is no segment to read. -/
example : evaluateAt? [1.0] [2.0] .extend .extend (1.0 : Float) = none := by decide +kernel

end Interpolation

/-! ### Diff-clamps -/

namespace DiffClamp

/-- The next input taken by a diff-clamp whose bounds are an interval. -/
def step? (d : DiffClamp) (current input : Float) : Option (DiffClamp × Float) := do
  let x ← Double.clamp? (current + d.change input) d.low d.high
  return ({ d with last := some input }, x)

/-- Bounds are an interval. -/
theorem le_of_areBounds {low high : Float} (h : areBounds low high = true) : low ≤ high := by
  simp only [areBounds, Bool.and_eq_true, Bool.not_eq_true', decide_eq_false_iff_not] at h
  exact Double.le_of_not_lt h.1.1 h.1.2 h.2

/-- **A diff-clamp with bounds takes every input**, undefined ones and infinite ones, too. -/
theorem step?_eq {d : DiffClamp} (h : areBounds d.low d.high = true) (current input : Float) :
    d.step? current input = some (d.step current input) := by
  rw [step?, Double.clamp?_eq (le_of_areBounds h)]
  rfl

end DiffClamp

/-! ### The order of evaluation -/

namespace Waiting

/-- One input of `p` is done; if `p` is there, it waits for one. -/
def tick? (p : Tag) (w : Waiting) : Option (Waiting × Bool) := do
  guard ((p, 0) ∉ w)
  return tick p w

/-- One input of each of several tags is done, and each that is there waits for one. -/
def tickAll? : List Tag → Waiting → Option (Waiting × List Tag)
  | [], w => some (w, [])
  | p :: ps, w => do
    let (w, last) ← tick? p w
    let (w, released) ← tickAll? ps w
    return (w, if last then p :: released else released)

/-- A tag whose count is not zero is ticked. -/
theorem tick?_eq {p : Tag} {w : Waiting} (h : (p, 0) ∉ w) : tick? p w = some (tick p w) := by
  simp [tick?, h]

/-- What guarded ticks give, ticks give. -/
theorem eq_tickAll_of_tickAll? {ps : List Tag} {w : Waiting} {r : Waiting × List Tag}
    (h : tickAll? ps w = some r) : r = tickAll ps w := by
  induction ps generalizing w r with
  | nil => exact (Option.some.inj h).symm
  | cons p ps ih =>
    obtain ⟨r₁, h₁, h⟩ := Option.bind_eq_some_iff.1 h
    obtain ⟨r₂, h₂, h⟩ := Option.bind_eq_some_iff.1 h
    obtain ⟨-, -, h₁⟩ := Option.bind_eq_some_iff.1 h₁
    obtain rfl : tick p w = r₁ := Option.some.inj h₁
    rw [tickAll, ← Option.some.inj h, ih h₂]

/-- Several tags are ticked, once each, if their counts are not zero. -/
theorem tickAll?_map {tags ps : List Tag} (hd : tags.Nodup) (hp : ps.Nodup) (count : Tag → Nat)
    (h : ∀ p ∈ ps, p ∈ tags → count p ≠ 0) :
    tickAll? ps (tags.map fun a => (a, count a)) =
      some (tickAll ps (tags.map fun a => (a, count a))) := by
  induction ps generalizing count with
  | nil => rfl
  | cons p ps ih =>
    rw [List.nodup_cons] at hp
    have first : (p, 0) ∉ tags.map fun a => (a, count a) := by
      rw [List.mem_map]
      rintro ⟨a, ha, he⟩
      obtain ⟨rfl, h0⟩ := Prod.mk.inj he
      exact h a List.mem_cons_self ha h0
    have others : ∀ q ∈ ps, q ∈ tags → (if q = p then count q - 1 else count q) ≠ 0 := by
      intro q hq hin
      rw [if_neg fun he : q = p => hp.1 (he ▸ hq)]
      exact h q (List.mem_cons_of_mem _ hq) hin
    have rest := ih hp.2 (fun a => if a = p then count a - 1 else count a) others
    simp only [tickAll?, tick?_eq first, tickAll, tick_map hd, Option.bind_eq_bind,
      Option.bind_some, rest, Option.pure_def]

end Waiting

namespace Edges

/-- Takes the released tags one by one, and ticks what waits for them. -/
def release? (r : Edges) (w : Waiting) : List Tag → Option (List Tag)
  | [] => some []
  | t :: ready =>
    match _h : Waiting.tickAll? (r.parentsOf t) w with
    | some next => (release? r next.1 (ready ++ next.2)).map (t :: ·)
    | none => none
termination_by ready => w.total + ready.length
decreasing_by
  have hle := Waiting.total_tickAll_le (r.parentsOf t) w
  rw [← Waiting.eq_tickAll_of_tickAll? ‹_›] at hle
  simp only [List.length_append, List.length_cons] at hle ⊢
  omega

/-- Some tags and all that depend on them, in an order of evaluation. -/
def order? (r : Edges) (roots : List Tag) : Option (List Tag) :=
  let w := r.waiting (r.reach ∅ roots)
  r.release? w ((w.filter fun e => e.2 = 0).map Prod.fst)

/-- **Only tags that wait are ticked**: what reads a tag that is taken still awaits it. -/
theorem Releasing.release? {r : Edges} (hm : r.Mirrored) {affected : List Tag} (hd : affected.Nodup)
    {w : Waiting} {done ready : List Tag} (h : r.Releasing affected w done ready) :
    r.release? w ready = some (r.release w ready) := by
  fun_induction Edges.release r w ready generalizing done with
  | case1 w => rw [Edges.release?]
  | case2 w t ready ih =>
    have ht : t ∈ affected := ((h.mem_iff t).1 (by simp)).1
    have hdone : t ∉ done := fun hin =>
      (List.nodup_append.1 h.nodup).2.2 t hin t List.mem_cons_self rfl
    have waits : ∀ p ∈ r.parentsOf t, p ∈ affected → (r.awaited affected done p).length ≠ 0 := by
      intro p hp _ h0
      have hin := mem_awaited.2 ⟨(hm p t).1 hp, ht, hdone⟩
      rw [List.length_eq_zero_iff.1 h0] at hin
      exact List.not_mem_nil hin
    have ticked := Waiting.tickAll?_map hd (r.parents.row t).nodup
      (fun a => (r.awaited affected done a).length) waits
    rw [← h.counts] at ticked
    rw [Edges.release?]
    split
    · next next hr =>
      obtain rfl : Waiting.tickAll (r.parentsOf t) w = next :=
        Option.some.inj (ticked.symm.trans hr)
      rw [ih (h.next hm hd)]
      rfl
    · next hr => exact absurd (ticked.symm.trans hr) (Option.some_ne_none _)

/-- **The counts of the order never go below zero.** -/
theorem order?_eq {r : Edges} (hm : r.Mirrored) (roots : List Tag) :
    r.order? roots = some (r.order roots) :=
  (releasing_start r (r.reach ∅ roots)).release? hm (r.reach ∅ roots).nodup

end Edges

/-! ### Propagation -/

namespace Graph

/-- Computes one node; a curve is read at positions that it has, and a diff-clamp has bounds. -/
def evaluate? (g : Graph) (t : Tag) : Option (Graph × Pass) :=
  match g.node? t with
  | none => some (g.evaluate t)
  | some n =>
    match n.kind with
    | .diffClamp (some input) clamp => do
      let (clamp, x) ← clamp.step? n.base (g.read input)
      return (g.update t fun n => { n with kind := .diffClamp (some input) clamp, base := x },
        { recomputed := [t] })
    | .interpolation (some input) curve => do
      let x ← curve.evaluate? (g.read input)
      return (g.store t x, { recomputed := [t] })
    | _ => some (g.evaluate t)

/-- Computes nodes one after the other. -/
def evaluateAll? (g : Graph) : List Tag → Option (Graph × Pass)
  | [] => some (g, {})
  | t :: ts => do
    let (g, pass) ← g.evaluate? t
    let (g, rest) ← evaluateAll? g ts
    return (g, pass.append rest)

/-- The marked nodes that exist, and all that depends on them, in the order of evaluation. -/
def affected? (g : Graph) : Option (List Tag) := g.edges.order? (g.marked.toList.filter g.contains)

/-- Computes the marked nodes again and all that depends on them. -/
def propagate? (g : Graph) : Option (Graph × Pass) := do
  let ts ← g.affected?
  { g with marked := ∅ }.evaluateAll? ts

/-- What guarded steps of a propagation rest on: the graph is sound, and bounds of
diff-clamps are in order. -/
structure Guarded (g : Graph) : Prop where
  sound : g.Sound
  bounded : g.Everywhere Kind.Bounded

variable {g g' : Graph}

/-- A node is computed within bounds. -/
theorem evaluate?_eq (h : g.Everywhere Kind.Bounded) (t : Tag) :
    g.evaluate? t = some (g.evaluate t) := by
  unfold evaluate?
  split
  · rfl
  · next n hn =>
    split
    · next input clamp hk =>
      have hb : Kind.Bounded n.kind := h t n hn
      rw [hk] at hb
      rw [DiffClamp.step?_eq hb]
      simp only [evaluate, hn, hk]
      rfl
    · next input curve hk =>
      rw [Interpolation.evaluate?_eq]
      simp only [evaluate, hn, hk]
      rfl
    · rfl

/-- Nodes are computed within bounds, one after the other. -/
theorem evaluateAll?_eq (h : g.Everywhere Kind.Bounded) (ts : List Tag) :
    g.evaluateAll? ts = some (g.evaluateAll ts) := by
  induction ts generalizing g with
  | nil => rfl
  | cons t ts ih =>
    have kept := h.of_sameDesign Kind.lasting_bounded (sameDesign_evaluate g t)
    simp only [evaluateAll?, evaluateAll, evaluate?_eq h, ih kept, Option.bind_eq_bind,
      Option.bind_some, Option.pure_def]

namespace Guarded

/-- Granted requests leave a graph to which guarded steps apply. -/
theorem perform (h : g.Guarded) {r : Request} (hg : g.perform r = .ok g') : g'.Guarded :=
  ⟨h.sound.perform hg, h.bounded.perform Kind.lasting_bounded hg⟩

/-- **A propagation stays within bounds.** -/
theorem propagate?_eq (h : g.Guarded) : g.propagate? = some g.propagate := by
  have hts : g.affected? = some g.affected := Edges.order?_eq h.sound.mirrored _
  rw [propagate?, hts]
  exact evaluateAll?_eq (g := { g with marked := ∅ }) h.bounded _

end Guarded

end Graph

end MotionGraph
