import MotionGraph.Graph.Edges

/-!
# The order of evaluation

When some nodes have changed, they and everything that depends on them are computed again, each
node after those of its inputs that are computed again. `Edges.order` finds such an order by
counting: every node waits for as many inputs as it has among the affected ones, and is released
when the last of them is done. It ends because each released node costs one of a finite number of
credits: the inputs still awaited and the nodes already released.
-/

namespace MotionGraph

/-- Tags with the number of inputs each still waits for. -/
abbrev Waiting := List (Tag × Nat)

namespace Waiting

/-- All inputs still awaited, together. -/
def total : Waiting → Nat
  | [] => 0
  | e :: rest => e.2 + total rest

/-- One input of `p` is done; tells whether it was the last. A tag that is not waiting, or waits
for nothing, stays as it is. -/
def tick (p : Tag) : Waiting → Waiting × Bool
  | [] => ([], false)
  | (t, n) :: rest =>
    if t = p then
      match n with
      | 0 => ((t, 0) :: rest, false)
      | n + 1 => ((t, n) :: rest, n = 0)
    else
      let (rest', last) := tick p rest
      ((t, n) :: rest', last)

/-- One input of each of several tags is done; lists those for which it was the last. -/
def tickAll : List Tag → Waiting → Waiting × List Tag
  | [], w => (w, [])
  | p :: ps, w =>
    let (w, last) := tick p w
    let (w, released) := tickAll ps w
    (w, if last then p :: released else released)

/-- A tag that is released has one input less to wait for. -/
theorem total_tick_le (p : Tag) (w : Waiting) :
    total (tick p w).1 + (if (tick p w).2 then 1 else 0) ≤ total w := by
  induction w with
  | nil => simp [tick, total]
  | cons e rest ih =>
    obtain ⟨t, n⟩ := e
    unfold tick
    by_cases h : t = p
    · cases n with
      | zero => simp [h, total]
      | succ n =>
        simp only [h, if_true, total]
        split <;> omega
    · simp only [h, if_false, total]
      omega

/-- Every released tag has cost one awaited input. -/
theorem total_tickAll_le (ps : List Tag) (w : Waiting) :
    total (tickAll ps w).1 + (tickAll ps w).2.length ≤ total w := by
  induction ps generalizing w with
  | nil => simp [tickAll]
  | cons p ps ih =>
    have h1 := total_tick_le p w
    have h2 := ih (tick p w).1
    simp only [tickAll]
    split
    · next h => simp only [h, if_true] at h1; simp only [List.length_cons]; omega
    · omega

end Waiting

namespace Edges

/-- The tags of a set with the number of their inputs in that set. -/
def waiting (r : Edges) (affected : OrderedSet Tag) : Waiting :=
  affected.toList.map fun t => (t, ((r.childrenOf t).filter affected.contains).length)

/-- Takes the released tags one by one, and releases what waited for them alone. -/
def release (r : Edges) (w : Waiting) : List Tag → List Tag
  | [] => []
  | t :: ready =>
    t :: release r (Waiting.tickAll (r.parentsOf t) w).1
      (ready ++ (Waiting.tickAll (r.parentsOf t) w).2)
termination_by ready => w.total + ready.length
decreasing_by
  have h := Waiting.total_tickAll_le (r.parentsOf t) w
  simp only [List.length_append, List.length_cons]
  omega

/-- Some tags and all that depend on them, in an order of evaluation. -/
def order (r : Edges) (roots : List Tag) : List Tag :=
  let w := r.waiting (r.reach ∅ roots)
  r.release w ((w.filter fun e => e.2 = 0).map Prod.fst)

end Edges

end MotionGraph
