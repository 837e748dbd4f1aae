import MotionGraph.Proofs.Node.Entries
import MotionGraph.Proofs.Node.Walk
import MotionGraph.Proofs.Ordered.Members

/-!
# Expressions that have forgotten a node

What a tree does after it has forgotten a node is what it did before when the node is a ghost
(`Access.without`): the node reads as zero, even right after a write, and a write to it is worth
its source but leaves the store as it is. This holds of walks over any store
(`Expr.walk_forget`), so in particular of evaluation (`Expr.forget_exact`), where the store is
the list of writes that reads see.

Which nodes a tree names without the forgotten one, and that the order of forgetting
does not matter, is read off the entries of the tree: forgetting is a filter on its
namings and on its symbols.
-/

namespace MotionGraph

/-- A store in which a node is a ghost: it reads as zero, and a write to it is not carried out. -/
def Access.without {σ : Type} (a : Access σ) (t : Tag) : Access σ where
  read s u := if u = t then 0.0 else a.read s u
  write s u x := if u = t then s else a.write s u x

namespace Expr

/-! ### Walks -/

section Walks

variable {σ : Type} (a : Access σ) (t : Tag)

mutual

/-- **A tree that has forgotten a node walks as if the node were a ghost.** -/
theorem walk_forget : ∀ e : Expr, (e.forget t).walk a = e.walk (a.without t)
  | .fold op operands => walkFold_forgetAll op operands
  | .unary op e => by
    simp only [forget, walk, walk_forget e]
  | .compare op l r => by
    simp only [forget, walk, walk_forget l, walk_forget r]
  | .value u => by
    by_cases h : u = t
    · -- the number zero is what the ghost reads as
      simp only [forget, walk, Access.without, h, if_true]
      rfl
    · simp only [forget, walk, Access.without, h, if_false]
  | .number x => rfl
  | .cond test yes no => by
    simp only [forget, walk, walk_forget test, walk_forget yes, walk_forget no]
  | .set u source => by
    by_cases h : u = t
    · -- the source alone is what is left of a write that is not carried out
      simp only [forget, walk, Access.without, h, if_true, walk_forget source]
      rfl
    · simp only [forget, walk, Access.without, h, if_false, walk_forget source]
  | .block steps => walkAll_forgetAll (fun _ x => x) 0.0 steps
termination_by structural e => e

/-- So do the operands of an operator. -/
theorem walkFold_forgetAll (op : FoldOp) : ∀ es : List Expr,
    walkFold a op (forgetAll t es) = walkFold (a.without t) op es
  | [] => rfl
  | e :: es => by
    simp only [forgetAll, walkFold, walk_forget e, walkAll_forgetAll op.apply _ es]
termination_by structural es => es

/-- So do several trees. -/
theorem walkAll_forgetAll (f : Float → Float → Float) : ∀ (acc : Float) (es : List Expr),
    walkAll a f acc (forgetAll t es) = walkAll (a.without t) f acc es
  | acc, [] => rfl
  | acc, e :: es => by
    simp only [forgetAll, walkAll, walk_forget e, walkAll_forgetAll f _ es]
termination_by structural _ es => es

end

end Walks

/-! ### Names and trees -/

/-- A tree that has forgotten a node names the others, in their order. -/
theorem tags_forget (t : Tag) (e : Expr) : (e.forget t).tags = e.tags.erase t := by
  rw [tags, mentions_forget]
  exact (OrderedSet.filter_insertAll _ OrderedSet.empty e.mentions).symm

/-- What is left of a symbol does not depend on which of two nodes goes first. -/
theorem Symbol.without_comm (t u : Tag) (s : Symbol) :
    (s.without t).bind (without u) = (s.without u).bind (without t) := by
  cases s with
  | read v | write v =>
    rcases eq_or_ne v t with rfl | ht
    · rcases eq_or_ne v u with rfl | hu
      · rfl
      · simp [without, tag?, remainder, hu]
    · rcases eq_or_ne v u with rfl | hu
      · simp [without, tag?, remainder, ht]
      · simp [without, tag?, ht, hu]
  | _ => rfl

/-- A tree forgets two nodes in either order. -/
theorem forget_comm (t u : Tag) (e : Expr) : (e.forget t).forget u = (e.forget u).forget t := by
  apply symbols_injective
  rw [symbols_forget, symbols_forget, symbols_forget, symbols_forget, List.filterMap_filterMap,
    List.filterMap_filterMap]
  exact List.filterMap_congr fun s _ => Symbol.without_comm t u s

/-- A tree forgets a node once and for all. -/
theorem forget_forget (t : Tag) (e : Expr) : (e.forget t).forget t = e.forget t := by
  apply forget_of_notMem
  rw [mentions_forget, List.mem_filter]
  simp

/-- **Forgetting a node makes it a ghost, and nothing else.** A tree that has forgotten a node
has the value and asks for the writes that it has and asks for when every read of the node gives
zero, also after a write, and every write to it is worth its source but is not carried out. It
names the other nodes as before, each once. Two nodes are forgotten in either order, and one is
forgotten once and for all. -/
theorem forget_exact (e : Expr) (t : Tag) :
    (∀ read, e.evaluate read = (e.walk (overlay read)).run [] ∧
      (e.forget t).evaluate read = (e.walk ((overlay read).without t)).run []) ∧
      (e.forget t).tags.toList = e.tags.toList.filter (fun u => u ≠ t) ∧
      (e.forget t).tags.toList.Nodup ∧
      (∀ u, (e.forget t).forget u = (e.forget u).forget t) ∧
      (e.forget t).forget t = e.forget t := by
  refine ⟨fun read => ⟨eval_eq_walk read e [], ?_⟩, ?_, (e.forget t).tags.nodup,
    fun u => forget_comm t u e, forget_forget t e⟩
  · rw [evaluate, eval_eq_walk, walk_forget]
  · rw [tags_forget]
    rfl

/-- A node that is read right after it was set reads as zero once it is forgotten. -/
example :
    ((block [.set ⟨2⟩ (.number 5.0), .value ⟨2⟩]).forget ⟨2⟩).evaluate (fun _ => some 7.0) =
      (0.0, []) :=
  rfl

end Expr

end MotionGraph
