import MotionGraph.Ordered.Map
import MotionGraph.Ordered.Set
import MotionGraph.Tag

/-!
# The edges of a graph

An edge leads from a parent to a child that the parent reads. `Edges` keeps them in both
directions: with every parent its children, with every child its parents, each in the order in
which the edges were made.

`Edges.reach` collects what depends on some tags, directly or through others, breadth first. It
ends because each tag is expanded once: what a tag adds to the queue is its parents, and these are
no longer owed when it is collected.
-/

namespace MotionGraph

/-- An edge: `parent` reads `child`. -/
structure Edge where
  parent : Tag
  child : Tag
  deriving DecidableEq, Repr

/-- Whether an edge begins or ends at a tag. -/
def Edge.touches (e : Edge) (t : Tag) : Bool := e.parent = t || e.child = t

/-- Sets of tags, by tag. -/
abbrev TagSets := OrderedMap Tag (OrderedSet Tag)

namespace TagSets

/-- The set at a tag; empty where none is kept. -/
def row (m : TagSets) (k : Tag) : OrderedSet Tag := (m.get? k).getD ∅

/-- Adds a tag to the set at another. -/
def add (m : TagSets) (k a : Tag) : TagSets := m.insert k ((m.row k).insert a)

/-- Removes a tag from the set at another; an empty set stays. -/
def remove (m : TagSets) (k a : Tag) : TagSets := m.modify k fun s => s.erase a

/-- Removes a tag from the sets at several others. -/
def removeFromAll (m : TagSets) (ks : List Tag) (a : Tag) : TagSets :=
  ks.foldl (fun m k => remove m k a) m

end TagSets

/-- The edges, by parent and by child. -/
structure Edges where
  children : TagSets := ∅
  parents : TagSets := ∅

namespace Edges

instance : Inhabited Edges := ⟨{}⟩

/-- No edges. -/
def empty : Edges := {}

/-- The children of a tag. -/
def childrenOf (r : Edges) (t : Tag) : List Tag := (r.children.row t).toList

/-- The parents of a tag. -/
def parentsOf (r : Edges) (t : Tag) : List Tag := (r.parents.row t).toList

/-- Whether `parent` reads `child`. -/
def contains (r : Edges) (parent child : Tag) : Bool := (r.children.row parent).contains child

/-- Adds an edge. -/
def link (r : Edges) (parent child : Tag) : Edges :=
  ⟨r.children.add parent child, r.parents.add child parent⟩

/-- Removes an edge. -/
def unlink (r : Edges) (parent child : Tag) : Edges :=
  ⟨r.children.remove parent child, r.parents.remove child parent⟩

/-- Removes every edge at a tag, and lists them: first those to its children, then those from its
remaining parents. The last entry of either map takes the place of the tag's. -/
def detach (r : Edges) (t : Tag) : Edges × List Edge :=
  let below := r.childrenOf t
  let parents := r.parents.removeFromAll below t
  let above := (parents.row t).toList
  let children := TagSets.removeFromAll (r.children.swapErase t) above t
  (⟨children, parents.swapErase t⟩, below.map (fun c => ⟨t, c⟩) ++ above.map fun p => ⟨p, t⟩)

/-- All edges, by parent. -/
def toList (r : Edges) : List Edge :=
  r.children.toList.flatMap fun p => p.2.toList.map fun c => ⟨p.1, c⟩

/-- Number of edges. -/
def count (r : Edges) : Nat := r.children.values.foldr (fun s n => s.size + n) 0

/-- Tags without an entry have no parents. -/
theorem parentsOf_eq_nil {r : Edges} {t : Tag} (h : t ∉ r.parents.keys) : r.parentsOf t = [] := by
  have hn : r.parents.get? t = none := by
    cases hg : r.parents.get? t with
    | none => rfl
    | some s => exact absurd (OrderedMap.get?_isSome_iff.1 (by simp [hg])) h
  simp [parentsOf, TagSets.row, hn, EmptyCollection.emptyCollection, OrderedSet.empty]

/-- How many parents the tags have that are not among the given ones, together. -/
def owed (seen : OrderedSet Tag) (rows : List (Tag × OrderedSet Tag)) : Nat :=
  (rows.filter fun e => !seen.contains e.1).foldr (fun e n => e.2.size + n) 0

/-- Rows of other tags than `t` do not tell whether `t` was collected. -/
theorem owed_insert_of_notMem {seen : OrderedSet Tag} {t : Tag}
    {rows : List (Tag × OrderedSet Tag)} (h : t ∉ rows.map Prod.fst) :
    owed (seen.insert t) rows = owed seen rows := by
  unfold owed
  congr 1
  refine List.filter_congr fun e he => ?_
  have hne : e.1 ≠ t := fun ht => h (ht ▸ List.mem_map_of_mem he)
  rw [Bool.eq_iff_iff, Bool.not_eq_true', Bool.not_eq_true', Bool.eq_false_iff, Bool.eq_false_iff,
    ne_eq, ne_eq, OrderedSet.contains_iff, OrderedSet.contains_iff, OrderedSet.mem_insert]
  simp [hne]

/-- Collecting a tag pays for its parents. -/
theorem owed_insert_add_le {seen : OrderedSet Tag} {t : Tag} (hs : seen.contains t = false)
    {rows : List (Tag × OrderedSet Tag)} (hd : (rows.map Prod.fst).Nodup) {s : OrderedSet Tag}
    (hm : (t, s) ∈ rows) : owed (seen.insert t) rows + s.size = owed seen rows := by
  induction rows with
  | nil => exact absurd hm List.not_mem_nil
  | cons e rows ih =>
    rw [List.map_cons, List.nodup_cons] at hd
    have hin : (seen.insert t).contains t = true :=
      OrderedSet.contains_iff.2 (OrderedSet.mem_insert.2 (Or.inr rfl))
    rcases List.mem_cons.1 hm with rfl | hm
    · have hrest : owed (seen.insert t) rows = owed seen rows := owed_insert_of_notMem hd.1
      simp only [owed] at hrest
      simp only [owed, List.filter_cons, hin, hs, Bool.not_true, Bool.not_false,
        Bool.false_eq_true, if_false, if_true, List.foldr_cons, hrest]
      omega
    · have hne : e.1 ≠ t := fun ht => hd.1 (ht ▸ List.mem_map_of_mem hm)
      have hsame : (seen.insert t).contains e.1 = seen.contains e.1 := by
        rw [Bool.eq_iff_iff, OrderedSet.contains_iff, OrderedSet.contains_iff,
          OrderedSet.mem_insert]
        simp [hne]
      have hrest := ih hd.2 hm
      simp only [owed] at hrest
      simp only [owed, List.filter_cons, hsame]
      split
      · simp only [List.foldr_cons]
        omega
      · exact hrest

/-- What collecting a tag adds to the queue is no longer owed. -/
theorem owed_insert_add_length_le (r : Edges) {seen : OrderedSet Tag} {t : Tag}
    (hs : seen.contains t = false) :
    owed (seen.insert t) r.parents.toList + (r.parentsOf t).length ≤
      owed seen r.parents.toList := by
  by_cases hk : t ∈ r.parents.keys
  · obtain ⟨s, hg⟩ := Option.isSome_iff_exists.1 (OrderedMap.get?_isSome_iff.2 hk)
    obtain ⟨⟨u, v⟩, hf, rfl⟩ := Option.map_eq_some_iff.1 hg
    have hu := List.find?_some hf
    simp only [decide_eq_true_eq] at hu
    subst hu
    have hrow : r.parentsOf u = v.toList := by
      simp only [parentsOf, TagSets.row, hg, Option.getD_some]
    rw [hrow]
    exact Nat.le_of_eq (owed_insert_add_le hs r.parents.keys_nodup (List.mem_of_find?_eq_some hf))
  · rw [parentsOf_eq_nil hk, owed_insert_of_notMem hk]
    exact Nat.le_refl _

/-- Collects the tags of a queue and everything that depends on them, breadth first, after what
was seen before. -/
def reach (r : Edges) (seen : OrderedSet Tag) : List Tag → OrderedSet Tag
  | [] => seen
  | t :: queue =>
    if seen.contains t then reach r seen queue
    else reach r (seen.insert t) (queue ++ r.parentsOf t)
termination_by queue => owed seen r.parents.toList + queue.length
decreasing_by
  · simp only [List.length_cons]
    omega
  · next h =>
    have hle := r.owed_insert_add_length_le (Bool.eq_false_iff.2 h)
    simp only [List.length_append, List.length_cons]
    omega

/-- Whether `ancestor` depends on `t`, directly or through others. -/
def isAncestor (r : Edges) (ancestor t : Tag) : Bool :=
  (r.reach ∅ (r.parentsOf t)).contains ancestor

/-! ### Calls -/

/-- What changes edges. -/
inductive Call where
  /-- Adds an edge. -/
  | link (parent child : Tag)
  /-- Removes an edge. -/
  | unlink (parent child : Tag)
  /-- Removes every edge at a tag. -/
  | detach (t : Tag)
  deriving DecidableEq, Repr

/-- What a call tells. -/
inductive Answer where
  /-- Whether an edge has come or gone. -/
  | changed (b : Bool)
  /-- The edges that are gone. -/
  | removed (edges : List Edge)
  deriving DecidableEq, Repr

/-- Carries out a call and tells what came of it: an edge comes if it was not there, and goes if it
was. -/
def perform (r : Edges) : Call → Edges × Answer
  | .link parent child => (r.link parent child, .changed !(r.contains parent child))
  | .unlink parent child => (r.unlink parent child, .changed (r.contains parent child))
  | .detach t =>
    let (r, removed) := r.detach t
    (r, .removed removed)

end Edges

end MotionGraph
