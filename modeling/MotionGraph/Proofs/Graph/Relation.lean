import MotionGraph.Graph.Edges
import MotionGraph.Proofs.Ordered.Lookup
import Mathlib.Logic.Relation

/-!
# Edges as a relation

`Edges` keeps every edge twice, by parent and by child. `Edges.Reads` is the relation of the first
map, and `Edges.Mirrored` says that the second map is its converse. The three ways of changing
edges, `link`, `unlink` and `detach`, are described by what they do to `Reads` (`reads_link`,
`reads_unlink`, `reads_detach`), and each keeps the two maps mirrored.

`Edges.Acyclic` says that no tag depends on itself. Taking edges away keeps that
(`Acyclic.mono`), and so does a new edge unless it closes a chain that is already there
(`Acyclic.link`).
-/

namespace MotionGraph

namespace TagSets

/-! ### Rows after an operation -/

/-- Adding a tag to one set changes that set alone. -/
theorem mem_row_add {m : TagSets} {k a j b : Tag} :
    b ∈ (m.add k a).row j ↔ b ∈ m.row j ∨ (j = k ∧ b = a) := by
  unfold add
  by_cases hj : j = k
  · subst hj
    simp [row, OrderedMap.get?_insert]
  · simp [row, OrderedMap.get?_insert, hj]

/-- Removing a tag from one set changes that set alone. -/
theorem mem_row_remove {m : TagSets} {k a j b : Tag} :
    b ∈ (m.remove k a).row j ↔ b ∈ m.row j ∧ ¬(j = k ∧ b = a) := by
  unfold remove row
  rw [OrderedMap.get?_modify]
  by_cases hj : j = k
  · subst hj
    cases m.get? j with
    | none => simp [← OrderedSet.mem_toList, EmptyCollection.emptyCollection, OrderedSet.empty]
    | some s => simp
  · simp [hj]

/-- Removing a tag from several sets changes those sets alone. -/
theorem mem_row_removeFromAll {ks : List Tag} {m : TagSets} {a j b : Tag} :
    b ∈ (m.removeFromAll ks a).row j ↔ b ∈ m.row j ∧ ¬(j ∈ ks ∧ b = a) := by
  unfold removeFromAll
  induction ks generalizing m with
  | nil => simp
  | cons k ks ih =>
    rw [List.foldl_cons, ih, mem_row_remove, List.mem_cons]
    tauto

/-- Taking out a whole set leaves the others. -/
theorem mem_row_swapErase {m : TagSets} {k j b : Tag} :
    b ∈ row (m.swapErase k) j ↔ j ≠ k ∧ b ∈ m.row j := by
  unfold row
  rw [OrderedMap.get?_swapErase]
  by_cases hj : j = k
  · simp [hj, ← OrderedSet.mem_toList, EmptyCollection.emptyCollection, OrderedSet.empty]
  · simp [hj]

end TagSets

namespace Edges

/-! ### The relation and its converse -/

/-- `parent` reads `child` by an edge. -/
def Reads (r : Edges) (parent child : Tag) : Prop := child ∈ r.childrenOf parent

instance (r : Edges) (parent child : Tag) : Decidable (r.Reads parent child) :=
  inferInstanceAs (Decidable (child ∈ r.childrenOf parent))

/-- The two maps hold the same edges: the parents kept with a child are those that read it. -/
def Mirrored (r : Edges) : Prop := ∀ parent child, parent ∈ r.parentsOf child ↔ r.Reads parent child

/-- No tag depends on itself, directly or through others. -/
def Acyclic (r : Edges) : Prop := ∀ t, ¬Relation.TransGen r.Reads t t

/-- `contains` decides the relation. -/
theorem contains_iff {r : Edges} {p c : Tag} : r.contains p c = true ↔ r.Reads p c :=
  OrderedSet.contains_iff

/-- Without edges nothing reads anything. -/
theorem not_reads_empty (p c : Tag) : ¬Reads {} p c := List.not_mem_nil

/-- Without edges the maps are mirrored. -/
theorem mirrored_empty : Mirrored {} := fun _ _ =>
  ⟨fun h => absurd h List.not_mem_nil, fun h => absurd h List.not_mem_nil⟩

/-! ### Adding and removing an edge -/

/-- The new edge joins the old ones. -/
theorem reads_link {r : Edges} {p c a b : Tag} :
    (r.link p c).Reads a b ↔ r.Reads a b ∨ (a = p ∧ b = c) := by
  simp only [Reads, childrenOf, link, OrderedSet.mem_toList]
  exact TagSets.mem_row_add

/-- A new edge is kept in both maps. -/
theorem Mirrored.link {r : Edges} (h : r.Mirrored) (p c : Tag) : (r.link p c).Mirrored := by
  intro a b
  rw [reads_link, ← h a b]
  simp only [parentsOf, Edges.link, OrderedSet.mem_toList, TagSets.mem_row_add]
  tauto

/-- The removed edge is gone, and only it. -/
theorem reads_unlink {r : Edges} {p c a b : Tag} :
    (r.unlink p c).Reads a b ↔ r.Reads a b ∧ ¬(a = p ∧ b = c) := by
  simp only [Reads, childrenOf, unlink, OrderedSet.mem_toList]
  exact TagSets.mem_row_remove

/-- An edge is removed from both maps. -/
theorem Mirrored.unlink {r : Edges} (h : r.Mirrored) (p c : Tag) : (r.unlink p c).Mirrored := by
  intro a b
  rw [reads_unlink, ← h a b]
  simp only [parentsOf, Edges.unlink, OrderedSet.mem_toList, TagSets.mem_row_remove]
  tauto

/-! ### Removing all edges at a tag -/

/-- The edges after `detach` are those that do not touch the tag. The second map decides which
parents are patched, so it has to mirror the first. -/
theorem reads_detach {r : Edges} (h : r.Mirrored) {t a b : Tag} :
    (r.detach t).1.Reads a b ↔ r.Reads a b ∧ a ≠ t ∧ b ≠ t := by
  have hp := h a t
  simp only [Reads, childrenOf, parentsOf, detach, OrderedSet.mem_toList] at hp ⊢
  rw [TagSets.mem_row_removeFromAll, TagSets.mem_row_swapErase, OrderedSet.mem_toList,
    TagSets.mem_row_removeFromAll, hp]
  by_cases hb : b = t
  · subst hb
    tauto
  · tauto

/-- `detach` keeps the maps mirrored. -/
theorem Mirrored.detach {r : Edges} (h : r.Mirrored) (t : Tag) : (r.detach t).1.Mirrored := by
  intro a b
  rw [reads_detach h, ← h a b]
  have hr := h t b
  simp only [Reads, childrenOf, parentsOf, Edges.detach, OrderedSet.mem_toList] at hr ⊢
  rw [TagSets.mem_row_swapErase, TagSets.mem_row_removeFromAll, OrderedSet.mem_toList]
  constructor
  · rintro ⟨hb, ha, hn⟩
    exact ⟨ha, fun e => hn ⟨hr.1 (e ▸ ha), e⟩, hb⟩
  · rintro ⟨ha, hne, hb⟩
    exact ⟨hb, ha, fun hn => hne hn.2⟩

/-- `detach` hands out exactly the edges that touch the tag. -/
theorem mem_detach {r : Edges} (h : r.Mirrored) {t : Tag} {e : Edge} :
    e ∈ (r.detach t).2 ↔ r.Reads e.parent e.child ∧ (e.parent = t ∨ e.child = t) := by
  obtain ⟨a, b⟩ := e
  have hp := h a t
  simp only [Reads, childrenOf, parentsOf, detach, OrderedSet.mem_toList] at hp ⊢
  simp only [List.mem_append, List.mem_map, Edge.mk.injEq, OrderedSet.mem_toList,
    TagSets.mem_row_removeFromAll]
  constructor
  · rintro (⟨c, hc, rfl, rfl⟩ | ⟨c, ⟨hc, -⟩, rfl, rfl⟩)
    · exact ⟨hc, Or.inl rfl⟩
    · exact ⟨hp.1 hc, Or.inr rfl⟩
  · rintro ⟨hab, ht⟩
    by_cases ha : a = t
    · subst ha
      exact Or.inl ⟨b, hab, rfl, rfl⟩
    · obtain rfl := ht.resolve_left ha
      exact Or.inr ⟨a, ⟨hp.2 hab, fun hn => ha hn.2⟩, rfl, rfl⟩

/-! ### Chains of edges -/

/-- Fewer edges have fewer chains. -/
theorem Acyclic.mono {r s : Edges} (h : r.Acyclic) (hs : ∀ a b, s.Reads a b → r.Reads a b) :
    s.Acyclic := fun t ht => h t (Relation.TransGen.mono hs _ _ ht)

/-- Without edges there is no chain. -/
theorem acyclic_empty : Acyclic {} := by
  intro t h
  obtain ⟨b, hb, -⟩ := Relation.TransGen.head'_iff.1 h
  exact not_reads_empty t b hb

/-- A chain after a new edge either was there before or runs through that edge. -/
theorem transGen_link {r : Edges} {p c a b : Tag} (h : Relation.TransGen (r.link p c).Reads a b) :
    Relation.TransGen r.Reads a b ∨
      (Relation.ReflTransGen r.Reads a p ∧ Relation.ReflTransGen r.Reads c b) := by
  induction h with
  | single hab =>
    rcases reads_link.1 hab with hab | ⟨rfl, rfl⟩
    · exact Or.inl (.single hab)
    · exact Or.inr ⟨.refl, .refl⟩
  | tail _ hbd ih =>
    rcases reads_link.1 hbd with hbd | ⟨rfl, rfl⟩
    · rcases ih with ih | ⟨h₁, h₂⟩
      · exact Or.inl (ih.tail hbd)
      · exact Or.inr ⟨h₁, h₂.tail hbd⟩
    · rcases ih with ih | ⟨h₁, -⟩
      · exact Or.inr ⟨ih.to_reflTransGen, .refl⟩
      · exact Or.inr ⟨h₁, .refl⟩

/-- A new edge closes no chain if its child does not depend on its parent. -/
theorem Acyclic.link {r : Edges} (h : r.Acyclic) {p c : Tag}
    (hn : ¬Relation.ReflTransGen r.Reads c p) : (r.link p c).Acyclic := by
  intro t ht
  rcases transGen_link ht with ht | ⟨h₁, h₂⟩
  · exact h t ht
  · exact hn (h₂.trans h₁)

end Edges

end MotionGraph
