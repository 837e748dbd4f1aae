import MotionGraph.Proofs.Graph.Unmentioned
import MotionGraph.Proofs.Node.Entries

/-!
# What is left when a node is removed

Removing a node edits the nodes, both maps of edges and the marks one after the other. `drop_purges`
says what comes of it as a whole: nothing refers to the node any more, and all else is as it was.
What the other nodes keep is said entry by entry (`Kind.entries`): the entries that named the node
are gone, and the others stay in their order.

The edges between other nodes are left because the two maps mirror each other (`reads_drop`): the
map of readers decides which rows of the other one are patched.
-/

namespace MotionGraph.Graph

/-- What a node keeps when another one is removed: its name, its numbers, all that names
no node, and the entries that do not name the other one. A node that did not refer to it
is not touched at all. -/
structure Spared (t : Tag) (n n' : Node) : Prop where
  tag : n'.tag = n.tag
  base : n'.base = n.base
  offset : n'.offset = n.offset
  frame : n'.kind.frame = n.kind.frame
  entries : n'.kind.entries = n.kind.entries.filterMap (Entry.without t)
  untouched : (∀ e ∈ n.kind.entries, t ∉ e.tags) → n' = n

/-- Forgetting a node spares the rest. -/
theorem spared_forget (t : Tag) (n : Node) : Spared t n (n.forget t) where
  tag := rfl
  base := rfl
  offset := rfl
  frame := Kind.frame_forget t n.kind
  entries := Kind.entries_forget t n.kind
  untouched h := by
    have href : t ∉ n.kind.references := fun ht => by
      obtain ⟨e, he, ht⟩ := Kind.mem_references_iff.1 ht
      exact h e he ht
    simp only [Node.forget, Kind.forget_of_notMem href]

/-- Nothing that a spared node keeps names the other one. -/
theorem Spared.notMem_tags {t : Tag} {n n' : Node} (h : Spared t n n') {e : Entry}
    (he : e ∈ n'.kind.entries) : t ∉ e.tags := by
  rw [h.entries] at he
  obtain ⟨_, -, he⟩ := List.mem_filterMap.1 he
  exact Entry.notMem_tags_of_without he

/-- What is said of a spared node leaves nothing open but what a diff-clamp remembers. -/
theorem Spared.unique {t : Tag} {n n' n'' : Node} (h : Spared t n n') (h' : Spared t n n'') :
    n''.base = n'.base ∧ n''.design = n'.design := by
  have hk : n''.kind.plan = n'.kind.plan :=
    Kind.plan_eq_of_entries (h'.frame.trans h.frame.symm) (h'.entries.trans h.entries.symm)
  refine ⟨h'.base.trans h.base.symm, ?_⟩
  simp only [Node.design, hk, h'.tag.trans h.tag.symm, h'.offset.trans h.offset.symm]

/-- The nodes that are left are listed in their old order. -/
theorem keys_drop {g : Graph} {t : Tag} {holders : List Holder} {r : Graph × Node}
    (h : g.drop t holders = .ok r) : r.1.nodes.keys = g.nodes.keys.filter fun u => u ≠ t := by
  obtain ⟨n, -, -, -, hr⟩ := drop_eq_ok h
  rw [hr, OrderedMap.keys, OrderedMap.toList_erase, OrderedMap.keys, List.filter_map]
  simp only [OrderedMap.map, List.filter_map, List.map_map]
  rfl

/-- **Removing a node purges every reference to it, and nothing else.** After any requests to the
graph without nodes, a node that is removed is gone, and the others are listed as before; no entry
of any node names it, be it an input, a source, an operand, a follower, a binding or a symbol at any
depth of an expression; the edges are those that did not touch it, in both maps; the marks are the
old ones and those of its readers, without its own; and every other node keeps its name, its base
value, its offset and, in their order, all entries that did not name it. A binding goes as a whole;
in an expression reads become zero and of writes the source remains. -/
theorem drop_purges (requests : List Request) (t : Tag) (holders : List Holder) (r : Graph × Node)
    (h : (empty.afterAll requests).drop t holders = .ok r) :
    let g := empty.afterAll requests
    r.1.nodes.keys = (g.nodes.keys.filter fun u => u ≠ t) ∧
      (∀ u n', r.1.node? u = some n' → ∀ e ∈ n'.kind.entries, t ∉ e.tags) ∧
      (∀ a b, r.1.edges.Reads a b ↔ g.edges.Reads a b ∧ a ≠ t ∧ b ≠ t) ∧
      (∀ a b, a ∈ r.1.edges.parentsOf b ↔ b ∈ r.1.edges.childrenOf a) ∧
      (∀ u, u ∈ r.1.marked ↔ (u ∈ g.marked ∨ g.edges.Reads u t) ∧ u ≠ t) ∧
      ∀ u n, u ≠ t → g.node? u = some n → ∃ n', r.1.node? u = some n' ∧ Spared t n n' := by
  intro g
  have hs : g.Sound := sound_afterAll requests
  have hs' : r.1.Sound := hs.drop h
  have hnode := node?_drop h
  refine ⟨keys_drop h, fun u n' hn' e he => ?_, reads_drop hs.mirrored h, hs'.mirrored,
    mem_marked_drop hs.mirrored h, fun u n hu hn => ⟨n.forget t, ?_, spared_forget t n⟩⟩
  · rw [hnode] at hn'
    split at hn'
    · cases hn'
    · obtain ⟨n, -, rfl⟩ := Option.map_eq_some_iff.1 hn'
      exact (spared_forget t n).notMem_tags he
  · rw [hnode, if_neg hu, show g.node? u = some n from hn, Option.map_some]

/-- Node `1` is read and written by an expression, is given to and receives in a call of it, stands
twice in a sum, and is animated by a tracking node. -/
def namedRun : List Request :=
  [.make ⟨1⟩ (.value 5.0 0.0), .make ⟨2⟩ (.value 7.0 0.0),
   .make ⟨3⟩ (.arithmetic .addition [⟨1⟩, ⟨2⟩, ⟨1⟩]),
   .make ⟨4⟩ (.expression (.block
     [.set ⟨1⟩ (.value ⟨2⟩), .set ⟨2⟩ (.fold .add [.value ⟨1⟩, .number 3.0])])),
   .make ⟨5⟩ (.proc ⟨4⟩ [⟨1⟩, ⟨2⟩, ⟨2⟩] [⟨2⟩, ⟨1⟩, ⟨2⟩]),
   .make ⟨6⟩ (.tracking ⟨9⟩ ⟨2⟩ ⟨1⟩ (.object [])),
   .connect ⟨3⟩ ⟨1⟩, .connect ⟨6⟩ ⟨2⟩]

/-- What is left when node `1` is removed. -/
theorem namedRun_purged :
    ∃ r, (empty.afterAll namedRun).drop ⟨1⟩ [] = .ok r ∧
      (⟨3⟩ ∈ r.1.marked ∧ ⟨1⟩ ∉ r.1.marked ∧ r.1.edges.Reads ⟨6⟩ ⟨2⟩ ∧ ¬r.1.edges.Reads ⟨3⟩ ⟨1⟩) ∧
      (r.1.node? ⟨3⟩).map (fun n => n.kind.entries) = some [.input ⟨2⟩] ∧
      (r.1.node? ⟨4⟩).map (fun n => n.kind.entries) =
        some [.symbol (.block 2), .symbol (.read ⟨2⟩), .symbol (.write ⟨2⟩), .symbol (.fold .add 2),
          .symbol (.number 0.0), .symbol (.number 3.0)] ∧
      (r.1.node? ⟨5⟩).map (fun n => n.kind.entries) = some [.callee ⟨4⟩, .binding ⟨2⟩ ⟨2⟩] ∧
      (r.1.node? ⟨6⟩).map (fun n => n.kind.entries) = some [.input ⟨2⟩] := by
  have ok : ((empty.afterAll namedRun).drop ⟨1⟩ []).isOk = true := by decide +kernel
  cases hr : (empty.afterAll namedRun).drop ⟨1⟩ [] with
  | error cause =>
    rw [hr] at ok
    cases ok
  | ok r =>
    obtain ⟨-, -, edges, -, marks, spared⟩ := drop_purges namedRun ⟨1⟩ [] r hr
    have purged : ∀ u entries, u ≠ ⟨1⟩ →
        ((empty.afterAll namedRun).node? u).map
          (fun n => n.kind.entries.filterMap (Entry.without ⟨1⟩)) = some entries →
        (r.1.node? u).map (fun n => n.kind.entries) = some entries := by
      intro u entries hu he
      obtain ⟨n, hn, rfl⟩ := Option.map_eq_some_iff.1 he
      obtain ⟨n', hn', keeps⟩ := spared u n hu hn
      rw [hn', Option.map_some, keeps.entries]
    have read : (empty.afterAll namedRun).edges.Reads ⟨3⟩ ⟨1⟩ := by decide +kernel
    have other : (empty.afterAll namedRun).edges.Reads ⟨6⟩ ⟨2⟩ := by decide +kernel
    refine ⟨r, rfl, ⟨?_, ?_, ?_, ?_⟩, purged ⟨3⟩ _ (by decide) ?_, purged ⟨4⟩ _ (by decide) ?_,
      purged ⟨5⟩ _ (by decide) ?_, purged ⟨6⟩ _ (by decide) ?_⟩
    · exact (marks ⟨3⟩).2 ⟨.inr read, by decide⟩
    · exact fun h => ((marks ⟨1⟩).1 h).2 rfl
    · exact (edges ⟨6⟩ ⟨2⟩).2 ⟨other, by decide, by decide⟩
    · exact fun h => ((edges ⟨3⟩ ⟨1⟩).1 h).2.2 rfl
    · with_unfolding_all rfl
    · with_unfolding_all rfl
    · with_unfolding_all rfl
    · with_unfolding_all rfl

end MotionGraph.Graph
