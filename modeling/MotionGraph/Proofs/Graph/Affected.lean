import MotionGraph.Proofs.Graph.Roles
import MotionGraph.Proofs.Graph.Schedule

/-!
# What a propagation computes

A propagation computes the marked nodes that are there and all that depends on them, each once and
after all of its inputs that are computed, too; it notes the props nodes among them and no others
(`affected_exact`). That holds of every graph whose edges run in no circle and are the same in both
maps, whatever is marked.

What has to be computed is what the search from the marked nodes collects, and the release by
counting gives back all of it (`Edges.perm_order`). No tag of an order comes before something that
it reads (`Edges.pairwise_order`), so that what a tag reads stands in front of it
(`Edges.mem_before_of_reads`).
-/

namespace MotionGraph

namespace Edges

variable {r : Edges}

/-- Releasing tags by counting leaves none of the collected ones out. -/
theorem perm_order (hm : r.Mirrored) (ha : r.Acyclic) (roots : List Tag) :
    (r.order roots).Perm (r.reach ∅ roots).toList := by
  refine (List.perm_ext_iff_of_nodup (nodup_order hm roots) (r.reach ∅ roots).nodup).2 fun t => ?_
  rw [mem_order_iff hm roots ha, OrderedSet.mem_toList, mem_reach_iff hm]

/-- What a tag of the order reads stands in front of the tag, if it is in the order. -/
theorem mem_before_of_reads (hm : r.Mirrored) (ha : r.Acyclic) {roots before rest : List Tag}
    {p c : Tag} (ho : r.order roots = before ++ p :: rest) (hc : c ∈ r.order roots)
    (hr : r.Reads p c) : c ∈ before := by
  have hpair := pairwise_order hm roots
  rw [ho, List.pairwise_append, List.pairwise_cons] at hpair
  rw [ho, List.mem_append, List.mem_cons] at hc
  rcases hc with hc | rfl | hc
  · exact hc
  · exact absurd (.single hr) (ha c)
  · exact absurd hr (hpair.2.1.1 c hc)

end Edges

namespace Graph

/-- Computing a node notes no other node. -/
theorem eq_of_mem_sinks_evaluate {g : Graph} {t u : Tag} (h : u ∈ (g.evaluate t).2.sinks) :
    u = t := by
  have noted : ∀ sink : Bool, u ∈ (if sink then OrderedSet.empty.insert t else ∅) → u = t := by
    intro sink hu
    cases sink with
    | false => cases hu
    | true => exact (OrderedSet.mem_insert.1 hu).resolve_left List.not_mem_nil
  unfold evaluate at h
  split at h
  · cases h
  · next n hn =>
    split at h
    · cases h
    · cases h
    · dsimp only at h
      split at h <;> exact noted _ h

/-- Computing several nodes notes none but these. -/
theorem mem_of_mem_sinks_evaluateAll {ts : List Tag} {g : Graph} {u : Tag}
    (h : u ∈ (g.evaluateAll ts).2.sinks) : u ∈ ts := by
  induction ts generalizing g with
  | nil => cases h
  | cons t ts ih =>
    rcases OrderedSet.mem_insertAll.1 h with h | h
    · exact eq_of_mem_sinks_evaluate h ▸ List.mem_cons_self
    · exact List.mem_cons_of_mem t (ih h)

/-- A propagation notes exactly the props nodes among those that it computes. -/
theorem mem_sinks_propagate_iff {g : Graph} {t : Tag} :
    t ∈ g.propagate.2.sinks ↔ t ∈ g.affected ∧ ∃ n p, g.node? t = some n ∧ n.kind = .props p := by
  constructor
  · intro h
    have hrole : ∃ v, g.role? t = some (v, true) :=
      role?_of_mem_sinks_evaluateAll (g := { g with marked := ∅ }) h
    obtain ⟨⟨n, p⟩, hp⟩ := props_iff_role?.2 hrole
    obtain ⟨hn, hk⟩ := props_eq_ok.1 hp
    exact ⟨mem_of_mem_sinks_evaluateAll h, n, p, hn, hk⟩
  · rintro ⟨ht, n, p, hn, hk⟩
    have hs : n.isSink = true := by rw [Node.isSink, hk, Kind.isSink]
    exact mem_sinks_evaluateAll (g := { g with marked := ∅ }) ht hn hs

/-- **A propagation computes what is affected, each node once and after its inputs.** On edges that
run in no circle and are the same in both maps, and whatever is marked, the order of evaluation
lists, each once, the marked nodes that are there and all that depends on them; it is all that the
search has collected; each node comes after all of its inputs that are listed; the pass computes the
nodes in this order, and notes those of them that hand values to views, and no others. -/
theorem affected_exact {g : Graph} (ha : g.edges.Acyclic) (hm : g.edges.Mirrored) :
    g.affected.Nodup ∧
      (∀ t, t ∈ g.affected ↔
        ∃ s ∈ g.marked, g.contains s = true ∧ g.edges.DependsOn t s) ∧
      g.affected.Perm (g.edges.reach ∅ (g.marked.toList.filter g.contains)).toList ∧
      (∀ before p rest, g.affected = before ++ p :: rest →
        ∀ c ∈ g.affected, g.edges.Reads p c → c ∈ before) ∧
      g.propagate.2.recomputed = g.affected ∧
      ∀ t, t ∈ g.propagate.2.sinks ↔
        t ∈ g.affected ∧ ∃ n p, g.node? t = some n ∧ n.kind = .props p := by
  refine ⟨Edges.nodup_order hm _, fun t => ?_, Edges.perm_order hm ha _,
    fun before p rest ho c hc hr => Edges.mem_before_of_reads hm ha ho hc hr,
    recomputed_propagate g, fun t => mem_sinks_propagate_iff⟩
  rw [affected, Edges.mem_order_iff hm _ ha]
  simp only [List.mem_filter, OrderedSet.mem_toList, and_assoc]

/-- Two values feed a sum, one of them directly and through a product; the sum is shown twice, and
once more together with its product. Another value is shown alone. -/
def crossing : List Request :=
  [.make ⟨1⟩ (.value 1.0 0.0), .make ⟨2⟩ (.value 2.0 0.0),
   .make ⟨3⟩ (.arithmetic .multiplication []), .make ⟨4⟩ (.arithmetic .addition []),
   .make ⟨5⟩ (.props (OrderedMap.ofList [("opacity", ⟨4⟩)])),
   .make ⟨6⟩ (.props (OrderedMap.ofList [("width", ⟨4⟩), ("height", ⟨3⟩)])),
   .make ⟨7⟩ (.value 0.0 0.0), .make ⟨8⟩ (.props (OrderedMap.ofList [("left", ⟨7⟩)])),
   .connect ⟨6⟩ ⟨4⟩, .connect ⟨6⟩ ⟨3⟩, .connect ⟨5⟩ ⟨4⟩, .connect ⟨4⟩ ⟨1⟩, .connect ⟨4⟩ ⟨3⟩,
   .connect ⟨3⟩ ⟨1⟩, .connect ⟨3⟩ ⟨2⟩, .connect ⟨8⟩ ⟨7⟩, .propagate, .mark ⟨4⟩, .mark ⟨1⟩]

/-- A root that depends on another root is computed after it, and a node of several inputs after the
last of them; what is shown alone is left out. -/
theorem crossing_affected :
    let g := empty.afterAll crossing
    g.edges.Acyclic ∧ g.edges.Mirrored ∧ g.affected = [⟨1⟩, ⟨3⟩, ⟨4⟩, ⟨6⟩, ⟨5⟩] ∧
      (∀ t, t ∈ g.affected ↔
        ∃ s ∈ g.marked, g.contains s = true ∧ g.edges.DependsOn t s) ∧
      (∀ c ∈ g.affected, g.edges.Reads ⟨4⟩ c → c ∈ ([⟨1⟩, ⟨3⟩] : List Tag)) ∧
      ∀ t, t ∈ g.propagate.2.sinks ↔
        t ∈ g.affected ∧ ∃ n p, g.node? t = some n ∧ n.kind = .props p := by
  have hs : (empty.afterAll crossing).Sound := sound_empty.afterAll _
  have ho : (empty.afterAll crossing).affected = [⟨1⟩, ⟨3⟩, ⟨4⟩, ⟨6⟩, ⟨5⟩] := by decide +kernel
  obtain ⟨-, listed, -, inputs, -, noted⟩ := affected_exact hs.acyclic hs.mirrored
  exact ⟨hs.acyclic, hs.mirrored, ho, listed, inputs [⟨1⟩, ⟨3⟩] ⟨4⟩ [⟨6⟩, ⟨5⟩] ho, noted⟩

end Graph

end MotionGraph
