import MotionGraph.Proofs.Graph.Sound

/-!
# Which edges are accepted

An edge is accepted exactly if both nodes are there, the lower one hands no values to a view and no
node comes to depend on itself; it is refused as a cycle exactly if the first two hold and the last
does not (`connect_exact`). No graph that was ever reached refuses an edge that could be there.

The guard is a search from the reader up to the input. On mirrored maps it finds out whether the
input depends on the reader (`Edges.isAncestor_iff`), and on edges that run in no circle this
decides whether the new edge closes one (`Edges.Acyclic.link_iff`). The search is not made for an
edge that is there already; there it could find nothing, for such an edge closes no circle
(`Edges.Acyclic.link_of_reads`).
-/

namespace MotionGraph

namespace Edges

variable {r : Edges}

/-- A new edge closes a circle exactly if its input is the reader or depends on it. -/
theorem Acyclic.link_iff (h : r.Acyclic) {p c : Tag} :
    (r.link p c).Acyclic ↔ ¬(p = c ∨ Relation.TransGen r.Reads c p) := by
  constructor
  · intro hl hcycle
    have hpc : (r.link p c).Reads p c := reads_link.2 (.inr ⟨rfl, rfl⟩)
    rcases hcycle with rfl | hchain
    · exact hl p (.single hpc)
    · have hup : Relation.TransGen (r.link p c).Reads c p :=
        Relation.TransGen.mono (fun _ _ hab => reads_link.2 (.inl hab)) _ _ hchain
      exact hl p (.head hpc hup)
  · intro hn
    refine h.link fun hd => hn ?_
    rcases Relation.reflTransGen_iff_eq_or_transGen.1 hd with he | ht
    · exact .inl he
    · exact .inr ht

/-- An edge that is there closes no circle when it is made once more. -/
theorem Acyclic.link_of_reads (h : r.Acyclic) {p c : Tag} (hr : r.Reads p c) :
    (r.link p c).Acyclic := by
  refine h.mono fun a b hab => ?_
  rcases reads_link.1 hab with hab | ⟨rfl, rfl⟩
  · exact hab
  · exact hr

end Edges

namespace Graph

/-- Whether an edge may lead from one node to another as far as these two decide it: both are there,
and the lower one hands no values to a view. -/
def Joinable (g : Graph) (parent child : Tag) : Prop :=
  g.contains parent = true ∧ ∃ n, g.node? child = some n ∧ n.isSink = false

variable {g : Graph} {parent child : Tag}

/-- An edge that is accepted joins two nodes that may be joined. -/
theorem joinable_of_connect_eq_ok {g' : Graph} (h : g.connect parent child = .ok g') :
    g.Joinable parent child := by
  obtain ⟨p, c, hp, hc, hs, -⟩ := connect_eq_ok h
  exact ⟨contains_of_node? hp, c, hc, hs⟩

/-- An edge that is refused as a cycle joins two nodes that may be joined. -/
theorem joinable_of_connect_eq_cycle (h : g.connect parent child = .error (.cycle parent child)) :
    g.Joinable parent child := by
  simp only [connect, find] at h
  cases hp : g.node? parent with
  | none => rw [hp] at h; cases h
  | some p =>
    cases hc : g.node? child with
    | none => rw [hp, hc] at h; cases h
    | some c =>
      refine ⟨contains_of_node? hp, c, hc, Bool.eq_false_iff.2 fun hs => ?_⟩
      rw [hp, hc] at h
      cases (if_pos hs).symm.trans h

/-- Between two nodes that may be joined, an edge is made unless it is there already or closes a
circle. -/
theorem connect_of_joinable (hj : g.Joinable parent child) :
    g.connect parent child =
      if g.edges.contains parent child then .ok g
      else if parent = child || g.edges.isAncestor child parent then .error (.cycle parent child)
      else .ok ((({ g with edges := g.edges.link parent child } : Graph).update parent
        fun n => n.attach child).touch parent) := by
  obtain ⟨hp, c, hc, hs⟩ := hj
  obtain ⟨p, hp⟩ := exists_node?_of_contains hp
  rw [connect, find_eq_ok.2 hp, find_eq_ok.2 hc]
  exact if_neg (Bool.eq_false_iff.1 hs)

/-- The guard refuses exactly the edges that close a circle. -/
theorem Sound.guard_iff (h : g.Sound) :
    (parent = child || g.edges.isAncestor child parent) = true ↔
      ¬(g.edges.link parent child).Acyclic := by
  rw [Bool.or_eq_true, decide_eq_true_eq, Edges.isAncestor_iff h.mirrored, h.acyclic.link_iff,
    not_not]

/-- An edge that is there joins two nodes that may be joined. -/
theorem Sound.joinable_of_reads (h : g.Sound) (hr : g.edges.Reads parent child) :
    g.Joinable parent child := by
  obtain ⟨c, hc⟩ := exists_node?_of_contains (h.child_live parent child hr)
  exact ⟨h.parent_live parent child hr, c, hc, h.child_not_sink parent child c hr hc⟩

/-- An edge that is there is accepted, and nothing happens. -/
theorem Sound.connect_of_reads (h : g.Sound) (hr : g.edges.Reads parent child) :
    g.connect parent child = .ok g := by
  rw [connect_of_joinable (h.joinable_of_reads hr), if_pos (Edges.contains_iff.2 hr)]

/-- Between two nodes that may be joined, an edge is accepted exactly if it closes no circle. -/
theorem Sound.connect_eq_ok_iff (h : g.Sound) (hj : g.Joinable parent child) :
    (∃ g', g.connect parent child = .ok g') ↔ (g.edges.link parent child).Acyclic := by
  by_cases hr : g.edges.Reads parent child
  · exact ⟨fun _ => h.acyclic.link_of_reads hr, fun _ => ⟨g, h.connect_of_reads hr⟩⟩
  · rw [connect_of_joinable hj, if_neg fun hc => hr (Edges.contains_iff.1 hc)]
    by_cases hg : (parent = child || g.edges.isAncestor child parent) = true
    · rw [if_pos hg]
      refine ⟨fun ho => ?_, fun hl => absurd hl (h.guard_iff.1 hg)⟩
      obtain ⟨_, ho⟩ := ho
      cases ho
    · rw [if_neg hg]
      exact ⟨fun _ => by rwa [h.guard_iff, not_not] at hg, fun _ => ⟨_, rfl⟩⟩

/-- Between two nodes that may be joined, an edge that closes a circle is refused as such. -/
theorem Sound.connect_eq_cycle_iff (h : g.Sound) (hj : g.Joinable parent child) :
    g.connect parent child = .error (.cycle parent child) ↔
      ¬(g.edges.link parent child).Acyclic := by
  constructor
  · intro hc hl
    obtain ⟨g', hg⟩ := (h.connect_eq_ok_iff hj).2 hl
    rw [hc] at hg
    cases hg
  · intro hl
    have hr : ¬g.edges.Reads parent child := fun hr => hl (h.acyclic.link_of_reads hr)
    rw [connect_of_joinable hj, if_neg fun hc => hr (Edges.contains_iff.1 hc),
      if_pos (h.guard_iff.2 hl)]

/-- An accepted edge is there, and the others are as they were. -/
theorem reads_connect {g' : Graph} (hg : g.connect parent child = .ok g') (a b : Tag) :
    g'.edges.Reads a b ↔ g.edges.Reads a b ∨ (a = parent ∧ b = child) := by
  obtain ⟨p, c, -, -, -, ⟨hr, rfl⟩ | ⟨-, -, rfl⟩⟩ := connect_eq_ok hg
  · refine ⟨.inl, fun hab => ?_⟩
    rcases hab with hab | ⟨rfl, rfl⟩
    · exact hab
    · exact hr
  · exact Edges.reads_link

/-- **Exactly the legal edges are accepted.** After any requests to the graph without nodes, and for
any two names, an edge is accepted exactly if both nodes are there, the lower one hands no values to
a view and the edges with the new one run in no circle, and then the edge is there and the others
are as they were. It is refused as a cycle exactly if both nodes are there, the lower one hands no
values to a view and the edges with the new one run in a circle, that is, if the nodes are the same
or the lower one depends on the upper one through any chain. An edge that is there already is
accepted, and nothing happens at all. -/
theorem connect_exact (requests : List Request) (parent child : Tag) :
    let g := empty.afterAll requests
    ((∃ g', g.connect parent child = .ok g') ↔
        g.Joinable parent child ∧ (g.edges.link parent child).Acyclic) ∧
      (∀ g', g.connect parent child = .ok g' → ∀ a b,
        g'.edges.Reads a b ↔ g.edges.Reads a b ∨ (a = parent ∧ b = child)) ∧
      (g.connect parent child = .error (.cycle parent child) ↔
        g.Joinable parent child ∧ ¬(g.edges.link parent child).Acyclic) ∧
      (¬(g.edges.link parent child).Acyclic ↔
        parent = child ∨ Relation.TransGen g.edges.Reads child parent) ∧
      (g.edges.Reads parent child → g.connect parent child = .ok g) := by
  intro g
  have h : g.Sound := sound_afterAll requests
  refine ⟨⟨fun ho => ?_, fun ⟨hj, hl⟩ => (h.connect_eq_ok_iff hj).2 hl⟩, fun g' => reads_connect,
    ⟨fun hc => ?_, fun ⟨hj, hl⟩ => (h.connect_eq_cycle_iff hj).2 hl⟩, ?_, h.connect_of_reads⟩
  · obtain ⟨g', hg⟩ := ho
    have hj : g.Joinable parent child := joinable_of_connect_eq_ok hg
    exact ⟨hj, (h.connect_eq_ok_iff hj).1 ⟨g', hg⟩⟩
  · have hj : g.Joinable parent child := joinable_of_connect_eq_cycle hc
    exact ⟨hj, (h.connect_eq_cycle_iff hj).1 hc⟩
  · rw [h.acyclic.link_iff, not_not]

end Graph

end MotionGraph
