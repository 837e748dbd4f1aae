import MotionGraph.Proofs.Graph.Relation

/-!
# The search for what depends on a tag

`Edges.reach` follows the map of parents. On mirrored maps it collects, from a queue of tags, those
that depend on one of them (`mem_reach_iff`), so `isAncestor` decides whether one tag depends on
another through one edge or more (`isAncestor_iff`); both also where edges run in a circle.

Nothing is collected without reason (`dependsOn_of_mem_reach`), and what is collected is closed
under going up (`reads_mem_reach`), because a tag enters the set of seen tags only when its parents
enter the queue.
-/

namespace MotionGraph.Edges

/-- `t` is `s`, or depends on it directly or through others. -/
abbrev DependsOn (r : Edges) (t s : Tag) : Prop := Relation.ReflTransGen r.Reads t s

/-- What was seen stays. -/
theorem mem_reach_of_seen {r : Edges} {seen : OrderedSet Tag} {queue : List Tag} {t : Tag}
    (h : t ∈ seen) : t ∈ r.reach seen queue := by
  fun_induction reach r seen queue with
  | case1 => exact h
  | case2 _ _ _ _ ih => exact ih h
  | case3 _ _ _ _ ih => exact ih (OrderedSet.mem_insert.2 (Or.inl h))

/-- What is queued is collected. -/
theorem mem_reach_of_queued {r : Edges} {seen : OrderedSet Tag} {queue : List Tag} {t : Tag}
    (h : t ∈ queue) : t ∈ r.reach seen queue := by
  fun_induction reach r seen queue with
  | case1 => exact absurd h List.not_mem_nil
  | case2 seen u queue hu ih =>
    rcases List.mem_cons.1 h with rfl | h
    · exact mem_reach_of_seen (OrderedSet.contains_iff.1 hu)
    · exact ih h
  | case3 seen u queue hu ih =>
    rcases List.mem_cons.1 h with rfl | h
    · exact mem_reach_of_seen (OrderedSet.mem_insert.2 (Or.inr rfl))
    · exact ih (List.mem_append_left _ h)

/-- What is collected was seen before or depends on something queued. -/
theorem dependsOn_of_mem_reach {r : Edges} (hm : r.Mirrored) {seen : OrderedSet Tag}
    {queue : List Tag} {t : Tag} (h : t ∈ r.reach seen queue) :
    t ∈ seen ∨ ∃ s ∈ queue, r.DependsOn t s := by
  fun_induction reach r seen queue with
  | case1 => exact Or.inl h
  | case2 seen u queue hu ih =>
    rcases ih h with h | ⟨s, hs, h⟩
    · exact Or.inl h
    · exact Or.inr ⟨s, List.mem_cons_of_mem _ hs, h⟩
  | case3 seen u queue hu ih =>
    rcases ih h with h | ⟨s, hs, h⟩
    · rcases OrderedSet.mem_insert.1 h with h | rfl
      · exact Or.inl h
      · exact Or.inr ⟨t, List.mem_cons_self, .refl⟩
    · rcases List.mem_append.1 hs with hs | hs
      · exact Or.inr ⟨s, List.mem_cons_of_mem _ hs, h⟩
      · exact Or.inr ⟨u, List.mem_cons_self, h.tail ((hm s u).1 hs)⟩

/-- What reads something collected is collected, if that held of what was seen, up to the queue. -/
theorem reads_mem_reach {r : Edges} (hm : r.Mirrored) {seen : OrderedSet Tag} {queue : List Tag}
    (hseen : ∀ s ∈ seen, ∀ p, r.Reads p s → p ∈ seen ∨ p ∈ queue) {s p : Tag}
    (hs : s ∈ r.reach seen queue) (hp : r.Reads p s) : p ∈ r.reach seen queue := by
  fun_induction reach r seen queue with
  | case1 => exact (hseen s hs p hp).resolve_right List.not_mem_nil
  | case2 seen u queue hu ih =>
    refine ih (fun a ha b hb => ?_) hs
    rcases hseen a ha b hb with h | h
    · exact Or.inl h
    · rcases List.mem_cons.1 h with rfl | h
      · exact Or.inl (OrderedSet.contains_iff.1 hu)
      · exact Or.inr h
  | case3 seen u queue hu ih =>
    refine ih (fun a ha b hb => ?_) hs
    rcases OrderedSet.mem_insert.1 ha with ha | rfl
    · rcases hseen a ha b hb with h | h
      · exact Or.inl (OrderedSet.mem_insert.2 (Or.inl h))
      · rcases List.mem_cons.1 h with rfl | h
        · exact Or.inl (OrderedSet.mem_insert.2 (Or.inr rfl))
        · exact Or.inr (List.mem_append_left _ h)
    · exact Or.inr (List.mem_append_right _ ((hm b a).2 hb))

/-- **The search is exact**: it collects the queued tags and all that depends on them. -/
theorem mem_reach_iff {r : Edges} (hm : r.Mirrored) {queue : List Tag} {t : Tag} :
    t ∈ r.reach ∅ queue ↔ ∃ s ∈ queue, r.DependsOn t s := by
  constructor
  · intro h
    exact (dependsOn_of_mem_reach hm h).resolve_left List.not_mem_nil
  · rintro ⟨s, hs, h⟩
    induction h using Relation.ReflTransGen.head_induction_on with
    | refl => exact mem_reach_of_queued hs
    | head hab _ ih =>
      exact reads_mem_reach hm (fun a ha => absurd ha List.not_mem_nil) ih hab

/-- `isAncestor` decides whether there is a chain of edges, of one edge or more, from the first tag
down to the second. -/
theorem isAncestor_iff {r : Edges} (hm : r.Mirrored) {a t : Tag} :
    r.isAncestor a t = true ↔ Relation.TransGen r.Reads a t := by
  rw [isAncestor, OrderedSet.contains_iff, mem_reach_iff hm, Relation.TransGen.tail'_iff]
  constructor
  · rintro ⟨s, hs, h⟩
    exact ⟨s, h, (hm s t).1 hs⟩
  · rintro ⟨s, h, hs⟩
    exact ⟨s, (hm s t).2 hs, h⟩

end MotionGraph.Edges
