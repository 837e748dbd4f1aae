import Mathlib.Data.Finset.Card
import Mathlib.Data.Finset.Image
import MotionGraph.Proofs.Graph.Reach
import MotionGraph.Proofs.Ordered.Members

/-!
# Edges as a finite set of pairs

Two maps of sets stand for one finite set of edges, `Describes`, if everything that is read off them
is read off that set: whether an edge is there, the children and parents of a tag, the list of all
edges and their number, and no list repeats an edge. Each call does to the maps what it does to the
set (`Describes.perform`), so that after any calls the maps describe what is left of the edges made
(`finite_relation`). Circles and edges from a tag to itself are edges like any others.

The search for what depends on a tag is taken through its rounds as well (`climb?`): in a round one
tag leaves the queue, and those of its parents enter that were not met before. A tag is met once, so
there is at most one round more than there are tags with children (`climb?_ne_none`), and what the
search answers in the end is what `isAncestor` does.
-/

namespace MotionGraph

/-- What is in a set is in the set that is listed for its key. -/
theorem TagSets.mem_row_iff {m : TagSets} {k a : Tag} :
    a ∈ m.row k ↔ ∃ s, (k, s) ∈ m.toList ∧ a ∈ s := by
  unfold row
  cases hg : m.get? k with
  | none =>
    have absent : ∀ s, (k, s) ∉ m.toList := fun s hs => by
      rw [OrderedMap.get?_eq_some_iff.2 hs] at hg
      cases hg
    simp [absent, ← OrderedSet.mem_toList, EmptyCollection.emptyCollection, OrderedSet.empty]
  | some s =>
    constructor
    · intro ha
      exact ⟨s, OrderedMap.get?_eq_some_iff.1 hg, ha⟩
    · rintro ⟨s', hs', ha⟩
      rw [OrderedMap.get?_eq_some_iff.2 hs', Option.some.injEq] at hg
      exact hg ▸ ha

namespace Edges

variable {r : Edges} {R : Finset Edge}

/-! ### The list of all edges -/

/-- The list holds the edges. -/
theorem mem_toList_iff {e : Edge} : e ∈ r.toList ↔ r.Reads e.parent e.child := by
  obtain ⟨p, c⟩ := e
  show _ ↔ c ∈ r.children.row p
  rw [TagSets.mem_row_iff, toList, List.mem_flatMap]
  constructor
  · rintro ⟨⟨q, s⟩, hs, he⟩
    obtain ⟨d, hd, he⟩ := List.mem_map.1 he
    cases he
    exact ⟨s, hs, hd⟩
  · rintro ⟨s, hs, hc⟩
    exact ⟨(p, s), hs, List.mem_map_of_mem hc⟩

/-- The list repeats no edge: no key has two sets, and no set repeats a tag. -/
theorem nodup_toList (r : Edges) : r.toList.Nodup := by
  rw [toList, List.nodup_flatMap]
  constructor
  · rintro ⟨p, s⟩ -
    exact s.nodup.map fun _ _ h => (Edge.mk.inj h).2
  · refine (List.pairwise_map.1 r.children.keys_nodup).imp fun {x y} hne => ?_
    refine List.disjoint_left.2 fun e hx hy => ?_
    obtain ⟨c, -, rfl⟩ := List.mem_map.1 hx
    obtain ⟨d, -, he⟩ := List.mem_map.1 hy
    exact hne (Edge.mk.inj he).1.symm

/-- The edges are counted as they are listed. -/
theorem count_eq_length (r : Edges) : r.count = r.toList.length := by
  simp only [count, toList, OrderedMap.values, List.length_flatMap, List.length_map, List.foldr_map,
    List.sum_eq_foldr, OrderedSet.size]

/-! ### What edges describe -/

/-- All that is read off the edges is read off one set of pairs, and nothing is listed twice. -/
structure Describes (r : Edges) (R : Finset Edge) : Prop where
  contains : ∀ p c, r.contains p c = true ↔ ⟨p, c⟩ ∈ R
  children : ∀ p, (r.childrenOf p).Nodup ∧ ∀ c, c ∈ r.childrenOf p ↔ ⟨p, c⟩ ∈ R
  parents : ∀ c, (r.parentsOf c).Nodup ∧ ∀ p, p ∈ r.parentsOf c ↔ ⟨p, c⟩ ∈ R
  listed : r.toList.Nodup ∧ ∀ e, e ∈ r.toList ↔ e ∈ R
  counted : r.count = R.card

/-- Mirrored maps describe the set of their edges. -/
theorem Mirrored.describes (hm : r.Mirrored) (h : ∀ p c, r.Reads p c ↔ ⟨p, c⟩ ∈ R) :
    r.Describes R := by
  have listed : ∀ e, e ∈ r.toList ↔ e ∈ R := fun e => mem_toList_iff.trans (h e.parent e.child)
  refine ⟨fun p c => contains_iff.trans (h p c), fun p => ⟨(r.children.row p).nodup, h p⟩,
    fun c => ⟨(r.parents.row c).nodup, fun p => (hm p c).trans (h p c)⟩,
    ⟨r.nodup_toList, listed⟩, ?_⟩
  have same : r.toList.toFinset = R := Finset.ext fun e => List.mem_toFinset.trans (listed e)
  rw [count_eq_length, ← List.toFinset_card_of_nodup r.nodup_toList, same]

/-- Edges that describe a set are mirrored. -/
theorem Describes.mirrored (h : r.Describes R) : r.Mirrored := fun p c =>
  ((h.parents c).2 p).trans ((h.children p).2 c).symm

/-- Without edges the empty set is described. -/
theorem describes_empty : empty.Describes ∅ :=
  mirrored_empty.describes fun p c => iff_of_false (not_reads_empty p c) (Finset.notMem_empty _)

/-! ### What calls do -/

/-- What a call does to a set of edges. -/
def Call.on (R : Finset Edge) : Call → Finset Edge
  | .link p c => insert ⟨p, c⟩ R
  | .unlink p c => R.erase ⟨p, c⟩
  | .detach t => R.filter fun e => e.touches t = false

/-- Whether an edge begins or ends at a tag. -/
theorem touches_iff {e : Edge} {t : Tag} : e.touches t = true ↔ e.parent = t ∨ e.child = t := by
  simp [Edge.touches]

/-- **A call does to the maps what it does to the set.** -/
theorem Describes.perform (h : r.Describes R) (c : Call) : (r.perform c).1.Describes (c.on R) := by
  have reads : ∀ p c, r.Reads p c ↔ ⟨p, c⟩ ∈ R := fun p => (h.children p).2
  cases c with
  | link p c =>
    refine (h.mirrored.link p c).describes fun a b => ?_
    rw [reads_link, reads, Call.on, Finset.mem_insert, Edge.mk.injEq, or_comm]
  | unlink p c =>
    refine (h.mirrored.unlink p c).describes fun a b => ?_
    rw [reads_unlink, reads, Call.on, Finset.mem_erase, ne_eq, Edge.mk.injEq, and_comm]
  | detach t =>
    refine (h.mirrored.detach t).describes fun a b => ?_
    rw [reads_detach h.mirrored, reads, Call.on, Finset.mem_filter, ← Bool.not_eq_true, touches_iff,
      not_or]

/-- The edges that `detach` hands out are handed out once each. An edge from the tag to itself is
gone from the set of the tag's parents before that set is gone through. -/
theorem nodup_detach (r : Edges) (t : Tag) : (r.detach t).2.Nodup := by
  have below : (r.childrenOf t).Nodup := (r.children.row t).nodup
  rw [detach, List.nodup_append]
  refine ⟨below.map fun _ _ h => (Edge.mk.inj h).2, ?_, ?_⟩
  · exact (OrderedSet.nodup _).map fun _ _ h => (Edge.mk.inj h).1
  · intro e he e' he'
    obtain ⟨c, hc, rfl⟩ := List.mem_map.1 he
    obtain ⟨p, hp, rfl⟩ := List.mem_map.1 he'
    intro same
    obtain ⟨rfl, rfl⟩ := Edge.mk.inj same
    rw [OrderedSet.mem_toList, TagSets.mem_row_removeFromAll] at hp
    exact hp.2 ⟨hc, rfl⟩

/-- The edges after several calls. -/
def afterAll (r : Edges) (calls : List Call) : Edges := calls.foldl (fun r c => (r.perform c).1) r

/-- What several calls leave of no edges. -/
def remaining (calls : List Call) : Finset Edge := calls.foldl Call.on ∅

/-- Several calls do to the maps what they do to the set. -/
theorem Describes.afterAll (h : r.Describes R) (calls : List Call) :
    (r.afterAll calls).Describes (calls.foldl Call.on R) := by
  induction calls generalizing r R with
  | nil => exact h
  | cons c calls ih => exact ih (h.perform c)

/-! ### The search, round by round -/

/-- The search upwards for a tag, in as many rounds as allowed. In a round the first tag of
the queue is taken out. If the tag that is searched is among its parents, the search is over;
if not, those parents join the queue that were not met before. Nothing is answered if the
rounds do not suffice. -/
def climb? (r : Edges) (a : Tag) : Nat → OrderedSet Tag → List Tag → Option Bool
  | _, _, [] => some false
  | 0, _, _ :: _ => none
  | rounds + 1, met, t :: queue =>
    if a ∈ r.parentsOf t then some true
    else
      climb? r a rounds (met.insertAll (r.parentsOf t))
        (queue ++ (r.parentsOf t).filter fun p => !met.contains p)

/-- **The search ends**: a round takes one tag out of the queue, and a tag joins the queue when it
is met, which happens once. -/
theorem climb?_ne_none {tags : Finset Tag} (htags : ∀ t, ∀ p ∈ r.parentsOf t, p ∈ tags) {a : Tag}
    {rounds : Nat} {met : OrderedSet Tag} {queue : List Tag} (hmet : ∀ p ∈ met, p ∈ tags)
    (enough : tags.card + queue.length ≤ rounds + met.size) :
    r.climb? a rounds met queue ≠ none := by
  induction rounds, met, queue using climb?.induct r a with
  | case1 rounds met => simp [climb?]
  | case2 met t queue =>
    have few : met.size ≤ tags.card := by
      rw [OrderedSet.size, ← List.toFinset_card_of_nodup met.nodup]
      exact Finset.card_le_card fun p hp => hmet p (List.mem_toFinset.1 hp)
    rw [List.length_cons] at enough
    omega
  | case3 rounds met t queue found => simp [climb?, found]
  | case4 rounds met t queue missing ih =>
    rw [climb?, if_neg missing]
    apply ih
    · intro p hp
      rcases OrderedSet.mem_insertAll.1 hp with hp | hp
      · exact hmet p hp
      · exact htags t p hp
    · have nodup : (r.parentsOf t).Nodup := (r.parents.row t).nodup
      rw [OrderedSet.size_insertAll met nodup, List.length_append]
      rw [List.length_cons] at enough
      omega

/-- Nothing is above a tag that is not met if all that is met has its parents met. -/
theorem not_above_of_closed {a t : Tag} {met : OrderedSet Tag}
    (closed : ∀ s, s = t ∨ s ∈ met → ∀ p, r.Reads p s → p ∈ met ∧ p ≠ a) :
    ¬Relation.TransGen r.Reads a t := by
  intro chain
  have all : ∀ s, Relation.TransGen r.Reads s t → s ∈ met ∧ s ≠ a := by
    intro s hs
    induction hs using Relation.TransGen.head_induction_on with
    | single hr => exact closed t (.inl rfl) _ hr
    | head hr _ ih => exact closed _ (.inr ih.1) _ hr
  exact (all a chain).2 rfl

/-- The parents of `t`, and of what is above it, are above it. -/
theorem above_of_mem_parentsOf (hm : r.Mirrored) {t u p : Tag} {met : OrderedSet Tag}
    (above : ∀ s ∈ met, Relation.TransGen r.Reads s t) (hu : u = t ∨ u ∈ met)
    (hp : p ∈ r.parentsOf u) : Relation.TransGen r.Reads p t := by
  have reads : r.Reads p u := (hm p u).1 hp
  rcases hu with rfl | hu
  · exact .single reads
  · exact .head reads (above u hu)

/-- **The search finds nothing that is not there, and all that is**, if all that was met is above
`t` and, but for what is queued, the parents of what was met were met too without `a` among them. -/
theorem climb?_eq_some (hm : r.Mirrored) {a t : Tag} {rounds : Nat} {met : OrderedSet Tag}
    {queue : List Tag} {b : Bool} (above : ∀ s ∈ met, Relation.TransGen r.Reads s t)
    (queued : ∀ s ∈ queue, s = t ∨ s ∈ met)
    (closed : ∀ s, s = t ∨ s ∈ met → s ∈ queue ∨ ∀ p, r.Reads p s → p ∈ met ∧ p ≠ a)
    (h : r.climb? a rounds met queue = some b) : b = true ↔ Relation.TransGen r.Reads a t := by
  induction rounds, met, queue using climb?.induct r a with
  | case1 rounds met =>
    rw [climb?, Option.some.injEq] at h
    subst h
    exact iff_of_false Bool.false_ne_true (not_above_of_closed fun s hs =>
      (closed s hs).resolve_left List.not_mem_nil)
  | case2 met u queue => cases h
  | case3 rounds met u queue found =>
    rw [climb?, if_pos found, Option.some.injEq] at h
    subst h
    exact iff_of_true rfl (above_of_mem_parentsOf hm above (queued u List.mem_cons_self) found)
  | case4 rounds met u queue missing ih =>
    rw [climb?, if_neg missing] at h
    refine ih ?_ ?_ ?_ h
    · intro s hs
      rcases OrderedSet.mem_insertAll.1 hs with hs | hs
      · exact above s hs
      · exact above_of_mem_parentsOf hm above (queued u List.mem_cons_self) hs
    · intro s hs
      rcases List.mem_append.1 hs with hs | hs
      · exact (queued s (List.mem_cons_of_mem _ hs)).imp id fun h =>
          OrderedSet.mem_insertAll.2 (.inl h)
      · exact .inr (OrderedSet.mem_insertAll.2 (.inr (List.mem_of_mem_filter hs)))
    · intro s hs
      by_cases old : s = t ∨ s ∈ met
      · rcases closed s old with hq | hp
        · rcases List.mem_cons.1 hq with rfl | hq
          · -- the parents of the tag that was taken out have just been met
            refine .inr fun p hp => ⟨OrderedSet.mem_insertAll.2 (.inr ((hm p s).2 hp)), ?_⟩
            rintro rfl
            exact missing ((hm p s).2 hp)
          · exact .inl (List.mem_append_left _ hq)
        · exact .inr fun p h => ⟨OrderedSet.mem_insertAll.2 (.inl (hp p h).1), (hp p h).2⟩
      · rw [not_or] at old
        have new : s ∈ r.parentsOf u :=
          (OrderedSet.mem_insertAll.1 (hs.resolve_left old.1)).resolve_left old.2
        refine .inl (List.mem_append_right _ (List.mem_filter.2 ⟨new, ?_⟩))
        rw [Bool.not_eq_true', Bool.eq_false_iff, ne_eq, OrderedSet.contains_iff]
        exact old.2

/-- **The search for what depends on a tag ends**, after at most one round more than there are
edges, also where edges run in a circle, and its answer is that of `isAncestor`. -/
theorem Describes.exists_climb? (h : r.Describes R) (a t : Tag) :
    ∃ rounds ≤ R.card + 1, r.climb? a rounds ∅ [t] = some (r.isAncestor a t) := by
  have tags : ∀ t, ∀ p ∈ r.parentsOf t, p ∈ R.image Edge.parent := fun t p hp =>
    Finset.mem_image_of_mem Edge.parent (((h.parents t).2 p).1 hp)
  have few : (R.image Edge.parent).card ≤ R.card := Finset.card_image_le
  refine ⟨(R.image Edge.parent).card + 1, Nat.add_le_add_right few 1, ?_⟩
  have ends : r.climb? a ((R.image Edge.parent).card + 1) ∅ [t] ≠ none :=
    climb?_ne_none tags (fun p hp => absurd hp List.not_mem_nil) (Nat.le_refl _)
  obtain ⟨b, hb⟩ := Option.ne_none_iff_exists'.1 ends
  have right : b = true ↔ Relation.TransGen r.Reads a t := by
    refine climb?_eq_some h.mirrored ?_ ?_ ?_ hb
    · exact fun s hs => absurd hs List.not_mem_nil
    · exact fun s hs => .inl (List.mem_singleton.1 hs)
    · exact fun s hs => .inl (List.mem_singleton.2 (hs.resolve_right List.not_mem_nil))
  rw [hb, Option.some.injEq, Bool.eq_iff_iff, right, isAncestor_iff h.mirrored]

/-! ### All calls -/

/-- **Edges are a finite relation.** After any calls, from no edges on, all that is read off the
edges is read off one set of pairs, the one that the calls leave when they are carried out on sets.
An edge is added exactly if it was not there and removed exactly if it was, and no other edge comes
or goes with it. All edges at a tag go when it is detached, and they are handed out once each. One
tag is found to depend on another exactly if a chain of one edge or more leads down to it; the
search for it ends on any edges. -/
theorem finite_relation (calls : List Call) :
    let r := empty.afterAll calls
    let R := remaining calls
    r.Describes R ∧
      (∀ p c, (r.perform (.link p c)).2 = .changed (decide (⟨p, c⟩ ∉ R)) ∧
        (r.perform (.link p c)).1.Describes (insert ⟨p, c⟩ R)) ∧
      (∀ p c, (r.perform (.unlink p c)).2 = .changed (decide (⟨p, c⟩ ∈ R)) ∧
        (r.perform (.unlink p c)).1.Describes (R.erase ⟨p, c⟩)) ∧
      (∀ t, (∃ gone, (r.perform (.detach t)).2 = .removed gone ∧ gone.Nodup ∧
          ∀ e, e ∈ gone ↔ e ∈ R ∧ (e.parent = t ∨ e.child = t)) ∧
        (r.perform (.detach t)).1.Describes (R.filter fun e => ¬(e.parent = t ∨ e.child = t))) ∧
      ∀ a t, (∃ rounds ≤ R.card + 1, r.climb? a rounds ∅ [t] = some (r.isAncestor a t)) ∧
        (r.isAncestor a t = true ↔ Relation.TransGen (fun p c => ⟨p, c⟩ ∈ R) a t) := by
  intro r R
  have h : r.Describes R := describes_empty.afterAll calls
  have same : r.Reads = fun p c => ⟨p, c⟩ ∈ R := by
    funext p c
    exact propext ((h.children p).2 c)
  have found : ∀ p c, r.contains p c = decide (⟨p, c⟩ ∈ R) := by
    intro p c
    rw [Bool.eq_iff_iff, h.contains, decide_eq_true_iff]
  refine ⟨h, fun p c => ⟨?_, h.perform (.link p c)⟩, fun p c => ⟨?_, h.perform (.unlink p c)⟩,
    fun t => ⟨⟨(r.detach t).2, rfl, nodup_detach r t, fun e => ?_⟩, ?_⟩,
    fun a t => ⟨h.exists_climb? a t, ?_⟩⟩
  · rw [decide_not, ← found]
    rfl
  · rw [← found]
    rfl
  · rw [mem_detach h.mirrored, same]
  · have touching : (R.filter fun e => ¬(e.parent = t ∨ e.child = t)) = Call.on R (.detach t) := by
      refine Finset.filter_congr fun e _ => ?_
      rw [← touches_iff, Bool.not_eq_true]
    rw [touching]
    exact h.perform (.detach t)
  · rw [isAncestor_iff h.mirrored, same]

end Edges

end MotionGraph
