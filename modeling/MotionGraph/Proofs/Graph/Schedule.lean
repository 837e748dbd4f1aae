import Mathlib.Data.Fintype.EquivFin
import Mathlib.Data.List.Nodup
import Mathlib.Order.WellFounded
import MotionGraph.Graph.Order
import MotionGraph.Proofs.Graph.Reach

/-!
# The order of evaluation is one

`Edges.order` lists some tags and all that depend on them. On acyclic edges the list holds every
such tag (`mem_order_iff`), each once (`nodup_order`), and none before something that it reads
(`pairwise_order`).

The counting is described by `Edges.awaited`, the inputs of a tag that are affected and not done.
While tags are released, every count is the number of inputs awaited, and what is done or ready is
what awaits nothing (`Edges.Releasing`). Taking a tag keeps this (`Releasing.next`). At the end
something is left only if every tag left awaits another one that is left, which acyclic edges
exclude (`Acyclic.exists_bottom`).
-/

namespace MotionGraph

namespace Waiting

/-- A tick takes one from the count of the tag, and tells whether the count was one. -/
theorem tick_map {tags : List Tag} (hd : tags.Nodup) (count : Tag → Nat) (p : Tag) :
    tick p (tags.map fun a => (a, count a)) =
      (tags.map fun a => (a, if a = p then count a - 1 else count a),
        decide (p ∈ tags ∧ count p = 1)) := by
  induction tags with
  | nil => simp [tick]
  | cons a tags ih =>
    rw [List.nodup_cons] at hd
    rw [List.map_cons]
    unfold tick
    by_cases ha : a = p
    · subst ha
      have hrest : (tags.map fun b => (b, if b = a then count b - 1 else count b)) =
          tags.map fun b => (b, count b) := by
        refine List.map_congr_left fun b hb => ?_
        rw [if_neg fun h : b = a => hd.1 (h ▸ hb)]
      simp only [if_true, List.map_cons, hrest]
      cases count a <;> simp
    · simp [ha, Ne.symm ha, ih hd.2]

/-- Several ticks take one from the count of each tag, and list those whose count was one. -/
theorem tickAll_map {tags ps : List Tag} (hd : tags.Nodup) (hp : ps.Nodup) (count : Tag → Nat) :
    tickAll ps (tags.map fun a => (a, count a)) =
      (tags.map fun a => (a, if a ∈ ps then count a - 1 else count a),
        ps.filter fun p => p ∈ tags ∧ count p = 1) := by
  induction ps generalizing count with
  | nil => simp [tickAll]
  | cons p ps ih =>
    rw [List.nodup_cons] at hp
    have hcount : ∀ a, (if a ∈ ps then (if a = p then count a - 1 else count a) - 1
        else if a = p then count a - 1 else count a) =
          if a ∈ p :: ps then count a - 1 else count a := by
      intro a
      by_cases ha : a = p
      · subst ha
        simp [hp.1]
      · simp [ha]
    have hlast : (ps.filter fun q => q ∈ tags ∧ (if q = p then count q - 1 else count q) = 1) =
        ps.filter fun q => q ∈ tags ∧ count q = 1 := by
      refine List.filter_congr fun q hq => ?_
      rw [if_neg fun h : q = p => hp.1 (h ▸ hq)]
    simp only [tickAll, tick_map hd, ih hp.2, hcount, hlast, List.filter_cons]

end Waiting

namespace Edges

/-! ### Inputs awaited -/

/-- The inputs of a tag that are affected and not done. -/
def awaited (r : Edges) (affected done : List Tag) (a : Tag) : List Tag :=
  (r.childrenOf a).filter fun c => c ∈ affected ∧ c ∉ done

/-- What is awaited is read, affected and not done. -/
theorem mem_awaited {r : Edges} {affected done : List Tag} {a c : Tag} :
    c ∈ r.awaited affected done a ↔ r.Reads a c ∧ c ∈ affected ∧ c ∉ done := by
  simp [awaited, Reads]

/-- When a tag is done, it is awaited no more. -/
theorem length_awaited_concat {r : Edges} {affected done : List Tag} {t : Tag} (ht : t ∈ affected)
    (hn : t ∉ done) (a : Tag) :
    (r.awaited affected (done ++ [t]) a).length =
      if r.Reads a t then (r.awaited affected done a).length - 1
      else (r.awaited affected done a).length := by
  have hd : (r.awaited affected done a).Nodup :=
    (r.children.row a).nodup.sublist List.filter_sublist
  have herase : r.awaited affected (done ++ [t]) a = (r.awaited affected done a).erase t := by
    rw [hd.erase_eq_filter, awaited, awaited, List.filter_filter]
    refine List.filter_congr fun c _ => ?_
    by_cases hc : c = t <;> simp [hc]
  rw [herase, List.length_erase]
  simp [mem_awaited, ht, hn]

/-! ### While tags are released -/

/-- What holds while tags are released: counts are numbers of inputs awaited, and what is done or
ready is what awaits nothing, each tag once. -/
structure Releasing (r : Edges) (affected : List Tag) (w : Waiting) (done ready : List Tag) :
    Prop where
  counts : w = affected.map fun a => (a, (r.awaited affected done a).length)
  nodup : (done ++ ready).Nodup
  mem_iff : ∀ a, a ∈ done ++ ready ↔ a ∈ affected ∧ r.awaited affected done a = []

/-- Each tag of a list comes after those of its affected inputs that are not done. -/
def InOrder (r : Edges) (affected : List Tag) : List Tag → List Tag → Prop
  | _, [] => True
  | done, t :: ts => r.awaited affected done t = [] ∧ InOrder r affected (done ++ [t]) ts

/-- Taking the next tag goes on as before. -/
theorem Releasing.next {r : Edges} (hm : r.Mirrored) {affected : List Tag} (hd : affected.Nodup)
    {w : Waiting} {done ready : List Tag} {t : Tag}
    (h : r.Releasing affected w done (t :: ready)) :
    r.Releasing affected (Waiting.tickAll (r.parentsOf t) w).1 (done ++ [t])
      (ready ++ (Waiting.tickAll (r.parentsOf t) w).2) := by
  obtain ⟨hcounts, hnodup, hmem⟩ := h
  have ht : t ∈ affected := ((hmem t).1 (by simp)).1
  have hdone : t ∉ done := by
    rw [List.nodup_append] at hnodup
    exact fun hin => hnodup.2.2 t hin t List.mem_cons_self rfl
  have hlen := length_awaited_concat (r := r) ht hdone
  have hps : (r.parentsOf t).Nodup := (r.parents.row t).nodup
  rw [hcounts, Waiting.tickAll_map hd hps]
  have hsplit : (done ++ [t]) ++ (ready ++ (r.parentsOf t).filter fun p =>
      p ∈ affected ∧ (r.awaited affected done p).length = 1) =
      (done ++ t :: ready) ++ (r.parentsOf t).filter fun p =>
        p ∈ affected ∧ (r.awaited affected done p).length = 1 := by simp
  refine ⟨?_, ?_, fun a => ?_⟩
  · refine List.map_congr_left fun a _ => ?_
    simp only [hlen, hm a t]
  · rw [hsplit, List.nodup_append]
    refine ⟨hnodup, hps.sublist List.filter_sublist, fun a ha b hb hab => ?_⟩
    subst hab
    have hone := (List.mem_filter.1 hb).2
    simp [((hmem a).1 ha).2] at hone
  · rw [hsplit, List.mem_append, hmem, List.mem_filter, hm a t]
    simp only [← List.length_eq_zero_iff, hlen a, decide_eq_true_eq]
    by_cases hr : r.Reads a t
    · simp only [hr, if_true, true_and]
      constructor
      · rintro (⟨ha, h0⟩ | ⟨ha, h1⟩)
        · exact ⟨ha, by omega⟩
        · exact ⟨ha, by omega⟩
      · rintro ⟨ha, h0⟩
        rcases Nat.eq_zero_or_pos (r.awaited affected done a).length with hz | hp
        · exact Or.inl ⟨ha, hz⟩
        · exact Or.inr ⟨ha, by omega⟩
    · simp [hr]

/-- Releasing tags lists each of them after its inputs, and ends when nothing more is ready. -/
theorem Releasing.release {r : Edges} (hm : r.Mirrored) {affected : List Tag} (hd : affected.Nodup)
    {w : Waiting} {done ready : List Tag} (h : r.Releasing affected w done ready) :
    r.InOrder affected done (r.release w ready) ∧
      (done ++ r.release w ready).Nodup ∧
      ∀ a, a ∈ done ++ r.release w ready ↔
        a ∈ affected ∧ r.awaited affected (done ++ r.release w ready) a = [] := by
  fun_induction Edges.release r w ready generalizing done with
  | case1 w => exact ⟨trivial, h.nodup, by simpa using h.mem_iff⟩
  | case2 w t ready ih =>
    obtain ⟨hord, hnodup, hmem⟩ := ih (h.next hm hd)
    rw [List.append_assoc, List.singleton_append] at hnodup hmem
    exact ⟨⟨((h.mem_iff t).1 (by simp)).2, hord⟩, hnodup, hmem⟩

/-! ### The order -/

/-- Of some tags one reads none of them, where edges run in no circle. -/
theorem Acyclic.exists_bottom {r : Edges} (h : r.Acyclic) {tags : List Tag} (hn : tags ≠ []) :
    ∃ a ∈ tags, ∀ c ∈ tags, ¬r.Reads a c := by
  obtain ⟨b, hb⟩ := List.exists_mem_of_ne_nil tags hn
  let below : { t // t ∈ tags } → { t // t ∈ tags } → Prop :=
    fun c a => Relation.TransGen r.Reads a.1 c.1
  have : IsTrans _ below := ⟨fun _ _ _ hab hbc => hbc.trans hab⟩
  have : Std.Irrefl below := ⟨fun a ha => h a.1 ha⟩
  have hwf : WellFounded below := Finite.wellFounded_of_trans_of_irrefl below
  obtain ⟨a, -, hmin⟩ := hwf.has_min Set.univ ⟨⟨b, hb⟩, trivial⟩
  exact ⟨a.1, a.2, fun c hc hr => hmin ⟨c, hc⟩ trivial (.single hr)⟩

/-- What holds of a tag as soon as it holds of those of a list that the tag reads
holds of all of them. -/
theorem Acyclic.mem_induction {r : Edges} (h : r.Acyclic) {tags : List Tag} {P : Tag → Prop}
    (step : ∀ a ∈ tags, (∀ c ∈ tags, r.Reads a c → P c) → P a) : ∀ a ∈ tags, P a := by
  classical
  by_contra hn
  push Not at hn
  obtain ⟨b, hb, hbn⟩ := hn
  have hleft : (tags.filter fun a => ¬P a) ≠ [] :=
    List.ne_nil_of_mem (List.mem_filter.2 ⟨hb, by simpa using hbn⟩)
  obtain ⟨a, ha, hbottom⟩ := h.exists_bottom hleft
  rw [List.mem_filter, decide_eq_true_eq] at ha
  refine ha.2 (step a ha.1 fun c hc hr => ?_)
  by_contra hcn
  exact hbottom c (List.mem_filter.2 ⟨hc, by simpa using hcn⟩) hr

/-- A list in order has no tag before something that it reads. -/
theorem InOrder.pairwise {r : Edges} {affected ts done : List Tag}
    (h : r.InOrder affected done ts) (hd : (done ++ ts).Nodup) (ha : ∀ t ∈ ts, t ∈ affected) :
    ts.Pairwise fun a b => ¬r.Reads a b := by
  induction ts generalizing done with
  | nil => exact .nil
  | cons t ts ih =>
    rw [List.pairwise_cons]
    constructor
    · intro b hb hr
      have hbd : b ∉ done := fun hin =>
        (List.nodup_append.1 hd).2.2 b hin b (List.mem_cons_of_mem _ hb) rfl
      have hb' := mem_awaited.2 ⟨hr, ha b (List.mem_cons_of_mem _ hb), hbd⟩
      rw [h.1] at hb'
      exact List.not_mem_nil hb'
    · exact ih h.2 (by simpa using hd) fun b hb => ha b (List.mem_cons_of_mem _ hb)

/-- Before anything is done. -/
theorem releasing_start (r : Edges) (affected : OrderedSet Tag) :
    r.Releasing affected.toList (r.waiting affected) []
      (((r.waiting affected).filter fun e => e.2 = 0).map Prod.fst) := by
  have hcounts : r.waiting affected =
      affected.toList.map fun a => (a, (r.awaited affected.toList [] a).length) := by
    refine List.map_congr_left fun a _ => ?_
    have hf : (r.childrenOf a).filter affected.contains = r.awaited affected.toList [] a := by
      refine List.filter_congr fun c _ => ?_
      simp [OrderedSet.contains]
    rw [hf]
  have hready : ((r.waiting affected).filter fun e => e.2 = 0).map Prod.fst =
      affected.toList.filter fun a => (r.awaited affected.toList [] a).length = 0 := by
    rw [hcounts, List.filter_map, List.map_map]
    simp [Function.comp_def]
  refine ⟨hcounts, ?_, fun a => ?_⟩
  · rw [hready]
    exact affected.nodup.sublist List.filter_sublist
  · rw [hready]
    simp

section Order

variable {r : Edges} (hm : r.Mirrored) (roots : List Tag)

include hm

/-- The order lists each tag once. -/
theorem nodup_order : (r.order roots).Nodup := by
  have h := (releasing_start r (r.reach ∅ roots)).release hm (r.reach ∅ roots).nodup
  exact h.2.1

/-- What is in the order is affected. -/
theorem mem_reach_of_mem_order {t : Tag} (ht : t ∈ r.order roots) : t ∈ r.reach ∅ roots := by
  have h := (releasing_start r (r.reach ∅ roots)).release hm (r.reach ∅ roots).nodup
  exact ((h.2.2 t).1 ht).1

/-- **The order is one**: no tag comes before something that it reads. -/
theorem pairwise_order : (r.order roots).Pairwise fun a b => ¬r.Reads a b := by
  have h := (releasing_start r (r.reach ∅ roots)).release hm (r.reach ∅ roots).nodup
  exact h.1.pairwise h.2.1 fun t ht => mem_reach_of_mem_order hm roots ht

/-- **The order is complete**: on acyclic edges it lists the roots and all that depends on them. -/
theorem mem_order_iff (ha : r.Acyclic) {t : Tag} :
    t ∈ r.order roots ↔ ∃ s ∈ roots, r.DependsOn t s := by
  rw [← mem_reach_iff hm]
  refine ⟨mem_reach_of_mem_order hm roots, fun ht => ?_⟩
  have h := (releasing_start r (r.reach ∅ roots)).release hm (r.reach ∅ roots).nodup
  by_contra hn
  have hleft : ((r.reach ∅ roots).toList.filter fun a => a ∉ r.order roots) ≠ [] :=
    List.ne_nil_of_mem (List.mem_filter.2 ⟨ht, by simpa using hn⟩)
  -- a tag that is left and awaits nothing that is left awaits nothing, so it was released
  obtain ⟨a, hleft, hbottom⟩ := ha.exists_bottom hleft
  rw [List.mem_filter, decide_eq_true_eq] at hleft
  refine hleft.2 ((h.2.2 a).2 ⟨hleft.1, ?_⟩)
  rw [List.eq_nil_iff_forall_not_mem]
  intro c hc
  obtain ⟨hr, hca, hcn⟩ := mem_awaited.1 hc
  have hcn : c ∉ r.order roots := hcn
  exact hbottom c (List.mem_filter.2 ⟨hca, by simpa using hcn⟩) hr

end Order

end Edges

end MotionGraph
