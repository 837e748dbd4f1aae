import MotionGraph.Ordered.Set

/-!
# Listings of ordered sets

How the listing of an `OrderedSet` grows. One more member comes last, unless it is there
(`toList_insert`); of a list, the members come that are new (`size_insertAll`); and it does
not matter whether members are chosen before or after others are added, if these are chosen
too (`filter_insertAll`).
-/

namespace MotionGraph.OrderedSet

variable {α : Type} [DecidableEq α]

/-- A new member is listed last, and one that is present stays where it is. -/
theorem toList_insert (s : OrderedSet α) (a : α) :
    (s.insert a).toList = if a ∈ s.toList then s.toList else s.toList ++ [a] := by
  unfold insert
  by_cases h : a ∈ s.toList
  · rw [dif_pos (contains_iff.2 h), if_pos h]
  · rw [dif_neg fun hc => h (contains_iff.1 hc), if_neg h]

/-- The set grows by those members of a list that are new. -/
theorem size_insertAll {l : List α} (s : OrderedSet α) (h : l.Nodup) :
    (s.insertAll l).size = s.size + (l.filter fun a => !s.contains a).length := by
  induction l generalizing s with
  | nil => rfl
  | cons a l ih =>
    obtain ⟨ha, hl⟩ := List.nodup_cons.1 h
    -- what follows `a` in the list is new after `a` was added if it was new before
    have others :
        (l.filter fun b => !(s.insert a).contains b) = l.filter fun b => !s.contains b := by
      apply List.filter_congr
      intro b hb
      have hne : b ≠ a := fun hab => ha (hab ▸ hb)
      rw [Bool.eq_iff_iff]
      simp [← Bool.not_eq_true, hne]
    show ((s.insert a).insertAll l).size = _
    rw [ih (s.insert a) hl, others, size, toList_insert]
    by_cases hs : a ∈ s.toList
    · rw [if_pos hs, List.filter_cons_of_neg (by simpa [contains] using hs)]
      rfl
    · rw [if_neg hs, List.filter_cons_of_pos (by simpa [contains] using hs), List.length_append,
        List.length_singleton, List.length_cons, size]
      omega

/-- A new member is added to those that pass a test if it passes itself. -/
theorem filter_insert (keep : α → Bool) (s : OrderedSet α) (a : α) :
    (s.insert a).filter keep = if keep a then (s.filter keep).insert a else s.filter keep := by
  have present : a ∈ (s.filter keep).toList ↔ a ∈ s.toList ∧ keep a = true := List.mem_filter
  apply ext
  show (s.insert a).toList.filter keep = _
  rw [toList_insert]
  by_cases hk : keep a = true
  · rw [if_pos hk, toList_insert]
    by_cases hs : a ∈ s.toList
    · rw [if_pos hs, if_pos (present.2 ⟨hs, hk⟩)]
      rfl
    · rw [if_neg hs, if_neg fun h => hs (present.1 h).1]
      simp [filter, hk]
  · rw [if_neg hk]
    split
    · rfl
    · simp [filter, hk]

/-- Of the members added from a list those pass a test that pass it in the list. -/
theorem filter_insertAll (keep : α → Bool) (s : OrderedSet α) (l : List α) :
    (s.insertAll l).filter keep = (s.filter keep).insertAll (l.filter keep) := by
  induction l generalizing s with
  | nil => rfl
  | cons a l ih =>
    show ((s.insert a).insertAll l).filter keep = _
    rw [ih, filter_insert]
    by_cases hk : keep a = true
    · rw [if_pos hk, List.filter_cons_of_pos hk]
      rfl
    · rw [if_neg hk, List.filter_cons_of_neg hk]

end MotionGraph.OrderedSet
