import MotionGraph.Ordered.Map
import MotionGraph.Ordered.Set
import Mathlib.Tactic.Tauto

/-!
# Lookups in ordered maps

What `get?` answers after each operation on an `OrderedMap`. Everything rests on
`get?_eq_some_iff`: since no key is listed twice, a lookup finds exactly the entries of the
listing. Both ways of removing a key, `erase` and `swapErase`, answer lookups alike.
-/

namespace MotionGraph.OrderedMap

universe u v

variable {κ : Type u} {α β : Type v} [DecidableEq κ]

/-! ### Lookups and the listing -/

/-- A lookup answers exactly the listed entries. -/
theorem get?_eq_some_iff {m : OrderedMap κ α} {k : κ} {a : α} :
    m.get? k = some a ↔ (k, a) ∈ m.toList := by
  obtain ⟨l, hl⟩ := m
  simp only [get?, Option.map_eq_some_iff]
  induction l with
  | nil => simp
  | cons p l ih =>
    rw [List.map_cons, List.nodup_cons] at hl
    by_cases hk : p.1 = k
    · have hrest : (k, a) ∉ l := fun h => hl.1 (hk ▸ List.mem_map_of_mem (f := Prod.fst) h)
      simp only [List.find?_cons, hk, decide_true, Option.some.injEq, exists_eq_left',
        List.mem_cons, hrest, or_false]
      constructor
      · rintro rfl
        exact Prod.ext hk.symm rfl
      · intro h
        rw [← h]
    · have hne : (k, a) ≠ p := fun h => hk (h ▸ rfl)
      simpa [List.find?_cons, hk, hne] using ih hl.2

/-- Nothing is found exactly at the keys that are not listed. -/
theorem get?_eq_none_iff {m : OrderedMap κ α} {k : κ} : m.get? k = none ↔ k ∉ m.keys := by
  rw [← get?_isSome_iff, Option.not_isSome_iff_eq_none]

/-- `contains` tells whether a lookup finds something. -/
theorem contains_eq_isSome (m : OrderedMap κ α) (k : κ) : m.contains k = (m.get? k).isSome := by
  rw [Bool.eq_iff_iff, contains_iff, get?_isSome_iff]

/-- A lookup is known from the entries listed for its key. -/
theorem get?_eq_of_mem_iff {m : OrderedMap κ α} {k : κ} {o : Option α}
    (h : ∀ a, (k, a) ∈ m.toList ↔ o = some a) : m.get? k = o := by
  apply Option.ext
  intro a
  rw [get?_eq_some_iff, h a]

/-- The entries listed for a key are what a lookup finds. -/
theorem toList_filter_key (m : OrderedMap κ α) (k : κ) :
    (m.toList.filter fun p => p.1 = k) = (m.get? k).toList.map fun a => (k, a) := by
  obtain ⟨l, hl⟩ := m
  simp only [get?]
  induction l with
  | nil => rfl
  | cons p l ih =>
    rw [List.map_cons, List.nodup_cons] at hl
    by_cases hk : p.1 = k
    · subst hk
      have hrest : (l.filter fun q => q.1 = p.1) = [] := by
        rw [List.filter_eq_nil_iff]
        intro q hq hqp
        rw [decide_eq_true_eq] at hqp
        exact hl.1 (hqp ▸ List.mem_map_of_mem hq)
      simp [hrest]
    · simp [hk, ih hl.2]

/-! ### Lookups after an operation -/

/-- Rewriting every value rewrites what is found. -/
@[simp] theorem get?_map (f : κ → α → β) (m : OrderedMap κ α) (k : κ) :
    (m.map f).get? k = (m.get? k).map (f k) := by
  apply get?_eq_of_mem_iff
  intro b
  simp only [map, List.mem_map, Option.map_eq_some_iff, get?_eq_some_iff]
  constructor
  · rintro ⟨⟨j, a⟩, ha, h⟩
    cases h
    exact ⟨a, ha, rfl⟩
  · rintro ⟨a, ha, rfl⟩
    exact ⟨(k, a), ha, rfl⟩

/-- Rewriting the value of one key changes what is found there alone. -/
theorem get?_modify (m : OrderedMap κ α) (k j : κ) (f : α → α) :
    (m.modify k f).get? j = if j = k then (m.get? j).map f else m.get? j := by
  rw [modify, get?_map]
  by_cases h : j = k <;> simp [h]

/-- Keeping some entries keeps what is found if it passes the test. -/
@[simp] theorem get?_filter (keep : κ → α → Bool) (m : OrderedMap κ α) (k : κ) :
    (m.filter keep).get? k = (m.get? k).filter (keep k) := by
  apply get?_eq_of_mem_iff
  intro a
  simp [filter, Option.filter_eq_some_iff, get?_eq_some_iff]

/-- A written entry is found under its key, and all else as before. -/
theorem get?_insert (m : OrderedMap κ α) (k j : κ) (a : α) :
    (m.insert k a).get? j = if j = k then some a else m.get? j := by
  by_cases hc : m.contains k = true
  · rw [insert, dif_pos hc, get?_modify]
    by_cases hj : j = k
    · obtain ⟨b, hb⟩ := Option.isSome_iff_exists.1 (contains_eq_isSome m k ▸ hc)
      simp [hj, hb]
    · simp [hj]
  · rw [Bool.not_eq_true] at hc
    apply get?_eq_of_mem_iff
    intro b
    rw [toList_insert_of_not_contains hc, List.mem_append, ← get?_eq_some_iff]
    by_cases hj : j = k
    · have hn : m.get? k = none := by simpa [contains_eq_isSome] using hc
      simp [hj, hn, eq_comm]
    · simp [hj]

/-- A removed key is not found any more, and all else as before. -/
theorem get?_erase (m : OrderedMap κ α) (k j : κ) :
    (m.erase k).get? j = if j = k then none else m.get? j := by
  rw [erase, get?_filter]
  by_cases h : j = k
  · cases m.get? j <;> simp [h, Option.filter]
  · cases m.get? j <;> simp [h, Option.filter]

/-- The entries after one entry was put in the place of all with some key. -/
theorem mem_map_replace {l : List (κ × α)} {k : κ} {e x : κ × α} :
    (x ∈ l.map fun p => if p.1 = k then e else p) ↔
      (x = e ∧ k ∈ l.map Prod.fst) ∨ (x ∈ l ∧ x.1 ≠ k) := by
  rw [List.mem_map]
  constructor
  · rintro ⟨p, hp, rfl⟩
    by_cases hk : p.1 = k
    · simp only [hk, if_true]
      exact Or.inl ⟨trivial, hk ▸ List.mem_map_of_mem hp⟩
    · simp only [hk, if_false]
      exact Or.inr ⟨hp, hk⟩
  · rintro (⟨rfl, hk⟩ | ⟨hx, hk⟩)
    · obtain ⟨p, hp, rfl⟩ := List.mem_map.1 hk
      exact ⟨p, hp, if_pos rfl⟩
    · exact ⟨x, hx, if_neg hk⟩

/-- Moving the last entry into the place of the removed key does not show in lookups. -/
theorem get?_swapErase (m : OrderedMap κ α) (k j : κ) :
    (m.swapErase k).get? j = if j = k then none else m.get? j := by
  have absent : ∀ {n : OrderedMap κ α}, n.get? k = none →
      n.get? j = if j = k then none else n.get? j := by
    intro n hn
    by_cases hj : j = k <;> simp [hj, hn]
  unfold swapErase
  split
  · next h =>
    have hl : m.toList = [] := List.getLast?_eq_none_iff.1 h
    exact absent (get?_eq_none_iff.2 (by simp [keys, hl]))
  · next last h =>
    split
    · next hc =>
      obtain ⟨front, hl⟩ := List.getLast?_eq_some_iff.1 h
      have hk : k ∈ front.map Prod.fst ∨ k = last.1 := by
        simpa [keys, hl] using contains_iff.1 hc
      have hfresh : last.1 ∉ front.map Prod.fst := by
        have hn := m.keys_nodup
        rw [hl, List.map_append, List.nodup_append] at hn
        exact fun hm => hn.2.2 _ hm last.1 (by simp) rfl
      apply get?_eq_of_mem_iff
      intro a
      simp only [hl, List.dropLast_concat]
      rw [mem_map_replace]
      by_cases hj : j = k
      · have hlast : (j, a) = last → k ∉ front.map Prod.fst :=
          fun he hf => hfresh (by rwa [← he, hj])
        simpa [hj] using fun he => by simpa [hj] using hlast (hj ▸ he)
      · simp only [hj, if_false, get?_eq_some_iff, hl, List.mem_append, List.mem_singleton, ne_eq,
          not_false_eq_true, and_true]
        have hlast : (j, a) = last → k ∈ front.map Prod.fst :=
          fun he => hk.resolve_right fun hk => hj (by rw [hk, ← he])
        tauto
    · next hc =>
      exact absent (by simpa [contains_eq_isSome] using hc)

end MotionGraph.OrderedMap
