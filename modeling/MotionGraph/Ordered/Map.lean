/-!
# Maps that remember insertion order

`OrderedMap κ α` is a finite map whose entries are listed in the order in which their keys were
first inserted. Writing to a key that is present keeps its place. There are two ways to remove a
key: `erase` closes the gap, `swapErase` moves the last entry into it.

The view is `toList`; each operation states what it does to it, and keys never repeat
(`keys_nodup`).
-/

namespace MotionGraph

universe u v

/-- Finite map listing its entries in order of first insertion. -/
structure OrderedMap (κ : Type u) (α : Type v) where
  /-- The entries, oldest key first. -/
  toList : List (κ × α)
  /-- No key is listed twice. -/
  keys_nodup : (toList.map Prod.fst).Nodup

namespace OrderedMap

variable {κ : Type u} {α : Type v}

/-- The map without entries. -/
def empty : OrderedMap κ α := ⟨[], by simp⟩

instance : Inhabited (OrderedMap κ α) := ⟨empty⟩

instance : EmptyCollection (OrderedMap κ α) := ⟨empty⟩

/-- Two maps with the same list of entries are the same map. -/
@[ext] theorem ext {m n : OrderedMap κ α} (h : m.toList = n.toList) : m = n := by
  cases m; cases n; cases h; rfl

/-- The keys, oldest first. -/
def keys (m : OrderedMap κ α) : List κ := m.toList.map Prod.fst

/-- The values, in the order of their keys. -/
def values (m : OrderedMap κ α) : List α := m.toList.map Prod.snd

/-- Number of entries. -/
def size (m : OrderedMap κ α) : Nat := m.toList.length

/-- Whether there is no entry. -/
def isEmpty (m : OrderedMap κ α) : Bool := m.toList.isEmpty

/-- Rewrites every value in place, with its key in sight. -/
def map {β : Type v} (f : κ → α → β) (m : OrderedMap κ α) : OrderedMap κ β where
  toList := m.toList.map fun p => (p.1, f p.1 p.2)
  keys_nodup := by
    have h : (m.toList.map fun p => (p.1, f p.1 p.2)).map Prod.fst = m.toList.map Prod.fst := by
      simp [List.map_map, Function.comp_def]
    rw [h]
    exact m.keys_nodup

/-- Keeps the entries that satisfy the test, in their order. -/
def filter (keep : κ → α → Bool) (m : OrderedMap κ α) : OrderedMap κ α where
  toList := m.toList.filter fun p => keep p.1 p.2
  keys_nodup := m.keys_nodup.sublist (List.filter_sublist.map _)

section Keyed

variable [DecidableEq κ]

/-- Whether the key has an entry. -/
def contains (m : OrderedMap κ α) (k : κ) : Bool := m.toList.any fun p => p.1 = k

/-- The value at a key. -/
def get? (m : OrderedMap κ α) (k : κ) : Option α :=
  (m.toList.find? fun p => p.1 = k).map Prod.snd

/-- Rewrites the value at one key; nothing happens when the key is absent. -/
def modify (m : OrderedMap κ α) (k : κ) (f : α → α) : OrderedMap κ α :=
  m.map fun j a => if j = k then f a else a

/-- Whether a key is listed is what `contains` decides. -/
theorem contains_iff {m : OrderedMap κ α} {k : κ} : m.contains k = true ↔ k ∈ m.keys := by
  simp [contains, keys]

/-- Writes an entry: in place if the key is present, at the end if it is new. -/
def insert (m : OrderedMap κ α) (k : κ) (a : α) : OrderedMap κ α :=
  if h : m.contains k then m.modify k fun _ => a
  else
    { toList := m.toList ++ [(k, a)]
      keys_nodup := by
        have hk : k ∉ m.toList.map Prod.fst := fun hm => h (contains_iff.2 hm)
        rw [List.map_append, List.nodup_append]
        refine ⟨m.keys_nodup, by simp, ?_⟩
        intro x hx y hy
        simp only [List.map_cons, List.map_nil, List.mem_singleton] at hy
        rintro rfl
        exact hk (hy ▸ hx) }

/-- Removes a key and closes the gap. -/
def erase (m : OrderedMap κ α) (k : κ) : OrderedMap κ α := m.filter fun j _ => j ≠ k

/-- Putting a fresh entry in the place of a key keeps the keys distinct. -/
theorem nodup_keys_replace {l : List (κ × α)} {k : κ} {e : κ × α}
    (hd : (l.map Prod.fst).Nodup) (fresh : ∀ p ∈ l, p.1 ≠ e.1) :
    ((l.map fun p => if p.1 = k then e else p).map Prod.fst).Nodup := by
  induction l with
  | nil => simp
  | cons p l ih =>
    rw [List.map_cons, List.nodup_cons] at hd
    have hl : ∀ q ∈ l, q.1 ≠ e.1 := fun q hq => fresh q (List.mem_cons_of_mem _ hq)
    have hp : p.1 ≠ e.1 := fresh p List.mem_cons_self
    rw [List.map_cons, List.map_cons, List.nodup_cons]
    refine ⟨?_, ih hd.2 hl⟩
    rw [List.map_map, List.mem_map]
    rintro ⟨q, hq, he⟩
    have hpq : q.1 ≠ p.1 := fun h => hd.1 (h ▸ List.mem_map_of_mem hq)
    have hqe := hl q hq
    simp only [Function.comp_apply] at he
    split at he <;> split at he
    · next h1 h2 => exact hpq (h1.trans h2.symm)
    · exact hp he.symm
    · exact hqe he
    · exact hpq he

/-- Removes a key and moves the last entry into its place. -/
def swapErase (m : OrderedMap κ α) (k : κ) : OrderedMap κ α :=
  match h : m.toList.getLast? with
  | none => m
  | some last =>
    if m.contains k then
      { toList := m.toList.dropLast.map fun p => if p.1 = k then last else p
        keys_nodup := by
          obtain ⟨front, hl⟩ := List.getLast?_eq_some_iff.1 h
          have hn := m.keys_nodup
          rw [hl, List.map_append, List.nodup_append] at hn
          rw [hl, List.dropLast_concat]
          exact nodup_keys_replace hn.1 fun p hp =>
            hn.2.2 p.1 (List.mem_map_of_mem hp) last.1 (by simp) }
    else m

/-- The map holding the given entries; of two entries for a key, the later value stands at the
place of the earlier. -/
def ofList (l : List (κ × α)) : OrderedMap κ α := l.foldl (fun m p => m.insert p.1 p.2) empty

/-! ### What each operation does to the view -/

/-- A key that is listed has a value, and only such a key. -/
theorem get?_isSome_iff {m : OrderedMap κ α} {k : κ} : (m.get? k).isSome ↔ k ∈ m.keys := by
  simp [get?, keys, List.find?_isSome]

/-- A new key goes to the end. -/
theorem toList_insert_of_not_contains {m : OrderedMap κ α} {k : κ} {a : α}
    (h : m.contains k = false) : (m.insert k a).toList = m.toList ++ [(k, a)] := by
  simp [insert, h]

/-- A key that is present keeps its place. -/
theorem keys_insert_of_contains {m : OrderedMap κ α} {k : κ} {a : α}
    (h : m.contains k = true) : (m.insert k a).keys = m.keys := by
  simp [insert, h, modify, map, keys, Function.comp_def]

/-- Removing a key leaves the other entries as they were, in their order. -/
@[simp] theorem toList_erase {m : OrderedMap κ α} {k : κ} :
    (m.erase k).toList = m.toList.filter fun p => p.1 ≠ k := rfl

/-- Rewriting one value keeps the keys. -/
@[simp] theorem keys_modify {m : OrderedMap κ α} {k : κ} {f : α → α} :
    (m.modify k f).keys = m.keys := by
  simp [modify, map, keys, Function.comp_def]

end Keyed

end OrderedMap

end MotionGraph
