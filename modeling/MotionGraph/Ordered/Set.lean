/-!
# Sets that remember insertion order

`OrderedSet α` is a finite set listed in the order in which its members were first inserted.
Removal closes the gap. The view is `toList`, which never repeats a member (`nodup`).
-/

namespace MotionGraph

universe u

/-- Finite set listing its members in order of first insertion. -/
structure OrderedSet (α : Type u) where
  /-- The members, oldest first. -/
  toList : List α
  /-- No member is listed twice. -/
  nodup : toList.Nodup

namespace OrderedSet

variable {α : Type u}

/-- The set without members. -/
def empty : OrderedSet α := ⟨[], by simp⟩

instance : Inhabited (OrderedSet α) := ⟨empty⟩

instance : EmptyCollection (OrderedSet α) := ⟨empty⟩

instance : Membership α (OrderedSet α) := ⟨fun s a => a ∈ s.toList⟩

/-- Two sets listed alike are the same set. -/
@[ext] theorem ext {s t : OrderedSet α} (h : s.toList = t.toList) : s = t := by
  cases s; cases t; cases h; rfl

/-- Membership is membership in the listing. -/
@[simp] theorem mem_toList {s : OrderedSet α} {a : α} : a ∈ s.toList ↔ a ∈ s := Iff.rfl

/-- Number of members. -/
def size (s : OrderedSet α) : Nat := s.toList.length

/-- Whether there is no member. -/
def isEmpty (s : OrderedSet α) : Bool := s.toList.isEmpty

/-- Keeps the members that satisfy the test, in their order. -/
def filter (keep : α → Bool) (s : OrderedSet α) : OrderedSet α where
  toList := s.toList.filter keep
  nodup := s.nodup.sublist List.filter_sublist

variable [DecidableEq α]

/-- Whether an element is a member. -/
def contains (s : OrderedSet α) (a : α) : Bool := s.toList.contains a

/-- `contains` decides membership. -/
@[simp] theorem contains_iff {s : OrderedSet α} {a : α} : s.contains a = true ↔ a ∈ s := by
  simp [contains]

/-- Adds a member at the end; a member that is present keeps its place. -/
def insert (s : OrderedSet α) (a : α) : OrderedSet α :=
  if h : s.contains a then s
  else
    { toList := s.toList ++ [a]
      nodup := by
        rw [List.nodup_append]
        refine ⟨s.nodup, by simp, ?_⟩
        intro x hx y hy
        rintro rfl
        exact h (contains_iff.2 (List.mem_singleton.1 hy ▸ hx)) }

/-- Removes a member and closes the gap. -/
def erase (s : OrderedSet α) (a : α) : OrderedSet α := s.filter fun b => b ≠ a

/-- Adds the elements of a list, first to last. -/
def insertAll (s : OrderedSet α) (l : List α) : OrderedSet α := l.foldl insert s

/-! ### What each operation does to membership -/

/-- The members after an insertion. -/
@[simp] theorem mem_insert {s : OrderedSet α} {a b : α} : b ∈ s.insert a ↔ b ∈ s ∨ b = a := by
  unfold insert
  split
  · next h =>
    have := contains_iff.1 h
    constructor
    · exact Or.inl
    · rintro (h | rfl) <;> assumption
  · simp [← mem_toList]

/-- The members after a removal. -/
@[simp] theorem mem_erase {s : OrderedSet α} {a b : α} : b ∈ s.erase a ↔ b ∈ s ∧ b ≠ a := by
  simp [← mem_toList, erase, filter]

/-- The members after adding a list. -/
@[simp] theorem mem_insertAll {s : OrderedSet α} {l : List α} {b : α} :
    b ∈ s.insertAll l ↔ b ∈ s ∨ b ∈ l := by
  unfold insertAll
  induction l generalizing s with
  | nil => simp
  | cons a l ih => simp [ih, or_assoc]

end OrderedSet

end MotionGraph
