/-!
# Numbers of limited width

Identifiers and counts are held in words of 32 or 64 bits. `Word.size` is the number of values of
such a word, and so the least natural number that does not fit. Counts stop at the greatest number
that fits (`Word.saturate`).
-/

namespace MotionGraph.Word

/-- How many values a word of so many bits has. -/
def size (bits : Nat) : Nat := Nat.pow 2 bits

/-- The number that a word holds where a natural number is counted: the greatest one for all that do
not fit. -/
def saturate (bits n : Nat) : Nat := min n (size bits - 1)

/-- Counting one further from what is held holds one more. -/
theorem saturate_succ (bits n : Nat) :
    saturate bits (saturate bits n + 1) = saturate bits (n + 1) := by
  unfold saturate
  omega

/-- Below a number that fits, what is held is as good as the count itself. -/
theorem saturate_lt_iff {bits n m : Nat} (h : m < size bits) : saturate bits n < m ↔ n < m := by
  unfold saturate
  omega

end MotionGraph.Word
