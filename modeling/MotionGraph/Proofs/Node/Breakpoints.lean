import MotionGraph.Node.Interpolation

/-!
# The breakpoints of an interpolation

An interpolation that was made of two lists has the one as its inputs and the other as its outputs,
and its inputs decrease nowhere (`Interpolation.ofLists_eq_ok`).
-/

namespace MotionGraph.Interpolation

variable {α : Type} [Scalar α]

/-- The inputs of the breakpoints. -/
def inputs (c : Interpolation α) : List α := c.breakpoints.map Breakpoint.input

/-- The outputs of the breakpoints. -/
def outputs (c : Interpolation α) : List α := c.breakpoints.map Breakpoint.output

/-- Lists that an interpolation is made of are the coordinates of its breakpoints. -/
theorem ofLists_eq_ok {inputs outputs : List α} {left right : Extrapolation} {c : Interpolation α}
    (h : ofLists inputs outputs left right = .ok c) :
    c.inputs = inputs ∧ c.outputs = outputs ∧ c.left = left ∧ c.right = right ∧
      decreases inputs = false := by
  unfold ofLists at h
  split at h
  · cases h
  split at h
  · cases h
  · next hlen =>
    rw [ne_eq, Decidable.not_not] at hlen
    split at h
    · cases h
    split at h
    · cases h
    · next steady =>
      split at h
      · next first second rest hz =>
        cases h
        have points : (Interpolation.mk first second rest left right).breakpoints =
            (inputs.zip outputs).map (Function.uncurry Breakpoint.mk) := by
          rw [List.map_uncurry_zip_eq_zipWith, hz, breakpoints]
        have hi : (Interpolation.mk first second rest left right).inputs = inputs := by
          rw [Interpolation.inputs, points, List.map_map]
          exact List.map_fst_zip (Nat.le_of_eq hlen)
        have ho : (Interpolation.mk first second rest left right).outputs = outputs := by
          rw [Interpolation.outputs, points, List.map_map]
          exact List.map_snd_zip (Nat.le_of_eq hlen.symm)
        exact ⟨hi, ho, rfl, rfl, Bool.not_eq_true _ ▸ steady⟩
      · cases h

end MotionGraph.Interpolation
