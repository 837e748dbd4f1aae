import MotionGraph.Node.DiffClamp
import MotionGraph.Proofs.Number.Doubles

/-!
# A diff-clamp that sees the same input again

Seen twice, an input has not changed, and a diff-clamp should stay where it is. It does so unless
its value is the negative zero or the input is not finite (`DiffClamp.base_step_self_iff`): the
change of an infinite input is undefined, and so is the value from then on.
-/

namespace MotionGraph

namespace Double

variable {x lo hi : Float}

/-- What has been brought between bounds stays. -/
theorem clamp_clamp (h : ¬hi < lo) : clamp (clamp x lo hi) lo hi = clamp x lo hi := by
  by_cases hlo : x < lo
  · have hc : clamp x lo hi = lo := if_pos hlo
    rw [hc, clamp, if_neg (not_lt_self lo), if_neg h]
  · by_cases hhi : hi < x
    · have hc : clamp x lo hi = hi := by rw [clamp, if_neg hlo, if_pos hhi]
      rw [hc, clamp, if_neg h, if_neg (not_lt_self hi)]
    · have hc : clamp x lo hi = x := by rw [clamp, if_neg hlo, if_neg hhi]
      rw [hc, hc]

/-- What stays between bounds is beyond neither. -/
theorem not_lt_of_clamp_eq (h : clamp x lo hi = x) : ¬x < lo ∧ ¬hi < x := by
  by_cases hlo : x < lo
  · have hx : x = lo := h.symm.trans (if_pos hlo)
    exact absurd hlo (hx ▸ not_lt_self lo)
  · by_cases hhi : hi < x
    · have hx : x = hi := h.symm.trans (by rw [clamp, if_neg hlo, if_pos hhi])
      exact absurd hhi (hx ▸ not_lt_self hi)
    · exact ⟨hlo, hhi⟩

/-- No bounds hold an undefined number. -/
theorem clamp_nan : clamp nan lo hi = nan := by
  rw [clamp, if_neg (not_nan_lt lo), if_neg (not_lt_nan hi)]

/-- Bounds that hold the one zero hold the other. -/
theorem clamp_zero (h : clamp (-0.0) lo hi = -0.0) : clamp 0.0 lo hi = 0.0 := by
  obtain ⟨hlo, hhi⟩ := not_lt_of_clamp_eq h
  rw [neg_zero_lt_iff] at hlo
  rw [lt_neg_zero_iff] at hhi
  rw [clamp, if_neg hlo, if_neg hhi]

end Double

namespace DiffClamp

/-- Whether a diff-clamp of a value stays where it is when it sees the same input again. -/
def Rests (base input : Float) : Prop :=
  base.isNaN = true ∨ input.isFinite = true ∧ base ≠ -0.0

instance (base input : Float) : Decidable (Rests base input) := by
  unfold Rests
  infer_instance

/-- Bounds are in order. -/
theorem not_lt_of_areBounds {low high : Float} (h : areBounds low high = true) : ¬high < low := by
  simp only [areBounds, Bool.and_eq_true, Bool.not_eq_true', decide_eq_false_iff_not] at h
  exact h.2

/-- A step gives a value between the bounds. -/
theorem clamp_step (d : DiffClamp) (h : areBounds d.low d.high = true) (current input : Float) :
    Double.clamp (d.step current input).2 d.low d.high = (d.step current input).2 :=
  Double.clamp_clamp (not_lt_of_areBounds h)

/-- **When the same input leaves the value**: a diff-clamp whose value is between its bounds keeps
it at the input that it saw last exactly if it rests there. -/
theorem base_step_self_iff {d : DiffClamp} {base input : Float} (hlast : d.last = some input)
    (hin : Double.clamp base d.low d.high = base) :
    (d.step base input).2 = base ↔ Rests base input := by
  have hstep : (d.step base input).2 = Double.clamp (base + (input - input)) d.low d.high := by
    simp only [step, change, hlast]
  rw [hstep, Rests]
  cases hf : input.isFinite with
  | true =>
    rw [Double.sub_self hf]
    by_cases hb : base = -0.0
    · subst hb
      rw [Double.neg_zero_add_zero, Double.clamp_zero hin]
      decide +kernel
    · rw [Double.add_zero hb, hin]
      simp [hb]
  | false =>
    rw [Double.sub_self_of_not_isFinite hf, Double.add_nan, Double.clamp_nan]
    constructor
    · rintro rfl
      exact Or.inl Double.isNaN_nan
    · rintro (hn | ⟨h, -⟩)
      · exact (Double.eq_nan hn).symm
      · cases h

end DiffClamp

end MotionGraph
