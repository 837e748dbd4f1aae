import Mathlib
import MotionGraph.Number.Binary64

/-!
# Sums and differences of doubles

What core says about doubles, it says about their unpacked form, and results are packed again. A
double unpacked and packed is itself (`Double.ofModel_pack_unpack`), so that a sum or a
difference that the model gives as one of its operands is that operand as a datum: adding zero
changes nothing but the negative zero (`Double.add_zero`), and a finite double minus itself is
zero (`Double.sub_self`).
-/

namespace MotionGraph

namespace Double

open Float.Model Float.Model.UnpackedFloat

/-! ### Packing what was unpacked -/

/-- **A double unpacked and packed is itself.** -/
theorem ofModel_pack_unpack (x : Float) : Float.ofModel (.pack x.toModel.unpack) = x := by
  obtain ⟨⟨bits, hv⟩⟩ := x
  have h : UnpackedFloat.pack .binary64 (unpack .binary64 bits.toBitVec) = bits.toBitVec :=
    pack_unpack_of_valid hv
  simp only [Float.Model.pack, Float.Model.unpack, h]

/-! ### Doubles of one unpacked form -/

/-- Doubles of the same unpacked form are the same. -/
theorem eq_of_unpack_eq {x y : Float} (h : x.toModel.unpack = y.toModel.unpack) : x = y := by
  rw [← ofModel_pack_unpack x, h, ofModel_pack_unpack]

/-- There is one undefined double. -/
theorem eq_nan {x : Float} (h : x.isNaN = true) : x = nan := by
  have hx : x.toModel.unpack.isNaN = true := h
  cases hu : x.toModel.unpack with
  | notANumber => exact eq_of_unpack_eq hu
  | _ =>
    rw [hu] at hx
    cases hx

/-- The undefined double is undefined. -/
theorem isNaN_nan : nan.isNaN = true := by decide +kernel

/-! ### Sums and differences -/

/-- Zero unpacked. -/
theorem unpack_zero : (0.0 : Float).toModel.unpack = .zero .positive := by
  with_unfolding_all rfl

/-- Negative zero unpacked. -/
theorem unpack_neg_zero : (-0.0 : Float).toModel.unpack = .zero .negative := by
  with_unfolding_all rfl

/-- **Adding zero changes nothing but the negative zero.** -/
theorem add_zero {x : Float} (h : x ≠ -0.0) : x + 0.0 = x := by
  have hsum : UnpackedFloat.add .binary64 x.toModel.unpack (0.0 : Float).toModel.unpack =
      x.toModel.unpack := by
    rw [unpack_zero]
    cases hu : x.toModel.unpack with
    | zero s =>
      cases s with
      | positive => rfl
      | negative => exact absurd (eq_of_unpack_eq (hu.trans unpack_neg_zero.symm)) h
    | _ => rfl
  show Float.ofModel (.pack (UnpackedFloat.add .binary64 x.toModel.unpack _)) = x
  rw [hsum, ofModel_pack_unpack]

/-- Negative zero and zero make zero. -/
theorem neg_zero_add_zero : (-0.0 : Float) + 0.0 = 0.0 := by decide +kernel

/-- Unpacked sums do not depend on the order of the operands. -/
theorem unpacked_add_comm (a b : UnpackedFloat) :
    UnpackedFloat.add .binary64 a b = UnpackedFloat.add .binary64 b a := by
  cases a with
  | notANumber => cases b <;> rfl
  | infinity s => cases b with
    | infinity s' => cases s <;> cases s' <;> rfl
    | _ => rfl
  | zero s => cases b with
    | zero s' => cases s <;> cases s' <;> rfl
    | _ => rfl
  | finite s m e hm => cases b with
    | finite s' m' e' hm' => simp only [UnpackedFloat.add, min_comm e e', Int.add_comm]
    | _ => rfl

/-- Sums do not depend on the order of the operands. -/
theorem add_comm (x y : Float) : x + y = y + x := by
  show Float.ofModel (.pack (UnpackedFloat.add .binary64 x.toModel.unpack y.toModel.unpack)) =
    Float.ofModel (.pack (UnpackedFloat.add .binary64 y.toModel.unpack x.toModel.unpack))
  rw [unpacked_add_comm]

/-- A sum with an undefined number is undefined. -/
theorem add_nan (x : Float) : x + nan = nan := by
  have hsum : UnpackedFloat.add .binary64 x.toModel.unpack nan.toModel.unpack = .notANumber := by
    have hn : nan.toModel.unpack = .notANumber := by with_unfolding_all rfl
    rw [hn]
    cases x.toModel.unpack <;> rfl
  show Float.ofModel (.pack (UnpackedFloat.add .binary64 x.toModel.unpack _)) = nan
  rw [hsum]
  with_unfolding_all rfl

/-- **A finite double minus itself is zero.** -/
theorem sub_self {x : Float} (h : x.isFinite = true) : x - x = 0.0 := by
  have hx : x.toModel.unpack.isFinite = true := h
  have hdiff : UnpackedFloat.sub .binary64 x.toModel.unpack x.toModel.unpack = .zero .positive := by
    cases hu : x.toModel.unpack with
    | notANumber =>
      rw [hu] at hx
      cases hx
    | infinity s =>
      rw [hu] at hx
      cases hx
    | zero s => cases s <;> rfl
    | finite s m e hm =>
      simp only [UnpackedFloat.sub, Int.sub_self, UnpackedFloat.normalize]
      rfl
  show Float.ofModel (.pack (UnpackedFloat.sub .binary64 x.toModel.unpack x.toModel.unpack)) = 0.0
  rw [hdiff]
  with_unfolding_all rfl

/-- Any other double minus itself is undefined. -/
theorem sub_self_of_not_isFinite {x : Float} (h : x.isFinite = false) : x - x = nan := by
  have hx : x.toModel.unpack.isFinite = false := h
  have hdiff : UnpackedFloat.sub .binary64 x.toModel.unpack x.toModel.unpack = .notANumber := by
    cases hu : x.toModel.unpack with
    | notANumber => rfl
    | infinity s => cases s <;> rfl
    | zero s =>
      rw [hu] at hx
      cases hx
    | finite s m e hm =>
      rw [hu] at hx
      cases hx
  show Float.ofModel (.pack (UnpackedFloat.sub .binary64 x.toModel.unpack x.toModel.unpack)) = nan
  rw [hdiff]
  with_unfolding_all rfl

/-! ### Comparisons -/

/-- Doubles are compared by their unpacked forms. -/
theorem lt_iff {x y : Float} : x < y ↔ x.toModel.unpack.lt y.toModel.unpack = true :=
  decide_eq_true_iff

/-- Nothing is less than itself. -/
theorem not_lt_self (x : Float) : ¬x < x := by
  rw [lt_iff, Bool.not_eq_true]
  cases x.toModel.unpack with
  | finite s m e hm => cases s <;> simp [UnpackedFloat.lt, UnpackedFloat.compare]
  | infinity s => cases s <;> rfl
  | _ => rfl

/-- Nothing compares with an undefined number. -/
theorem not_lt_nan (x : Float) : ¬x < nan := by
  have hn : nan.toModel.unpack = .notANumber := by with_unfolding_all rfl
  rw [lt_iff, Bool.not_eq_true, hn]
  cases x.toModel.unpack <;> rfl

/-- Nor does an undefined number. -/
theorem not_nan_lt (x : Float) : ¬nan < x := by
  have hn : nan.toModel.unpack = .notANumber := by with_unfolding_all rfl
  rw [lt_iff, Bool.not_eq_true, hn]
  rfl

/-- What is less than the one zero is less than the other. -/
theorem lt_neg_zero_iff {x : Float} : x < -0.0 ↔ x < 0.0 := by
  rw [lt_iff, lt_iff, unpack_zero, unpack_neg_zero]
  cases x.toModel.unpack with
  | infinity s => cases s <;> rfl
  | finite s m e hm => cases s <;> rfl
  | _ => rfl

/-- What is greater than the one zero is greater than the other. -/
theorem neg_zero_lt_iff {x : Float} : -0.0 < x ↔ 0.0 < x := by
  rw [lt_iff, lt_iff, unpack_zero, unpack_neg_zero]
  cases x.toModel.unpack with
  | infinity s => cases s <;> rfl
  | finite s m e hm => cases s <;> rfl
  | _ => rfl

/-- Weak comparison, too. -/
theorem le_iff {x y : Float} : x ≤ y ↔ x.toModel.unpack.le y.toModel.unpack = true :=
  decide_eq_true_iff

/-- Comparing the other way round turns the answer. -/
theorem compare_swap (a b : UnpackedFloat) : (b.compare a).map Ordering.swap = a.compare b := by
  cases a with
  | notANumber => cases b <;> rfl
  | infinity s => cases b with
    | infinity s' => cases s <;> cases s' <;> rfl
    | _ => cases s <;> rfl
  | zero s => cases b with
    | infinity s' => cases s' <;> rfl
    | finite s' m e hm => cases s' <;> rfl
    | _ => rfl
  | finite s m e hm => cases b with
    | infinity s' => cases s <;> cases s' <;> rfl
    | finite s' m' e' hm' =>
      cases s <;> cases s' <;>
        simp [UnpackedFloat.compare, Ordering.swap_then, Int.compare_swap, Nat.compare_swap]
    | zero s' => cases s <;> rfl
    | notANumber => cases s <;> rfl

/-- Numbers compare. -/
theorem isSome_compare {a b : UnpackedFloat} (ha : a.isNaN = false) (hb : b.isNaN = false) :
    (a.compare b).isSome = true := by
  cases a with
  | notANumber => cases ha
  | infinity s => cases b with
    | notANumber => cases hb
    | _ => cases s <;> rfl
  | zero s => cases b with
    | notANumber => cases hb
    | zero s' => rfl
    | infinity s' => cases s' <;> rfl
    | finite s' m e hm => cases s' <;> rfl
  | finite s m e hm => cases b with
    | notANumber => cases hb
    | zero s' => cases s <;> rfl
    | infinity s' => cases s <;> cases s' <;> rfl
    | finite s' m e hm => cases s <;> cases s' <;> rfl

/-- Of two numbers the one that is not greater is less or equal. -/
theorem le_of_not_lt {x y : Float} (hx : x.isNaN = false) (hy : y.isNaN = false) (h : ¬y < x) :
    x ≤ y := by
  obtain ⟨o, ho⟩ := Option.isSome_iff_exists.1
    (isSome_compare (a := y.toModel.unpack) (b := x.toModel.unpack) hy hx)
  rw [lt_iff, UnpackedFloat.lt, ho] at h
  rw [le_iff, UnpackedFloat.le, ← compare_swap, ho]
  cases o with
  | lt => exact absurd rfl h
  | eq => rfl
  | gt => rfl

/-- What is less is less or equal. -/
theorem le_of_lt {x y : Float} (h : x < y) : x ≤ y := by
  rw [lt_iff, UnpackedFloat.lt, beq_iff_eq] at h
  rw [le_iff, UnpackedFloat.le, h]
  rfl

/-- What is less or equal is not greater. -/
theorem not_lt_of_le {x y : Float} (h : x ≤ y) : ¬y < x := by
  intro hlt
  rw [lt_iff, UnpackedFloat.lt, beq_iff_eq] at hlt
  rw [le_iff, UnpackedFloat.le, ← compare_swap, hlt] at h
  cases h

/-- Of two doubles one at most is the lesser. -/
theorem lt_asymm {x y : Float} (h : x < y) : ¬y < x := not_lt_of_le (le_of_lt h)

/-- The greater of a double and zero is not below zero, whatever the double is. -/
theorem zero_le_maxNum (x : Float) : 0.0 ≤ maxNum x 0.0 := by
  have zero : (0.0 : Float) ≤ 0.0 := by decide +kernel
  unfold maxNum
  split
  · exact zero
  · next hx =>
    split
    · next h => exact absurd h (by decide +kernel)
    · next hz =>
      split
      · exact zero
      · next h => exact le_of_not_lt (by simpa using hz) (by simpa using hx) h

end Double

end MotionGraph
