import MotionGraph.Proofs.Node.Matches
import MotionGraph.Proofs.Number.Amounts

/-!
# Opposite doubles

Two doubles are opposite (`Double.Opposite`) if one is the other with its sign turned, where the
signs of zeros do not count: a sum that cancels is the zero from above, whichever of its terms is
the negative one. The undefined double is its own opposite.

What is computed from opposite doubles by adding, subtracting, turning signs, and multiplying or
dividing by the same doubles, is opposite again, since rounding does not look at the sign. Opposite
doubles have one magnitude (`Double.Opposite.abs`) and compare the other way round
(`Double.Opposite.lt_iff`), and either is equal to the other one negated, as a number
(`Double.Opposite.matches_neg`).
-/

namespace MotionGraph

namespace Double

open Float.Model Float.Model.UnpackedFloat

/-! ### Unpacked numbers -/

/-- Whether unpacked numbers have one magnitude and opposite signs, if they are not zeros. -/
inductive Opposed : UnpackedFloat → UnpackedFloat → Prop where
  | undefined : Opposed .notANumber .notANumber
  | infinity (s : Sign) : Opposed (.infinity s) (.infinity (-s))
  | zero (s s' : Sign) : Opposed (.zero s) (.zero s')
  | finite (s : Sign) (m : Nat) (e : Int) (hm : 0 < m) :
    Opposed (.finite s m e hm) (.finite (-s) m e hm)

/-- The other sign turns an integer. -/
theorem apply_neg (s : Sign) (k : Int) : (-s).apply k = -s.apply k := by
  cases s with
  | positive => rfl
  | negative => exact (Int.neg_neg k).symm

/-- Subtracting is adding with the sign turned. -/
theorem unpacked_sub_eq_add_neg (a b : UnpackedFloat) :
    UnpackedFloat.sub .binary64 a b = UnpackedFloat.add .binary64 a b.neg := by
  cases a with
  | finite s m e hm =>
    cases b with
    | finite t m' e' hm' =>
      simp only [UnpackedFloat.sub, UnpackedFloat.add, UnpackedFloat.neg, apply_neg,
        Int.sub_eq_add_neg]
    | _ => rfl
  | _ => cases b <;> rfl

/-- Unpacked products do not depend on the order of the factors. -/
theorem unpacked_mul_comm (a b : UnpackedFloat) :
    UnpackedFloat.mul .binary64 a b = UnpackedFloat.mul .binary64 b a := by
  have signs (s t : Sign) : s * t = t * s := by cases s <;> cases t <;> rfl
  cases a <;> cases b <;> simp only [UnpackedFloat.mul, signs, Nat.mul_comm, Int.add_comm]

/-- What is rounded with the other sign is opposed. -/
theorem opposed_roundWithAccuracy (s : Sign) (m : Nat) (e : Int) (a : Accuracy) :
    Opposed (UnpackedFloat.roundWithAccuracy .binary64 s m e a)
      (UnpackedFloat.roundWithAccuracy .binary64 (-s) m e a) := by
  unfold UnpackedFloat.roundWithAccuracy
  dsimp only
  split
  · exact .zero s (-s)
  · exact .finite s _ _ _

/-- What is packed with the other sign is opposed. -/
theorem opposed_unpack_packComponents (s : Sign) (f : BitVec 11) (v : BitVec 52) :
    Opposed (UnpackedFloat.unpack .binary64 (packComponents .binary64 s f v))
      (UnpackedFloat.unpack .binary64 (packComponents .binary64 (-s) f v)) := by
  rw [unpack_packComponents, unpack_packComponents]
  split
  · split
    · exact .infinity s
    · exact .undefined
  · split
    · split
      · exact .zero s (-s)
      · exact .finite s _ _ _
    · exact .finite s _ _ _

namespace Opposed

variable {a a' b b' : UnpackedFloat}

/-- Turning the sign opposes. -/
theorem of_neg (a : UnpackedFloat) : Opposed a a.neg := by
  cases a with
  | notANumber => exact .undefined
  | infinity s => exact .infinity s
  | zero s => exact .zero s (-s)
  | finite s m e hm => exact .finite s m e hm

/-- Turning both signs keeps opposed numbers opposed. -/
theorem neg (h : Opposed a a') : Opposed a.neg a'.neg := by
  cases h with
  | undefined => exact .undefined
  | infinity s => exact .infinity (-s)
  | zero s s' => exact .zero (-s) (-s')
  | finite s m e hm => exact .finite (-s) m e hm

/-- Packing and unpacking keeps opposed numbers opposed. -/
theorem packed (h : Opposed a a') :
    Opposed (UnpackedFloat.unpack .binary64 (UnpackedFloat.pack .binary64 a))
      (UnpackedFloat.unpack .binary64 (UnpackedFloat.pack .binary64 a')) := by
  have hzero (s : Sign) :
      UnpackedFloat.unpack .binary64 (UnpackedFloat.pack .binary64 (.zero s)) = .zero s := by
    cases s <;> with_unfolding_all rfl
  cases h with
  | undefined =>
    have hnan : UnpackedFloat.unpack .binary64 (UnpackedFloat.pack .binary64 .notANumber) =
        .notANumber := by
      with_unfolding_all rfl
    rw [hnan]
    exact .undefined
  | infinity s => exact opposed_unpack_packComponents s _ _
  | zero s s' =>
    rw [hzero, hzero]
    exact .zero s s'
  | finite s m e hm =>
    -- Which field a mantissa and an exponent are packed into does not hang on the sign.
    unfold UnpackedFloat.pack
    dsimp only
    split
    · exact opposed_unpack_packComponents s _ _
    · split <;> exact opposed_unpack_packComponents s _ _

/-- A sum of integers and the sum turned are rounded to opposed numbers. -/
theorem normalize (k : Int) (e : Int) :
    Opposed (UnpackedFloat.normalize .binary64 k e .positive)
      (UnpackedFloat.normalize .binary64 (-k) e .positive) := by
  unfold UnpackedFloat.normalize
  rcases Int.lt_trichotomy k 0 with hk | rfl | hk
  · rw [Int.compare_eq_lt.2 hk, Int.compare_eq_gt.2 (Int.neg_pos_of_neg hk)]
    exact opposed_roundWithAccuracy .negative _ _ _
  · exact .zero .positive .positive
  · rw [Int.compare_eq_gt.2 hk, Int.compare_eq_lt.2 (Int.neg_neg_of_pos hk), Int.neg_neg]
    exact opposed_roundWithAccuracy .positive _ _ _

/-- Sums of opposed numbers are opposed. -/
theorem add (h : Opposed a a') (h' : Opposed b b') :
    Opposed (UnpackedFloat.add .binary64 a b) (UnpackedFloat.add .binary64 a' b') := by
  cases h with
  | undefined => exact .undefined
  | infinity s =>
    cases h' with
    | undefined => exact .undefined
    | infinity s' =>
      cases s <;> cases s' <;> constructor
    | zero t t' => exact .infinity s
    | finite t m e hm => exact .infinity s
  | zero s s' =>
    cases h' with
    | undefined => exact .undefined
    | infinity t => exact .infinity t
    | zero t t' => cases s <;> cases s' <;> cases t <;> cases t' <;> constructor
    | finite t m e hm => exact .finite t m e hm
  | finite s m e hm =>
    cases h' with
    | undefined => exact .undefined
    | infinity t => exact .infinity t
    | zero t t' => exact .finite s m e hm
    | finite t m' e' hm' =>
      -- The sum of the turned integers is the sum turned.
      simp only [UnpackedFloat.add, apply_neg, ← Int.neg_add]
      exact normalize _ _

/-- Differences of opposed numbers are opposed. -/
theorem sub (h : Opposed a a') (h' : Opposed b b') :
    Opposed (UnpackedFloat.sub .binary64 a b) (UnpackedFloat.sub .binary64 a' b') := by
  rw [unpacked_sub_eq_add_neg, unpacked_sub_eq_add_neg]
  exact h.add h'.neg

/-- Multiples of opposed numbers are opposed. -/
theorem mul_left (c : UnpackedFloat) (h : Opposed a a') :
    Opposed (UnpackedFloat.mul .binary64 c a) (UnpackedFloat.mul .binary64 c a') := by
  have turn (s t : Sign) : s * -t = -(s * t) := by cases s <;> cases t <;> rfl
  cases h with
  | undefined => cases c <;> exact .undefined
  | infinity t =>
    cases c with
    | notANumber => exact .undefined
    | zero s => exact .undefined
    | infinity s | finite s m e hm =>
      simp only [UnpackedFloat.mul, turn]
      exact .infinity (s * t)
  | zero t t' =>
    cases c with
    | notANumber => exact .undefined
    | infinity s => exact .undefined
    | zero s | finite s m e hm => exact .zero (s * t) (s * t')
  | finite t m' e' hm' =>
    cases c with
    | notANumber => exact .undefined
    | infinity s =>
      simp only [UnpackedFloat.mul, turn]
      exact .infinity (s * t)
    | zero s => exact .zero (s * t) (s * -t)
    | finite s m e hm =>
      simp only [UnpackedFloat.mul, turn]
      exact opposed_roundWithAccuracy (s * t) _ _ _

/-- Quotients of opposed numbers are opposed. -/
theorem div_right (c : UnpackedFloat) (h : Opposed a a') :
    Opposed (UnpackedFloat.div .binary64 a c) (UnpackedFloat.div .binary64 a' c) := by
  have turn (s t : Sign) : -s / t = -(s / t) := by cases s <;> cases t <;> rfl
  cases h with
  | undefined => exact .undefined
  | infinity s =>
    cases c with
    | notANumber => exact .undefined
    | infinity t => exact .undefined
    | zero t | finite t m e hm =>
      simp only [UnpackedFloat.div, turn]
      exact .infinity (s / t)
  | zero s s' =>
    cases c with
    | notANumber => exact .undefined
    | zero t => exact .undefined
    | infinity t | finite t m e hm => exact .zero (s / t) (s' / t)
  | finite s m e hm =>
    cases c with
    | notANumber => exact .undefined
    | infinity t => exact .zero (s / t) (-s / t)
    | zero t =>
      simp only [UnpackedFloat.div, turn]
      exact .infinity (s / t)
    | finite t m' e' hm' =>
      simp only [UnpackedFloat.div, turn]
      exact opposed_roundWithAccuracy (s / t) _ _ _

/-- Opposed numbers have one magnitude. -/
theorem abs (h : Opposed a a') : a.abs = a'.abs := by
  cases h <;> rfl

/-- Opposed numbers are finite together. -/
theorem isFinite (h : Opposed a a') : a.isFinite = a'.isFinite := by
  cases h <;> rfl

/-- Opposed numbers compare the other way round. -/
theorem compare (h : Opposed a a') (h' : Opposed b b') : a.compare b = b'.compare a' := by
  cases h with
  | undefined => cases h' <;> rfl
  | infinity s =>
    cases h' with
    | infinity t => cases s <;> cases t <;> rfl
    | _ => cases s <;> rfl
  | zero s s' =>
    cases h' with
    | infinity t => cases t <;> rfl
    | finite t m e hm => cases t <;> rfl
    | _ => rfl
  | finite s m e hm =>
    cases h' with
    | undefined => cases s <;> rfl
    | infinity t => cases s <;> cases t <;> rfl
    | zero t t' => cases s <;> rfl
    | finite t m' e' hm' =>
      cases s <;> cases t <;>
        simp [UnpackedFloat.compare, Ordering.swap_then, Int.compare_swap, Nat.compare_swap]

/-- Two numbers opposed to a third one are the same but for the sign of a zero. -/
theorem eq_or_zeros (h : Opposed a b) (h' : Opposed a b') :
    b = b' ∨ ∃ s s', b = .zero s ∧ b' = .zero s' := by
  cases h with
  | zero s t =>
    cases h' with
    | zero _ t' => exact .inr ⟨t, t', rfl, rfl⟩
  | _ =>
    cases h'
    exact .inl rfl

end Opposed

/-! ### Doubles -/

/-- Whether doubles have one magnitude and opposite signs, if they are not zeros. -/
def Opposite (x y : Float) : Prop := Opposed x.toModel.unpack y.toModel.unpack

namespace Opposite

variable {x x' y y' : Float}

/-- A double and the negated one are opposite. -/
theorem of_neg (x : Float) : Opposite x (-x) := by
  have bits : UnpackedFloat.pack .binary64 x.toModel.unpack = x.toModel.toBits.toBitVec :=
    pack_unpack_of_valid x.toModel.valid
  have h := (Opposed.of_neg x.toModel.unpack).packed
  rw [bits] at h
  exact h

/-- Negated opposite doubles are opposite. -/
theorem neg (h : Opposite x x') : Opposite (-x) (-x') := (Opposed.neg h).packed

/-- Sums of opposite doubles are opposite. -/
theorem add (h : Opposite x x') (h' : Opposite y y') : Opposite (x + y) (x' + y') :=
  (Opposed.add h h').packed

/-- Differences of opposite doubles are opposite. -/
theorem sub (h : Opposite x x') (h' : Opposite y y') : Opposite (x - y) (x' - y') :=
  (Opposed.sub h h').packed

/-- Multiples of opposite doubles are opposite. -/
theorem mul_left (c : Float) (h : Opposite x x') : Opposite (c * x) (c * x') :=
  (Opposed.mul_left c.toModel.unpack h).packed

/-- So are they with the factor on the right. -/
theorem mul_right (c : Float) (h : Opposite x x') : Opposite (x * c) (x' * c) := by
  have swap (z : Float) : z * c = c * z := by
    show Float.ofModel (.pack (UnpackedFloat.mul .binary64 z.toModel.unpack c.toModel.unpack)) =
      Float.ofModel (.pack (UnpackedFloat.mul .binary64 c.toModel.unpack z.toModel.unpack))
    rw [unpacked_mul_comm]
  rw [swap x, swap x']
  exact h.mul_left c

/-- Quotients of opposite doubles are opposite. -/
theorem div_right (c : Float) (h : Opposite x x') : Opposite (x / c) (x' / c) :=
  (Opposed.div_right c.toModel.unpack h).packed

/-- Opposite doubles have one magnitude. -/
theorem abs (h : Opposite x x') : x.abs = x'.abs := by
  show Float.ofModel (.pack x.toModel.unpack.abs) = Float.ofModel (.pack x'.toModel.unpack.abs)
  rw [Opposed.abs h]

/-- Opposite doubles are finite together. -/
theorem isFinite (h : Opposite x x') : x.isFinite = x'.isFinite := Opposed.isFinite h

/-- Opposite doubles compare the other way round. -/
theorem lt_iff (h : Opposite x x') (h' : Opposite y y') : x < y ↔ y' < x' := by
  rw [Double.lt_iff, Double.lt_iff, UnpackedFloat.lt, UnpackedFloat.lt, Opposed.compare h h']

/-- **Of opposite doubles either is the other one negated, as a number.** -/
theorem matches_neg (h : Opposite x y) : Matches y (-x) := by
  rcases Opposed.eq_or_zeros h (of_neg x) with same | ⟨s, s', hy, hx⟩
  · rw [eq_of_unpack_eq same]
    exact Matches.refl (-x)
  · left
    show y.toModel.unpack.beq (-x).toModel.unpack = true
    rw [hy, hx]
    rfl

end Opposite

end Double

end MotionGraph
