import MotionGraph.Proofs.Number.Amounts

/-!
# Nearest natural numbers

A finite double has a value, a fraction (`Binary64.value`), and the natural number nearest to the
double is that value rounded, halves going up (`Double.nearestNat?_eq`); what is below zero counts
as zero. Only infinity has no nearest natural number among the doubles from zero up
(`Double.nearestNat?_eq_none`). Dividing does not lead below zero (`Double.zero_le_div`).
-/

namespace MotionGraph

/-- The value of a finite double. -/
def Binary64.value (b : Binary64) : ℚ :=
  (if b.negative then -1 else 1) * (b.mantissa * 2 ^ b.exponent)

namespace Double

open Float.Model Float.Model.UnpackedFloat

/-! ### Doubles that have a value -/

/-- The doubles that have parts are the finite ones. -/
theorem isFinite_iff_isSome_ofFloat? {x : Float} :
    x.isFinite = true ↔ (Binary64.ofFloat? x).isSome = true := by
  have hfield : (@unpackExponent .binary64 x.toModel.toBits.toBitVec).toNat =
      x.toBits.toNat / 2 ^ 52 % 2 ^ 11 := by
    show (x.toBits.toNat >>> 52) % 2 ^ 11 = _
    rw [Nat.shiftRight_eq_div_pow]
  have hparts : (Binary64.ofFloat? x).isSome = true ↔ x.toBits.toNat / 2 ^ 52 % 2 ^ 11 ≠ 2047 := by
    rw [Binary64.ofFloat?]
    split
    · next htop => exact iff_of_false Bool.false_ne_true fun hne => hne htop
    · next htop => split <;> exact iff_of_true rfl htop
  have hfinite : x.isFinite = true ↔
      @unpackExponent .binary64 x.toModel.toBits.toBitVec ≠ -1#11 := by
    show (UnpackedFloat.unpack .binary64 x.toModel.toBits.toBitVec).isFinite = true ↔ _
    generalize x.toModel.toBits.toBitVec = bits
    conv_lhs => rw [← @packComponents_unpackSign_unpackExponent_unpackMantissa .binary64 bits]
    rw [unpack_packComponents]
    split
    · next htop => split <;> exact iff_of_false Bool.false_ne_true fun hne => hne htop
    · next htop =>
      refine iff_of_true ?_ htop
      split
      · split <;> rfl
      · rfl
  have htop : @unpackExponent .binary64 x.toModel.toBits.toBitVec = -1#11 ↔
      x.toBits.toNat / 2 ^ 52 % 2 ^ 11 = 2047 := by
    rw [← hfield]
    exact ⟨fun h => h ▸ rfl, fun h => BitVec.eq_of_toNat_eq h⟩
  rw [hfinite, hparts, ne_eq, htop]

/-- The doubles that have no parts. -/
theorem eq_of_ofFloat?_eq_none {x : Float} (h : Binary64.ofFloat? x = none) :
    x = nan ∨ x = infinity ∨ x = -infinity := by
  have hfinite : x.toModel.unpack.isFinite ≠ true := fun hf => by
    have hsome := isFinite_iff_isSome_ofFloat?.1 hf
    rw [h] at hsome
    cases hsome
  cases hu : x.toModel.unpack with
  | notANumber =>
    have hn : x.toModel.unpack.isNaN = true := by rw [hu]; rfl
    exact .inl (eq_nan hn)
  | infinity s =>
    cases s with
    | positive => exact .inr (.inl (eq_of_unpack_eq (hu.trans (by with_unfolding_all rfl))))
    | negative => exact .inr (.inr (eq_of_unpack_eq (hu.trans (by with_unfolding_all rfl))))
  | zero s => exact absurd (hu ▸ rfl) hfinite
  | finite s m e hm => exact absurd (hu ▸ rfl) hfinite

/-! ### Rounding a value -/

/-- Halves of natural numbers and more are rounded up. -/
theorem round_natCast_div (m d : Nat) (hd : 0 < d) :
    round ((m : ℚ) / d) = ((2 * m + d) / (2 * d) : Nat) := by
  have half : (m : ℚ) / d + 1 / 2 = ((2 * m + d : Nat) : ℤ) / (2 * d : Nat) := by
    push_cast
    field_simp
  rw [round_eq, half, Rat.floor_intCast_div_natCast]
  rfl

/-- **The nearest natural number is the value rounded**, or zero below zero. -/
theorem nearestNat?_eq {x : Float} {b : Binary64} (h : Binary64.ofFloat? x = some b) :
    nearestNat? x = some (round b.value).toNat := by
  obtain ⟨negative, m, e⟩ := b
  simp only [nearestNat?, h]
  cases negative with
  | true =>
    have below : Binary64.value ⟨true, m, e⟩ ≤ 0 := by
      have magnitude : (0 : ℚ) ≤ m * 2 ^ e := by positivity
      simpa [Binary64.value] using magnitude
    have rounded : round (Binary64.value ⟨true, m, e⟩) < 1 := by
      rw [round_eq, Int.floor_lt]
      push_cast
      linarith
    simp [Int.toNat_of_nonpos (Int.lt_add_one_iff.1 rounded)]
  | false =>
    rw [if_neg Bool.false_ne_true]
    by_cases he : 0 ≤ e
    · obtain ⟨n, rfl⟩ := Int.eq_ofNat_of_zero_le he
      have value : Binary64.value ⟨false, m, n⟩ = ((m * 2 ^ n : Nat) : ℚ) := by
        simp [Binary64.value]
      rw [if_pos he, value, round_natCast, Int.toNat_natCast, Int.toNat_natCast]
      rfl
    · obtain ⟨n, hn⟩ := Int.eq_ofNat_of_zero_le (show 0 ≤ -e by omega)
      obtain rfl : e = -n := by omega
      have value : Binary64.value ⟨false, m, -n⟩ = (m : ℚ) / (2 ^ n : Nat) := by
        simp [Binary64.value, div_eq_mul_inv]
      rw [if_neg he, value, round_natCast_div _ _ (Nat.two_pow_pos n), Int.toNat_natCast, neg_neg,
        Int.toNat_natCast]
      rfl

/-- Infinity has no nearest natural number. -/
theorem nearestNat?_eq_none {x : Float} (h : Binary64.ofFloat? x = none) (hx : 0.0 ≤ x) :
    nearestNat? x = none := by
  rcases eq_of_ofFloat?_eq_none h with rfl | rfl | rfl
  · exact absurd hx (by decide +kernel)
  · decide +kernel
  · exact absurd hx (by decide +kernel)

/-! ### Quotients -/

/-- What is packed from parts without a sign is not below zero, if it is a number. -/
theorem isAmount_unpack_packComponents {f : BitVec 11} {v : BitVec 52} (h : f ≠ -1#11 ∨ v = 0#52) :
    IsAmount (UnpackedFloat.unpack .binary64 (packComponents .binary64 .positive f v)) := by
  rw [unpack_packComponents]
  split
  · next hf =>
    rw [if_pos (h.resolve_left fun hn => hn hf)]
    rfl
  · split
    · split
      · trivial
      · rfl
    · rfl

/-- What is not below zero is packed and unpacked to such a number. -/
theorem isAmount_unpack_pack {u : UnpackedFloat} (h : IsAmount u) :
    IsAmount (UnpackedFloat.unpack .binary64 (UnpackedFloat.pack .binary64 u)) := by
  rcases h.cases with ⟨m, e, hm, rfl⟩ | rfl | ⟨s, rfl⟩
  · obtain ⟨f, v, hp, h⟩ := exists_packComponents .positive m e hm
    rw [hp]
    exact isAmount_unpack_packComponents h
  · exact isAmount_unpack_packComponents (.inr rfl)
  · have same :
        UnpackedFloat.unpack .binary64 (UnpackedFloat.pack .binary64 (.zero s)) = .zero s := by
      cases s <;> with_unfolding_all rfl
    rw [same]
    trivial

/-- A quotient of finite numbers that are not below zero is rounded to such a number. -/
theorem isAmount_roundWithAccuracy (m : Nat) (e : Int) (a : Accuracy) :
    IsAmount (UnpackedFloat.roundWithAccuracy .binary64 .positive m e a) := by
  unfold UnpackedFloat.roundWithAccuracy
  dsimp only
  split
  · trivial
  · rfl

/-- **Dividing by a number above zero does not lead below zero.** -/
theorem zero_le_div {x y : Float} (hx : 0.0 ≤ x) (hy : 0.0 < y) (hf : y.isFinite = true) :
    0.0 ≤ x / y := by
  have hfinite : y.toModel.unpack.isFinite = true := hf
  rw [zero_le_iff]
  refine isAmount_unpack_pack
    (u := UnpackedFloat.div .binary64 x.toModel.unpack y.toModel.unpack) ?_
  obtain ⟨m, e, hm, hv⟩ : ∃ m e hm, y.toModel.unpack = .finite .positive m e hm := by
    rcases (zero_le_iff.1 (le_of_lt hy)).cases with hv | hv | ⟨s, hv⟩
    · exact hv
    · rw [hv] at hfinite
      cases hfinite
    · rw [lt_iff, unpack_zero, hv] at hy
      cases hy
  rw [hv]
  rcases (zero_le_iff.1 hx).cases with ⟨m', e', hm', hu⟩ | hu | ⟨s, hu⟩ <;> rw [hu]
  · exact isAmount_roundWithAccuracy _ _ _
  · rfl
  · trivial

end Double

end MotionGraph
