import MotionGraph.Proofs.Number.Doubles

/-!
# How doubles are rounded

A finite double is a natural number of steps of `2 ^ (-1074)`, the least there is. Rounding brings
such a number to the nearest multiple of the step at which doubles of its size stand
(`Double.rounded`), and of two equally near ones to the even one; that is what core's model of
doubles does (`Double.exists_round`), with its mantissa cut down bit by bit.

Rounding keeps the order of numbers (`Double.rounded_mono`), and numbers whose digits fit it leaves
as they are (`Double.Canonical.rounded_steps`).
-/

namespace MotionGraph

namespace Double

open Float.Model Float.Model.UnpackedFloat

/-! ### The nearest multiple -/

/-- The natural number nearest to `n / d`, and of two the even one. -/
def nearest (n d : Nat) : Nat :=
  if 2 * (n % d) < d then n / d
  else if 2 * (n % d) = d then n / d + n / d % 2
  else n / d + 1

/-- The nearest number is not below the quotient. -/
theorem le_nearest (n d : Nat) : n / d ≤ nearest n d := by
  unfold nearest
  split
  · exact Nat.le_refl _
  · split <;> omega

/-- The nearest number is at most one above the quotient. -/
theorem nearest_le (n d : Nat) : nearest n d ≤ n / d + 1 := by
  unfold nearest
  split
  · omega
  · split <;> omega

/-- Greater numbers have no smaller nearest number. -/
theorem nearest_mono {n n' : Nat} (d : Nat) (h : n ≤ n') : nearest n d ≤ nearest n' d := by
  rcases Nat.lt_or_eq_of_le (Nat.div_le_div_right (c := d) h) with hq | hq
  · exact (nearest_le n d).trans (hq.trans_le (le_nearest n' d))
  · have hr : n % d ≤ n' % d := by
      have hn := Nat.div_add_mod n d
      have hn' := Nat.div_add_mod n' d
      rw [hq] at hn
      omega
    unfold nearest
    rw [hq]
    split <;> split <;> (try split) <;> (try split) <;> omega

/-- A multiple is nearest to itself. -/
theorem nearest_mul_self (m : Nat) {d : Nat} (hd : 0 < d) : nearest (m * d) d = m := by
  rw [nearest, Nat.mul_mod_left, Nat.mul_div_cancel m hd, if_pos hd]

/-- A common factor does not matter. -/
theorem nearest_mul_mul (n d : Nat) {c : Nat} (hc : 0 < c) :
    nearest (n * c) (d * c) = nearest n d := by
  have hlt : 2 * (n % d * c) < d * c ↔ 2 * (n % d) < d := by
    rw [← Nat.mul_assoc]
    exact Nat.mul_lt_mul_right hc
  have heq : 2 * (n % d * c) = d * c ↔ 2 * (n % d) = d := by
    rw [← Nat.mul_assoc]
    exact Nat.mul_left_inj (Nat.ne_of_gt hc)
  simp only [nearest, Nat.mul_mod_mul_right, Nat.mul_div_mul_right n d hc, hlt, heq]

/-! ### Cutting a mantissa down -/

/-- What is left of a mantissa cut down by several bits: the quotient, and whether the rest is at
least half a step, and whether it is neither nothing nor half a step. -/
theorem shiftRight_exact (m k : Nat) :
    ExtendedMantissa.ofMantissaAndAccuracy m .exact >>> k =
      ⟨m / 2 ^ k, decide (2 ^ k ≤ 2 * (m % 2 ^ k)),
        decide (2 * (m % 2 ^ k) ≠ 0 ∧ 2 * (m % 2 ^ k) ≠ 2 ^ k)⟩ := by
  induction k with
  | zero =>
    simp only [Nat.pow_zero, Nat.mod_one, Nat.div_one]
    rfl
  | succ k ih =>
    have hrest : m % 2 ^ (k + 1) = m % 2 ^ k + 2 ^ k * (m / 2 ^ k % 2) := by
      rw [Nat.pow_succ, Nat.mod_mul]
    have hlt : m % 2 ^ k < 2 ^ k := Nat.mod_lt _ (Nat.two_pow_pos k)
    show (ExtendedMantissa.ofMantissaAndAccuracy m .exact >>> k).shiftRightOne = _
    rw [ih, hrest, Nat.pow_succ, ← Nat.div_div_eq_div_mul]
    -- The bit that is cut off next decides on which half the rest lies.
    refine ExtendedMantissa.mk.injEq .. ▸ ⟨rfl, ?_, ?_⟩
    · rw [Bool.eq_iff_iff, bne_iff_ne, decide_eq_true_eq]
      rcases Nat.mod_two_eq_zero_or_one (m / 2 ^ k) with hb | hb <;> rw [hb] <;> omega
    · rw [Bool.eq_iff_iff, Bool.or_eq_true, decide_eq_true_eq, decide_eq_true_eq, decide_eq_true_eq]
      rcases Nat.mod_two_eq_zero_or_one (m / 2 ^ k) with hb | hb <;> rw [hb] <;> omega

/-- A mantissa cut down by several bits is rounded to the nearest. -/
theorem roundedMantissa_shiftRight (m k : Nat) :
    (ExtendedMantissa.ofMantissaAndAccuracy m .exact >>> k).roundedMantissa =
      nearest m (2 ^ k) := by
  have hpos := Nat.two_pow_pos k
  rw [shiftRight_exact, nearest]
  by_cases hr : 2 ^ k ≤ 2 * (m % 2 ^ k)
  · rw [if_neg (by omega), decide_eq_true hr]
    by_cases he : 2 * (m % 2 ^ k) = 2 ^ k
    · rw [if_pos he, decide_eq_false (by omega)]
      rfl
    · rw [if_neg he, decide_eq_true (by omega)]
      rfl
  · rw [if_pos (by omega), decide_eq_false hr]
    by_cases he : 2 * (m % 2 ^ k) = 0
    · rw [decide_eq_false (by omega)]
      rfl
    · rw [decide_eq_true (by omega)]
      rfl

/-! ### Rounding numbers of least steps -/

/-- How many binary digits a number has that do not fit a double. -/
def excess (n : Nat) : Nat := n.log2 - 52

/-- The number that a number is rounded to. -/
def rounded (n : Nat) : Nat := nearest n (2 ^ excess n) * 2 ^ excess n

/-- What is left without the digits that do not fit does fit. -/
theorem div_excess_lt (n : Nat) : n / 2 ^ excess n < 2 ^ 53 := by
  rw [Nat.div_lt_iff_lt_mul (Nat.two_pow_pos _), ← Nat.pow_add]
  refine Nat.lt_log2_self.trans_le (Nat.pow_le_pow_right Nat.two_pos ?_)
  unfold excess
  omega

/-- If digits do not fit, what is left without them is of full width. -/
theorem le_div_excess {n : Nat} (h : excess n ≠ 0) : 2 ^ 52 ≤ n / 2 ^ excess n := by
  have hn : n ≠ 0 := by
    rintro rfl
    exact h (by rw [excess, Nat.log2_zero])
  rw [Nat.le_div_iff_mul_le (Nat.two_pow_pos _), ← Nat.pow_add]
  refine (Nat.pow_le_pow_right Nat.two_pos ?_).trans (Nat.log2_self_le hn)
  unfold excess at h ⊢
  omega

/-- A mantissa that has become one digit longer is of full width at the next exponent. -/
theorem two_pow_mul_two_pow (k : Nat) : 2 ^ 53 * 2 ^ k = 2 ^ 52 * 2 ^ (k + 1) := by
  rw [← Nat.pow_add, ← Nat.pow_add, Nat.add_comm k, ← Nat.add_assoc]

/-- A mantissa of full width stands for at least what any mantissa does at a smaller exponent. -/
theorem mul_two_pow_le {m m' k k' : Nat} (hm : m ≤ 2 ^ 53) (hm' : 2 ^ 52 ≤ m') (hk : k < k') :
    m * 2 ^ k ≤ m' * 2 ^ k' :=
  calc m * 2 ^ k
      ≤ 2 ^ 53 * 2 ^ k := Nat.mul_le_mul_right _ hm
    _ = 2 ^ 52 * 2 ^ (k + 1) := two_pow_mul_two_pow k
    _ ≤ 2 ^ 52 * 2 ^ k' := Nat.mul_le_mul_left _ (Nat.pow_le_pow_right Nat.two_pos hk)
    _ ≤ m' * 2 ^ k' := Nat.mul_le_mul_right _ hm'

/-- **Rounding keeps the order.** -/
theorem rounded_mono {n n' : Nat} (h : n ≤ n') : rounded n ≤ rounded n' := by
  have hle : excess n ≤ excess n' := by
    rw [excess, excess, Nat.log2_eq_log_two, Nat.log2_eq_log_two]
    exact Nat.sub_le_sub_right (Nat.log_mono_right h) 52
  rcases Nat.eq_or_lt_of_le hle with he | hlt
  · rw [rounded, rounded, he]
    exact Nat.mul_le_mul_right _ (nearest_mono _ h)
  · -- The next power of two lies between the results, if not between the numbers.
    have hleft : nearest n (2 ^ excess n) ≤ 2 ^ 53 := (nearest_le n _).trans (div_excess_lt n)
    have hright : 2 ^ 52 ≤ nearest n' (2 ^ excess n') :=
      (le_div_excess (Nat.ne_zero_of_lt hlt)).trans (le_nearest n' _)
    exact mul_two_pow_le hleft hright hlt

/-! ### Finite doubles -/

/-- Whether a mantissa and an exponent are those of a double: the mantissa fits, the exponent is not
below the least, and only above the least must the mantissa be of full width. -/
structure Canonical (m : Nat) (e : Int) : Prop where
  fits : m < 2 ^ 53
  least : -1074 ≤ e
  full : e = -1074 ∨ 2 ^ 52 ≤ m

/-- The number of least steps of a mantissa at an exponent. -/
def steps (m : Nat) (e : Int) : Nat := m * 2 ^ (e + 1074).toNat

/-- The binary digits of a product with a power of two. -/
theorem log2_mul_two_pow {m : Nat} (hm : 0 < m) (k : Nat) : (m * 2 ^ k).log2 = m.log2 + k := by
  have hne : m * 2 ^ k ≠ 0 := Nat.mul_ne_zero (Nat.ne_of_gt hm) (Nat.ne_of_gt (Nat.two_pow_pos k))
  rw [Nat.log2_eq_iff hne, Nat.pow_add, Nat.add_right_comm, Nat.pow_add]
  exact ⟨Nat.mul_le_mul_right _ (Nat.log2_self_le (Nat.ne_of_gt hm)),
    Nat.mul_lt_mul_of_pos_right Nat.lt_log2_self (Nat.two_pow_pos k)⟩

/-- The number of a double is rounded to itself. -/
theorem Canonical.rounded_steps {m : Nat} {e : Int} (h : Canonical m e) :
    rounded (steps m e) = steps m e := by
  have hexcess : excess (steps m e) = (e + 1074).toNat := by
    rcases h.full with he | hm
    · have hzero : (e + 1074).toNat = 0 := by omega
      rw [steps, hzero, Nat.pow_zero, Nat.mul_one, excess]
      rcases Nat.eq_zero_or_pos m with rfl | hpos
      · rw [Nat.log2_zero]
      · have hlog : m.log2 < 53 := (Nat.log2_lt (Nat.ne_of_gt hpos)).2 h.fits
        omega
    · have hpos : 0 < m := Nat.lt_of_lt_of_le (Nat.two_pow_pos 52) hm
      have hlog : m.log2 = 52 := (Nat.log2_eq_iff (Nat.ne_of_gt hpos)).2 ⟨hm, h.fits⟩
      rw [excess, steps, log2_mul_two_pow hpos, hlog, Nat.add_sub_cancel_left]
  rw [rounded, hexcess, steps, nearest_mul_self m (Nat.two_pow_pos _)]

/-! ### Rounding a mantissa -/

/-- Every exponent of a double is the least one and so many more. -/
theorem exists_exponent {e : Int} (h : -1074 ≤ e) : ∃ k : Nat, e = k - 1074 :=
  ⟨(e + 1074).toNat, by omega⟩

/-- A mantissa so many exponents above the least. -/
theorem steps_sub (m k : Nat) : steps m (k - 1074) = m * 2 ^ k := by
  rw [steps, Int.sub_add_cancel, Int.toNat_natCast]

/-- The exponent that core aims at, for a mantissa at an exponent that is not below the least. -/
theorem targetExponent_eq {m : Nat} (hm : 0 < m) (k : Nat) :
    Format.targetExponent .binary64 (totalExponent m (k - 1074)) = excess (m * 2 ^ k) - 1074 := by
  rw [Format.targetExponent, totalExponent, excess, log2_mul_two_pow hm]
  show max ((m.log2 : Int) + 1 + (k - 1074) - 53) (-1074) = _
  omega

/-- Core cuts down a mantissa by the digits that do not fit. -/
theorem shiftToTargetExponent_eq {m : Nat} (hm : 0 < m) (k : Nat) :
    shiftToTargetExponent .binary64 m (k - 1074) .exact =
      (ExtendedMantissa.ofMantissaAndAccuracy m .exact >>> (excess (m * 2 ^ k) - k),
        ((max k (excess (m * 2 ^ k)) : Nat) : Int) - 1074) := by
  have hshift :
      ((excess (m * 2 ^ k) - 1074 : Int) - (k - 1074)).toNat = excess (m * 2 ^ k) - k := by
    omega
  rw [shiftToTargetExponent, targetExponent_eq hm, shiftToExponent, hshift]
  congr 1
  omega

/-- The nearest number of steps that fit is at most the next power of two, and positive. -/
theorem nearest_excess {n : Nat} (hn : 0 < n) :
    0 < nearest n (2 ^ excess n) ∧ nearest n (2 ^ excess n) ≤ 2 ^ 53 ∧
      (excess n = 0 ∨ 2 ^ 52 ≤ nearest n (2 ^ excess n)) := by
  have hle := le_nearest n (2 ^ excess n)
  refine ⟨?_, (nearest_le n _).trans (div_excess_lt n), ?_⟩
  · rcases Nat.eq_zero_or_pos (excess n) with h | h
    · rw [h, Nat.pow_zero, Nat.div_one] at hle
      rw [h, Nat.pow_zero]
      exact hn.trans_le hle
    · exact (Nat.two_pow_pos 52).trans_le ((le_div_excess (Nat.ne_of_gt h)).trans hle)
  · rcases Nat.eq_zero_or_pos (excess n) with h | h
    · exact .inl h
    · exact .inr ((le_div_excess (Nat.ne_of_gt h)).trans hle)

/-- What core makes of a rounded mantissa: if rounding has made it one digit longer, that digit is
dropped. -/
theorem shiftToTargetExponent_nearest {n : Nat} (hn : 0 < n) :
    ∃ m e, Canonical m e ∧ 0 < m ∧ steps m e = rounded n ∧
      ∃ em : ExtendedMantissa, em.mantissa = m ∧
        shiftToTargetExponent .binary64 (nearest n (2 ^ excess n)) (excess n - 1074) .exact =
          (em, e) := by
  obtain ⟨hpos, hle, hfull⟩ := nearest_excess hn
  rw [shiftToTargetExponent_eq hpos, rounded]
  generalize nearest n (2 ^ excess n) = q at hpos hle hfull ⊢
  generalize excess n = u at hfull ⊢
  have hlog : excess (q * 2 ^ u) = q.log2 + u - 52 := by rw [excess, log2_mul_two_pow hpos]
  rcases Nat.lt_or_eq_of_le hle with hlt | rfl
  · have hlog' : q.log2 < 53 := (Nat.log2_lt (Nat.ne_of_gt hpos)).2 hlt
    have hmax : max u (excess (q * 2 ^ u)) = u := by omega
    have hshift : excess (q * 2 ^ u) - u = 0 := by omega
    rw [hmax, hshift]
    exact ⟨q, u - 1074, ⟨hlt, by omega, hfull.imp_left fun h => by omega⟩, hpos,
      steps_sub q u, _, rfl, rfl⟩
  · rw [Nat.log2_two_pow] at hlog
    have hmax : max u (excess (2 ^ 53 * 2 ^ u)) = u + 1 := by omega
    have hshift : excess (2 ^ 53 * 2 ^ u) - u = 1 := by omega
    rw [hmax, hshift]
    refine ⟨2 ^ 52, (u + 1 : Nat) - 1074, ⟨by decide, by omega, .inr (Nat.le_refl _)⟩, by decide,
      ?_, _, rfl, rfl⟩
    rw [steps_sub, ← two_pow_mul_two_pow]

/-- Core first makes a mantissa longer, if there is room. -/
theorem exists_decreaseExponent {m : Nat} (hm : 0 < m) (k u : Nat) :
    ∃ m' l : Nat, 0 < m' ∧ l ≤ u ∧ m' * 2 ^ l = m * 2 ^ k ∧
      decreaseExponent m (k - 1074) (u - 1074) = (m', (l : Int) - 1074) := by
  refine ⟨m <<< (k - u), min k u, ?_, Nat.min_le_right k u, ?_, ?_⟩
  · rw [Nat.shiftLeft_eq]
    exact Nat.mul_pos hm (Nat.two_pow_pos _)
  · rw [Nat.shiftLeft_eq, Nat.mul_assoc, ← Nat.pow_add]
    congr 2
    omega
  · have hshift : ((k - 1074 : Int) - (u - 1074)).toNat = k - u := by omega
    rw [decreaseExponent, hshift]
    congr 1
    omega

/-- **Core rounds to the nearest double**: the result has the mantissa and the exponent of a double,
as far as the exponent is not too large, and stands for the rounded number. -/
theorem exists_round (s : Sign) {m : Nat} (hm : 0 < m) {e : Int} (he : -1074 ≤ e) :
    ∃ m' e' hm', UnpackedFloat.round .binary64 s m e = .finite s m' e' hm' ∧ Canonical m' e' ∧
      steps m' e' = rounded (steps m e) := by
  obtain ⟨k, rfl⟩ := exists_exponent he
  rw [steps_sub]
  have hn : 0 < m * 2 ^ k := Nat.mul_pos hm (Nat.two_pow_pos k)
  obtain ⟨m₁, l, hm₁, hl, heq, hdecrease⟩ := exists_decreaseExponent hm k (excess (m * 2 ^ k))
  have hround : nearest m₁ (2 ^ (excess (m * 2 ^ k) - l)) =
      nearest (m * 2 ^ k) (2 ^ excess (m * 2 ^ k)) := by
    have hpow : 2 ^ excess (m * 2 ^ k) = 2 ^ (excess (m * 2 ^ k) - l) * 2 ^ l := by
      rw [← Nat.pow_add, Nat.sub_add_cancel hl]
    conv_rhs => rw [hpow, ← heq, nearest_mul_mul _ _ (Nat.two_pow_pos l), heq]
  obtain ⟨m', e', hcanonical, hm', hsteps, em, rfl, hdrop⟩ := shiftToTargetExponent_nearest hn
  refine ⟨em.mantissa, e', hm', ?_, hcanonical, hsteps⟩
  rw [UnpackedFloat.round, targetExponent_eq hm, hdecrease]
  dsimp only
  rw [roundWithAccuracy, shiftToTargetExponent_eq hm₁, heq, Nat.max_eq_right hl]
  dsimp only
  rw [roundedMantissa_shiftRight, hround, hdrop]
  exact dif_neg (Nat.ne_of_gt hm')

end Double

end MotionGraph
