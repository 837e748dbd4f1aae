import MotionGraph.Proofs.Number.Rounding

/-!
# Doubles from zero up

A double that is not below zero is so many least steps (`Double.size`); infinity is as many as the
least power of two that is too large. Such doubles compare as their sizes do (`Double.le_iff_size`),
and the size of a sum is the sum of the sizes, rounded (`Double.size_add`). So adding what is not
below zero leads to nothing smaller (`Double.le_add`), and adding more to nothing smaller than
adding less (`Double.add_le_add_left`), whatever is lost in rounding.
-/

namespace MotionGraph

namespace Double

open Float.Model Float.Model.UnpackedFloat

/-! ### What is packed and unpacked -/

/-- The mantissa of a normal double, with the digit that is not packed. -/
theorem toNat_append_mantissa (v : BitVec 52) : (1#1 ++ v).toNat = 2 ^ 52 + v.toNat := by
  have hor := Nat.two_pow_add_eq_or_of_lt v.isLt 1
  rw [Nat.mul_one] at hor
  rw [BitVec.toNat_append, hor]
  rfl

/-- Parts packed and unpacked. -/
theorem unpack_packComponents (s : Sign) (f : BitVec 11) (v : BitVec 52) :
    UnpackedFloat.unpack .binary64 (packComponents .binary64 s f v) =
      if f = -1#11 then if v = 0#52 then .infinity s else .notANumber
      else if f = 0#11 then
        if h : v = 0#52 then .zero s
        else .finite s v.toNat (f.toNat - 1074)
          (Nat.pos_of_ne_zero fun hv => h (BitVec.eq_of_toNat_eq hv))
      else .finite s (2 ^ 52 + v.toNat) (f.toNat - 1075) (by omega) := by
  unfold UnpackedFloat.unpack
  simp only [unpackExponent_packComponents, unpackMantissa_packComponents,
    unpackSign_packComponents, Sign.ofBitVec_toBitVec, toNat_append_mantissa]
  have hbias : (Format.exponentBias .binary64 : Int) = 1023 := rfl
  simp only [hbias]
  split
  · rfl
  · split
    · split
      · rfl
      · congr 1
        omega
    · congr 1

/-- A finite double has the mantissa and the exponent of one. -/
theorem canonical_of_unpack_eq {x : Float} {s : Sign} {m : Nat} {e : Int} {hm : 0 < m}
    (h : x.toModel.unpack = .finite s m e hm) : Canonical m e ∧ e ≤ 971 := by
  have h : UnpackedFloat.unpack .binary64 x.toModel.toBits.toBitVec = .finite s m e hm := h
  generalize x.toModel.toBits.toBitVec = b at h
  rw [← @packComponents_unpackSign_unpackExponent_unpackMantissa .binary64 b,
    unpack_packComponents] at h
  generalize @unpackExponent .binary64 b = f at h
  generalize @unpackMantissa .binary64 b = v at h
  have hf : f.toNat < 2 ^ 11 := f.isLt
  have hv : v.toNat < 2 ^ 52 := v.isLt
  split at h
  · split at h <;> cases h
  · next htop =>
    have htop : f.toNat ≠ 2047 := fun hn => htop (BitVec.eq_of_toNat_eq hn)
    split at h
    · next hzero =>
      subst hzero
      split at h
      · cases h
      · cases h
        exact ⟨⟨hv.trans (by decide), by decide, .inl (by decide)⟩, by decide⟩
    · next hzero =>
      have hzero : f.toNat ≠ 0 := fun hn => hzero (BitVec.eq_of_toNat_eq hn)
      cases h
      exact ⟨⟨by omega, by omega, .inr (by omega)⟩, by omega⟩

/-- A mantissa of full width, packed without its first digit. -/
theorem unpack_normal (s : Sign) {m k : Nat} (hfull : 2 ^ 52 ≤ m) (hfits : m < 2 ^ 53)
    (hk : k < 2046) :
    UnpackedFloat.unpack .binary64
        (packComponents .binary64 s (BitVec.ofNat 11 (k + 1)) (BitVec.ofNat 52 m)) =
      .finite s m (k - 1074) (by omega) := by
  have hexponent : (BitVec.ofNat 11 (k + 1)).toNat = k + 1 := by
    rw [BitVec.toNat_ofNat]
    exact Nat.mod_eq_of_lt (by omega)
  have hmantissa : 2 ^ 52 + (BitVec.ofNat 52 m).toNat = m := by
    rw [BitVec.toNat_ofNat]
    omega
  have hne (f : BitVec 11) (hf : f.toNat ≠ k + 1) : BitVec.ofNat 11 (k + 1) ≠ f := by
    rintro rfl
    exact hf hexponent
  rw [unpack_packComponents, if_neg (hne _ (by simp; omega)), if_neg (hne _ (by simp))]
  simp only [hexponent, hmantissa]
  congr 1
  omega

/-- A mantissa that is not of full width, packed as it is. -/
theorem unpack_subnormal (s : Sign) {m : Nat} (hm : 0 < m) (hlt : m < 2 ^ 52) :
    UnpackedFloat.unpack .binary64 (packComponents .binary64 s 0#11 (BitVec.ofNat 52 m)) =
      .finite s m (-1074) hm := by
  have hmantissa : (BitVec.ofNat 52 m).toNat = m := by
    rw [BitVec.toNat_ofNat]
    exact Nat.mod_eq_of_lt hlt
  have hne : BitVec.ofNat 52 m ≠ 0#52 := by
    intro hv
    rw [hv] at hmantissa
    exact Nat.ne_of_gt hm hmantissa.symm
  rw [unpack_packComponents, if_neg (by decide), if_pos rfl, dif_neg hne]
  simp only [hmantissa]
  rfl

/-- What is packed is unpacked again, unless its exponent is too large. -/
theorem unpack_pack_of_canonical (s : Sign) {m : Nat} {e : Int} (hm : 0 < m) (h : Canonical m e) :
    UnpackedFloat.unpack .binary64 (UnpackedFloat.pack .binary64 (.finite s m e hm)) =
      if e ≤ 971 then .finite s m e hm else .infinity s := by
  obtain ⟨k, rfl⟩ := exists_exponent h.least
  have hfull := h.full
  unfold UnpackedFloat.pack
  have hbiased : ((k - 1074 : Int) + Format.exponentBias .binary64 + (52 : Nat)).toNat = k + 1 := by
    have hbias : (Format.exponentBias .binary64 : Int) = 1023 := rfl
    omega
  have hbits : Format.mantissaBits .binary64 = 53 := rfl
  simp only [hbiased, hbits]
  by_cases htop : 2 ^ 11 ≤ k + 1 + 1
  · rw [if_pos htop, if_neg (by omega), packedInfinity]
    exact unpack_packComponents s _ _
  · rw [if_neg htop]
    by_cases hnormal : 2 ^ 52 ≤ m
    · have hlog : m.log2 = 52 := (Nat.log2_eq_iff (Nat.ne_of_gt hm)).2 ⟨hnormal, h.fits⟩
      rw [if_pos (by omega), if_pos (by omega)]
      exact unpack_normal s hnormal h.fits (by omega)
    · have hlt : m < 2 ^ 52 := Nat.lt_of_not_le hnormal
      have hlog : m.log2 < 52 := (Nat.log2_lt (Nat.ne_of_gt hm)).2 hlt
      obtain rfl : k = 0 := by omega
      rw [if_neg (by omega), if_pos (by omega)]
      exact unpack_subnormal s hm hlt

/-! ### Sizes -/

/-- The least number of steps that is too large for a double. -/
def overflow : Nat := steps (2 ^ 52) 972

/-- How many least steps an unpacked number is away from zero. -/
def magnitude : UnpackedFloat → Nat
  | .finite _ m e _ => steps m e
  | .infinity _ => overflow
  | .zero _ | .notANumber => 0

/-- How many least steps a double is away from zero. -/
def size (x : Float) : Nat := magnitude x.toModel.unpack

/-- Whether an unpacked number is not below zero. -/
def IsAmount : UnpackedFloat → Prop
  | .finite s _ _ _ | .infinity s => s = .positive
  | .zero _ => True
  | .notANumber => False

/-- What is not below zero is a positive number, infinity, or a zero of either sign. -/
theorem IsAmount.cases {u : UnpackedFloat} (h : IsAmount u) :
    (∃ m e hm, u = .finite .positive m e hm) ∨ u = .infinity .positive ∨ ∃ s, u = .zero s := by
  cases u with
  | finite s m e hm => cases h; exact .inl ⟨m, e, hm, rfl⟩
  | infinity s => cases h; exact .inr (.inl rfl)
  | zero s => exact .inr (.inr ⟨s, rfl⟩)
  | notANumber => cases h

/-- The doubles that are not below zero. -/
theorem zero_le_iff {x : Float} : 0.0 ≤ x ↔ IsAmount x.toModel.unpack := by
  rw [le_iff, unpack_zero]
  cases x.toModel.unpack with
  | finite s m e hm => cases s <;> simp [IsAmount, UnpackedFloat.le, UnpackedFloat.compare]
  | infinity s => cases s <;> simp [IsAmount, UnpackedFloat.le, UnpackedFloat.compare]
  | zero s => simp [IsAmount, UnpackedFloat.le, UnpackedFloat.compare]
  | notANumber => simp [IsAmount, UnpackedFloat.le, UnpackedFloat.compare]

/-- A smaller exponent stands for fewer steps. -/
theorem Canonical.steps_lt {m m' : Nat} {e e' : Int} (h : Canonical m e) (h' : Canonical m' e')
    (he : e < e') : steps m e < steps m' e' := by
  obtain ⟨k, rfl⟩ := exists_exponent h.least
  obtain ⟨k', rfl⟩ := exists_exponent h'.least
  have hfits := h.fits
  have hfull : 2 ^ 52 ≤ m' := h'.full.resolve_left (by omega)
  rw [steps_sub, steps_sub]
  have hstrict : m * 2 ^ k < 2 ^ 53 * 2 ^ k := Nat.mul_lt_mul_of_pos_right hfits (Nat.two_pow_pos k)
  exact hstrict.trans_le (mul_two_pow_le (Nat.le_refl _) hfull (by omega))

/-- At one exponent, a smaller mantissa stands for fewer steps. -/
theorem steps_le_steps_iff {m m' : Nat} {e : Int} : steps m e ≤ steps m' e ↔ m ≤ m' :=
  Nat.mul_le_mul_right_iff (Nat.two_pow_pos _)

/-- A mantissa that is not zero stands for a step at least. -/
theorem steps_pos {m : Nat} (hm : 0 < m) (e : Int) : 0 < steps m e :=
  Nat.mul_pos hm (Nat.two_pow_pos _)

/-- The least number that is too large has the parts of a double but for its exponent. -/
theorem canonical_overflow : Canonical (2 ^ 52) 972 := ⟨by decide, by decide, .inr (Nat.le_refl _)⟩

/-- The numbers of steps that are too large begin at an exponent. -/
theorem Canonical.steps_lt_overflow_iff {m : Nat} {e : Int} (h : Canonical m e) :
    steps m e < overflow ↔ e ≤ 971 := by
  constructor
  · intro hlt
    by_contra he
    rcases Int.lt_or_eq_of_le (Int.not_le.1 he) with he | rfl
    · exact Nat.lt_asymm hlt (canonical_overflow.steps_lt h he)
    · exact Nat.not_le_of_lt hlt (steps_le_steps_iff.2 (h.full.resolve_left (by decide)))
  · intro he
    exact h.steps_lt canonical_overflow (Int.lt_add_one_of_le he)

/-- Finite doubles compare as their numbers of steps do. -/
theorem Canonical.compare_isLE_iff {m m' : Nat} {e e' : Int} (h : Canonical m e)
    (h' : Canonical m' e') :
    ((compare e e').then (compare m m')).isLE = true ↔ steps m e ≤ steps m' e' := by
  rcases Int.lt_trichotomy e e' with he | rfl | he
  · rw [Int.compare_eq_lt.2 he]
    exact iff_of_true rfl (Nat.le_of_lt (h.steps_lt h' he))
  · rw [Int.compare_eq_eq.2 rfl, Ordering.eq_then, Nat.isLE_compare, steps_le_steps_iff]
  · rw [Int.compare_eq_gt.2 he]
    exact iff_of_false Bool.false_ne_true (Nat.not_le_of_lt (h'.steps_lt h he))

/-- **Doubles from zero up compare as their sizes do.** -/
theorem le_iff_size {x y : Float} (hx : 0.0 ≤ x) (hy : 0.0 ≤ y) : x ≤ y ↔ size x ≤ size y := by
  rw [zero_le_iff] at hx hy
  rw [le_iff, size, size]
  have finite_lt {z : Float} {m e s hm} (hz : z.toModel.unpack = .finite s m e hm) :
      Canonical m e ∧ steps m e < overflow :=
    have hc := canonical_of_unpack_eq hz
    ⟨hc.1, hc.1.steps_lt_overflow_iff.2 hc.2⟩
  rcases hx.cases with ⟨m, e, hm, hu⟩ | hu | ⟨s, hu⟩
  · rcases hy.cases with ⟨m', e', hm', hv⟩ | hv | ⟨s', hv⟩ <;> rw [hu, hv]
    · exact (finite_lt hu).1.compare_isLE_iff (finite_lt hv).1
    · exact iff_of_true rfl (Nat.le_of_lt (finite_lt hu).2)
    · exact iff_of_false Bool.false_ne_true (Nat.not_le_of_lt (steps_pos hm e))
  · rcases hy.cases with ⟨m', e', hm', hv⟩ | hv | ⟨s', hv⟩ <;> rw [hu, hv]
    · exact iff_of_false Bool.false_ne_true (Nat.not_le_of_lt (finite_lt hv).2)
    · exact iff_of_true rfl (Nat.le_refl _)
    · exact iff_of_false Bool.false_ne_true (Nat.not_le_of_lt (steps_pos (by decide) _))
  · refine iff_of_true ?_ (hu ▸ Nat.zero_le _)
    rcases hy.cases with ⟨m', e', hm', hv⟩ | hv | ⟨s', hv⟩ <;> rw [hu, hv] <;> rfl

/-! ### Sums -/

/-- The size of the double nearest to a number of steps. -/
def nearestSize (n : Nat) : Nat := min (rounded n) overflow

/-- Greater numbers have no smaller nearest double. -/
theorem nearestSize_mono {n n' : Nat} (h : n ≤ n') : nearestSize n ≤ nearestSize n' :=
  min_le_min_right _ (rounded_mono h)

/-- Nothing is nearest to itself. -/
theorem nearestSize_zero : nearestSize 0 = 0 := Nat.min_eq_left (Nat.zero_le _)

/-- What is too large becomes infinite. -/
theorem nearestSize_of_overflow_le {n : Nat} (h : overflow ≤ n) : nearestSize n = overflow := by
  have hself : rounded overflow = overflow := canonical_overflow.rounded_steps
  exact Nat.min_eq_right (hself ▸ rounded_mono h)

/-- A double is nearest to itself. -/
theorem nearestSize_size (x : Float) : nearestSize (size x) = size x := by
  unfold size
  cases hu : x.toModel.unpack with
  | finite s m e hm =>
    obtain ⟨hc, he⟩ := canonical_of_unpack_eq hu
    rw [magnitude, nearestSize, hc.rounded_steps]
    exact Nat.min_eq_left (Nat.le_of_lt (hc.steps_lt_overflow_iff.2 he))
  | infinity s => exact nearestSize_of_overflow_le (Nat.le_refl _)
  | zero s => exact nearestSize_zero
  | notANumber => exact nearestSize_zero

/-- Whether an unpacked number is one from zero up, and the nearest to a number of steps. -/
def IsNearest (u : UnpackedFloat) (n : Nat) : Prop := IsAmount u ∧ magnitude u = nearestSize n

/-- What core rounds and packs is the nearest double. -/
theorem isNearest_round {m : Nat} (hm : 0 < m) {e : Int} (he : -1074 ≤ e) :
    IsNearest (UnpackedFloat.unpack .binary64
      (UnpackedFloat.pack .binary64 (UnpackedFloat.round .binary64 .positive m e)))
      (steps m e) := by
  obtain ⟨m', e', hm', hround, hc, hsteps⟩ := exists_round .positive hm he
  rw [hround, unpack_pack_of_canonical .positive hm' hc, IsNearest, nearestSize, ← hsteps]
  by_cases htop : e' ≤ 971
  · rw [if_pos htop]
    exact ⟨rfl, (Nat.min_eq_left (Nat.le_of_lt (hc.steps_lt_overflow_iff.2 htop))).symm⟩
  · rw [if_neg htop]
    have hle : overflow ≤ steps m' e' := Nat.le_of_not_lt (mt hc.steps_lt_overflow_iff.1 htop)
    exact ⟨rfl, (Nat.min_eq_right hle).symm⟩

/-- What a mantissa stands for stays the same at a smaller exponent. -/
theorem steps_decreaseExponent (m k l : Nat) :
    steps (decreaseExponent m (k - 1074) (min (k - 1074) (l - 1074))).1
      (min (k - 1074) (l - 1074)) =
      steps m (k - 1074) := by
  have hmin : min (k - 1074 : Int) (l - 1074) = (min k l : Nat) - 1074 := by omega
  have hshift : ((k - 1074 : Int) - ((min k l : Nat) - 1074)).toNat = k - min k l := by omega
  rw [hmin, decreaseExponent, hshift, steps_sub, steps_sub, Nat.shiftLeft_eq, Nat.mul_assoc,
    ← Nat.pow_add, Nat.sub_add_cancel (Nat.min_le_left k l)]

/-- A sum that core takes to be one of its terms is that term. -/
theorem add_eq_of_unpack {x y z : Float}
    (h : UnpackedFloat.add .binary64 x.toModel.unpack y.toModel.unpack = z.toModel.unpack) :
    x + y = z := by
  show Float.ofModel (.pack (UnpackedFloat.add .binary64 x.toModel.unpack y.toModel.unpack)) = z
  rw [h, ofModel_pack_unpack]

/-- A positive mantissa is rounded as it is. -/
theorem normalize_natCast {n : Nat} (hn : 0 < n) (e : Int) (zero : Sign) :
    UnpackedFloat.normalize .binary64 n e zero = UnpackedFloat.round .binary64 .positive n e := by
  rw [UnpackedFloat.normalize, Int.compare_eq_gt.2 (Int.natCast_pos.2 hn)]
  rfl

/-- The sum of two positive finite numbers. -/
theorem isNearest_add_finite {x y : Float} {m m' : Nat} {e e' : Int} {hm : 0 < m} {hm' : 0 < m'}
    (hx : x.toModel.unpack = .finite .positive m e hm)
    (hy : y.toModel.unpack = .finite .positive m' e' hm') :
    IsNearest (x + y).toModel.unpack (steps m e + steps m' e') := by
  have hl := (canonical_of_unpack_eq hx).1.least
  have hl' := (canonical_of_unpack_eq hy).1.least
  -- The numbers are added at the smaller of the exponents.
  have hleft : steps (decreaseExponent m e (min e e')).1 (min e e') = steps m e := by
    obtain ⟨k, rfl⟩ := exists_exponent hl
    obtain ⟨k', rfl⟩ := exists_exponent hl'
    exact steps_decreaseExponent m k k'
  have hright : steps (decreaseExponent m' e' (min e e')).1 (min e e') = steps m' e' := by
    obtain ⟨k, rfl⟩ := exists_exponent hl
    obtain ⟨k', rfl⟩ := exists_exponent hl'
    rw [min_comm]
    exact steps_decreaseExponent m' k' k
  have hpos : 0 < (decreaseExponent m e (min e e')).1 :=
    Nat.pos_of_mul_pos_right (hleft ▸ steps_pos hm e)
  have hsum : UnpackedFloat.add .binary64 x.toModel.unpack y.toModel.unpack =
      UnpackedFloat.round .binary64 .positive
        ((decreaseExponent m e (min e e')).1 + (decreaseExponent m' e' (min e e')).1)
        (min e e') := by
    rw [hx, hy]
    exact normalize_natCast (Nat.add_pos_left hpos _) _ .positive
  have hnearest := isNearest_round (Nat.add_pos_left hpos (decreaseExponent m' e' (min e e')).1)
    (le_min hl hl')
  rw [← hsum, steps, Nat.add_mul] at hnearest
  rw [← hleft, ← hright]
  exact hnearest

/-- The double from zero up nearest to the sum of two is their sum. -/
theorem isNearest_add {x y : Float} (hx : 0.0 ≤ x) (hy : 0.0 ≤ y) :
    IsNearest (x + y).toModel.unpack (size x + size y) := by
  rw [zero_le_iff] at hx hy
  have term {z : Float} (hz : IsAmount z.toModel.unpack) {n : Nat} (hn : size z = nearestSize n)
      (h : UnpackedFloat.add .binary64 x.toModel.unpack y.toModel.unpack = z.toModel.unpack) :
      IsNearest (x + y).toModel.unpack n := add_eq_of_unpack h ▸ ⟨hz, hn⟩
  have infinite {z : Float} (hz : z.toModel.unpack = .infinity .positive) {n : Nat}
      (hn : size z ≤ n)
      (h : UnpackedFloat.add .binary64 x.toModel.unpack y.toModel.unpack = z.toModel.unpack) :
      IsNearest (x + y).toModel.unpack n := by
    have hsize : size z = overflow := by rw [size, hz, magnitude]
    exact term (hz ▸ rfl) (hsize.trans (nearestSize_of_overflow_le (hsize ▸ hn)).symm) h
  have size_of_zero {z : Float} {s : Sign} (hz : z.toModel.unpack = .zero s) : size z = 0 := by
    rw [size, hz, magnitude]
  rcases hx.cases with ⟨m, e, hm, hu⟩ | hu | ⟨s, hu⟩
  · rcases hy.cases with ⟨m', e', hm', hv⟩ | hv | ⟨s', hv⟩
    · have hfinite := isNearest_add_finite hu hv
      rwa [size, size, hu, hv]
    · exact infinite hv (Nat.le_add_left _ _) (by rw [hu, hv]; rfl)
    · rw [size_of_zero hv, Nat.add_zero]
      exact term hx (nearestSize_size x).symm (by rw [hu, hv]; rfl)
  · refine infinite hu (Nat.le_add_right _ _) ?_
    rcases hy.cases with ⟨m', e', hm', hv⟩ | hv | ⟨s', hv⟩ <;> rw [hu, hv] <;> rfl
  · rw [size_of_zero hu, Nat.zero_add]
    rcases hy.cases with ⟨m', e', hm', hv⟩ | hv | ⟨s', hv⟩
    · exact term hy (nearestSize_size y).symm (by rw [hu, hv]; rfl)
    · exact term hy (nearestSize_size y).symm (by rw [hu, hv]; rfl)
    · -- Two zeros make the first of them if it is positive, and else the second.
      have hy' := size_of_zero hv
      rw [hy']
      cases s with
      | positive =>
        exact term hx ((size_of_zero hu).trans nearestSize_zero.symm)
          (by rw [hu, hv]; cases s' <;> rfl)
      | negative =>
        exact term hy (hy'.trans nearestSize_zero.symm) (by rw [hu, hv]; cases s' <;> rfl)

variable {x y z : Float}

/-- A sum of doubles from zero up is not below zero. -/
theorem zero_le_add (hx : 0.0 ≤ x) (hy : 0.0 ≤ y) : 0.0 ≤ x + y :=
  zero_le_iff.2 (isNearest_add hx hy).1

/-- **The size of a sum** is that of the double nearest to the sum of the sizes. -/
theorem size_add (hx : 0.0 ≤ x) (hy : 0.0 ≤ y) : size (x + y) = nearestSize (size x + size y) :=
  (isNearest_add hx hy).2

/-- **Adding what is not below zero leads to nothing smaller.** -/
theorem le_add (hx : 0.0 ≤ x) (hy : 0.0 ≤ y) : x ≤ x + y := by
  rw [le_iff_size hx (zero_le_add hx hy), size_add hx hy]
  calc size x = nearestSize (size x) := (nearestSize_size x).symm
    _ ≤ nearestSize (size x + size y) := nearestSize_mono (Nat.le_add_right _ _)

/-- **Adding more leads to nothing smaller.** -/
theorem add_le_add_left (hx : 0.0 ≤ x) (hy : 0.0 ≤ y) (hz : 0.0 ≤ z) (h : y ≤ z) :
    x + y ≤ x + z := by
  rw [le_iff_size (zero_le_add hx hy) (zero_le_add hx hz), size_add hx hy, size_add hx hz]
  exact nearestSize_mono (Nat.add_le_add_left ((le_iff_size hy hz).1 h) _)

/-- The order of doubles from zero up is transitive. -/
theorem le_trans (hx : 0.0 ≤ x) (hy : 0.0 ≤ y) (hz : 0.0 ≤ z) (hxy : x ≤ y) (hyz : y ≤ z) : x ≤ z :=
  (le_iff_size hx hz).2 (((le_iff_size hx hy).1 hxy).trans ((le_iff_size hy hz).1 hyz))

/-- Doubles from zero up are not greater than themselves. -/
theorem le_refl (hx : 0.0 ≤ x) : x ≤ x := (le_iff_size hx hx).2 (Nat.le_refl _)

/-! ### Differences, and what is brought below a limit -/

/-- Parts that are not those of the undefined double are unpacked to a number. -/
theorem isNaN_unpack_packComponents {s : Sign} {f : BitVec 11} {v : BitVec 52}
    (h : f ≠ -1#11 ∨ v = 0#52) :
    (UnpackedFloat.unpack .binary64 (packComponents .binary64 s f v)).isNaN = false := by
  rw [unpack_packComponents]
  split
  · next hf =>
    rw [if_pos (h.resolve_left fun hn => hn hf)]
    rfl
  · split
    · split <;> rfl
    · rfl

/-- A finite number is packed with its sign, and not as what is not a number. -/
theorem exists_packComponents (s : Sign) (m : Nat) (e : Int) (hm : 0 < m) :
    ∃ f v, UnpackedFloat.pack .binary64 (.finite s m e hm) = packComponents .binary64 s f v ∧
      (f ≠ -1#11 ∨ v = 0#52) := by
  rw [UnpackedFloat.pack]
  dsimp only
  split
  · exact ⟨_, _, rfl, .inr rfl⟩
  · next htop =>
    split
    · refine ⟨_, _, rfl, .inl fun hf => ?_⟩
      have hf := congrArg BitVec.toNat hf
      rw [BitVec.toNat_ofNat, Nat.mod_eq_of_lt (by omega)] at hf
      exact htop (by rw [hf]; decide)
    · exact ⟨_, _, rfl, .inl (by decide)⟩

/-- A number packed and unpacked is a number. -/
theorem isNaN_unpack_pack {u : UnpackedFloat} (h : u.isNaN = false) :
    (UnpackedFloat.unpack .binary64 (UnpackedFloat.pack .binary64 u)).isNaN = false := by
  cases u with
  | notANumber => cases h
  | infinity s => exact isNaN_unpack_packComponents (.inr rfl)
  | zero s => exact isNaN_unpack_packComponents (.inr rfl)
  | finite s m e hm =>
    obtain ⟨f, v, hp, h⟩ := exists_packComponents s m e hm
    rw [hp]
    exact isNaN_unpack_packComponents h

/-- What is rounded is a number. -/
theorem isNaN_round (s : Sign) (m : Nat) (e : Int) :
    (UnpackedFloat.round .binary64 s m e).isNaN = false := by
  unfold UnpackedFloat.round roundWithAccuracy
  dsimp only
  split <;> rfl

/-- A finite double is a number. -/
theorem isNaN_of_isFinite (hx : x.isFinite = true) : x.isNaN = false := by
  cases hn : x.isNaN with
  | false => rfl
  | true =>
    rw [eq_nan hn] at hx
    exact absurd hx (by decide +kernel)

/-- A number less a finite one is a number. -/
theorem isNaN_sub_finite (hx : x.isNaN = false) (hy : y.isFinite = true) :
    (x - y).isNaN = false := by
  have hx : x.toModel.unpack.isNaN = false := hx
  have hy : y.toModel.unpack.isFinite = true := hy
  refine isNaN_unpack_pack (u := UnpackedFloat.sub .binary64 x.toModel.unpack y.toModel.unpack) ?_
  cases hv : y.toModel.unpack with
  | notANumber => rw [hv] at hy; cases hy
  | infinity s => rw [hv] at hy; cases hy
  | zero s' =>
    cases hu : x.toModel.unpack with
    | notANumber => rw [hu] at hx; cases hx
    | infinity s => rfl
    | zero s => cases s <;> cases s' <;> rfl
    | finite s m e hm => rfl
  | finite s' m' e' hm' =>
    cases hu : x.toModel.unpack with
    | notANumber => rw [hu] at hx; cases hx
    | infinity s => rfl
    | zero s => rfl
    | finite s m e hm =>
      rw [UnpackedFloat.sub]
      dsimp only
      rw [UnpackedFloat.normalize]
      split
      · exact isNaN_round _ _ _
      · rfl
      · exact isNaN_round _ _ _

/-- **The difference of finite doubles is a number.** -/
theorem isNaN_sub (hx : x.isFinite = true) (hy : y.isFinite = true) : (x - y).isNaN = false :=
  isNaN_sub_finite (isNaN_of_isFinite hx) hy

/-- Doubles from zero up are numbers. -/
theorem isNaN_of_zero_le (hx : 0.0 ≤ x) : x.isNaN = false := by
  show x.toModel.unpack.isNaN = false
  rcases (zero_le_iff.1 hx).cases with ⟨m, e, hm, hu⟩ | hu | ⟨s, hu⟩ <;> rw [hu] <;> rfl

/-- **A number is brought between zero and a limit.** -/
theorem clamp_between (hx : x.isNaN = false) (hy : 0.0 ≤ y) :
    0.0 ≤ clamp x 0.0 y ∧ clamp x 0.0 y ≤ y := by
  have hzero : (0.0 : Float) ≤ 0.0 := by decide +kernel
  by_cases hlo : x < 0.0
  · rw [clamp, if_pos hlo]
    exact ⟨hzero, hy⟩
  · rw [clamp, if_neg hlo]
    by_cases hhi : y < x
    · rw [if_pos hhi]
      exact ⟨hy, le_refl hy⟩
    · rw [if_neg hhi]
      exact ⟨le_of_not_lt (isNaN_of_zero_le hzero) hx hlo,
        le_of_not_lt hx (isNaN_of_zero_le hy) hhi⟩

end Double

end MotionGraph
