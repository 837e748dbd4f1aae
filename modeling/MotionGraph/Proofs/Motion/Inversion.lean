import Mathlib.Algebra.Order.Field.Basic
import Mathlib.Algebra.Order.Ring.Rat
import Mathlib.Order.Monotone.Basic
import Mathlib.Tactic.Linarith
import Mathlib.Tactic.NormNum
import Mathlib.Tactic.Ring
import MotionGraph.Motion.Bezier

/-!
# The parameter above an abscissa

On exact fractions, let the control points of a curve have their abscissas in the unit interval.
Then the abscissa rises along the curve, at most three times as fast as the parameter: between two
parameters its rise per unit (`Bezier.chord`) depends on each control point in a straight line, so
that it lies between its values at the four corners, and those lie between zero and three.

The search for the parameter of an abscissa ends. Newton's method is only tried so often, and what
it gives up is found by halving: an interval that has the parameter strictly inside
(`Bracket.Holds`) is cut at the parameter tried, first at the abscissa itself and then always in the
middle, until it is short (`Bezier.exists_isOver`). What is found is as near as it has to be, since
the abscissa at the middle of a short interval is no further away than three halves of its length
(`Bezier.parameter_exact`).
-/

namespace MotionGraph.Bezier

/-! ### The curve on exact fractions -/

/-- The magnitude of a fraction. -/
theorem scalarAbs_eq (x : ℚ) : Scalar.abs x = |x| := by
  have zero : (0.0 : ℚ) = 0 := by norm_num
  show (if x < (0.0 : ℚ) then -x else x) = |x|
  rw [zero]
  split
  · next h => exact (abs_of_neg h).symm
  · next h => exact (abs_of_nonneg (not_lt.1 h)).symm

/-- How near is near enough. -/
theorem epsilon_eq : (epsilon : ℚ) = 1 / 10000000 := by
  show (1e-7 : ℚ) = _
  norm_num

/-- One coordinate as a polynomial. -/
theorem coordinate_eq (p q t : ℚ) :
    coordinate p q t = 3 * p * (1 - t) ^ 2 * t + 3 * q * (1 - t) * t ^ 2 + t ^ 3 := by
  show (3.0 : ℚ) * p * (1.0 - t) * (1.0 - t) * t + 3.0 * q * (1.0 - t) * t * t + t * t * t = _
  norm_num
  ring

/-- The rise of a coordinate between two parameters, for each unit of the parameter. -/
def chord (p q s t : ℚ) : ℚ :=
  3 * p * (1 - 2 * (s + t) + (s ^ 2 + s * t + t ^ 2)) + 3 * q * (s + t - (s ^ 2 + s * t + t ^ 2)) +
    (s ^ 2 + s * t + t ^ 2)

/-- The rise of a coordinate between two parameters. -/
theorem coordinate_sub (p q s t : ℚ) :
    coordinate p q t - coordinate p q s = (t - s) * chord p q s t := by
  rw [coordinate_eq, coordinate_eq, chord]
  ring

section Chord

variable {p q s t : ℚ} (hs : s ∈ Set.Icc 0 1) (ht : t ∈ Set.Icc 0 1)

include hs ht

/-- With both control points on the left the rise per unit is a form in the parameters. -/
theorem chord_left_left : chord 0 0 s t ∈ Set.Icc 0 3 := by
  obtain ⟨hs, hs'⟩ := hs
  obtain ⟨ht, ht'⟩ := ht
  have product : 0 ≤ s * t := mul_nonneg hs ht
  have eq : chord 0 0 s t = s ^ 2 + s * t + t ^ 2 := by
    rw [chord]
    ring
  rw [eq]
  constructor <;> nlinarith

/-- With both on the right it is that form in the distances from the other end. -/
theorem chord_right_right : chord 1 1 s t ∈ Set.Icc 0 3 := by
  have eq : chord 1 1 s t = chord 0 0 (1 - s) (1 - t) := by
    rw [chord, chord]
    ring
  rw [eq]
  exact chord_left_left ⟨sub_nonneg.2 hs.2, sub_le_self 1 hs.1⟩
    ⟨sub_nonneg.2 ht.2, sub_le_self 1 ht.1⟩

/-- With one on either side, in order, it is half of three at most. -/
theorem chord_left_right : chord 0 1 s t ∈ Set.Icc 0 (3 / 2) := by
  obtain ⟨hs, hs'⟩ := hs
  obtain ⟨ht, ht'⟩ := ht
  have low : chord 0 1 s t =
      2 * (s * (1 - s)) + 2 * (t * (1 - t)) + s * (1 - t) + t * (1 - s) := by
    rw [chord]
    ring
  have high : chord 0 1 s t = 3 / 2 - (3 * (1 - s - t) ^ 2 + (s - t) ^ 2) / 2 := by
    rw [chord]
    ring
  have left : 0 ≤ 1 - s := sub_nonneg.2 hs'
  have right : 0 ≤ 1 - t := sub_nonneg.2 ht'
  constructor
  · rw [low]
    positivity
  · have squares : 0 ≤ 3 * (1 - s - t) ^ 2 + (s - t) ^ 2 := by positivity
    rw [high]
    linarith

/-- With one on either side, the other way round, it is what twice as much leaves of three. -/
theorem chord_right_left : chord 1 0 s t ∈ Set.Icc 0 3 := by
  obtain ⟨low, high⟩ := chord_left_right hs ht
  have eq : chord 1 0 s t = 3 - 2 * chord 0 1 s t := by
    rw [chord, chord]
    ring
  rw [eq]
  constructor <;> linarith

/-- **Between parameters of the unit interval a coordinate rises by nothing to three for each
unit.** -/
theorem chord_mem (hp : p ∈ Set.Icc 0 1) (hq : q ∈ Set.Icc 0 1) : chord p q s t ∈ Set.Icc 0 3 := by
  -- The rise is the mean of those at the four corners, weighted by how near each of them is.
  have mean : chord p q s t = (1 - p) * (1 - q) * chord 0 0 s t + (1 - p) * q * chord 0 1 s t +
      p * (1 - q) * chord 1 0 s t + p * q * chord 1 1 s t := by
    simp only [chord]
    ring
  have weights : (1 - p) * (1 - q) * 3 + (1 - p) * q * 3 + p * (1 - q) * 3 + p * q * 3 = 3 := by
    ring
  have left : 0 ≤ 1 - p := sub_nonneg.2 hp.2
  have right : 0 ≤ 1 - q := sub_nonneg.2 hq.2
  obtain ⟨hp, -⟩ := hp
  obtain ⟨hq, -⟩ := hq
  obtain ⟨low₁, high₁⟩ := chord_left_left hs ht
  obtain ⟨low₂, high₂⟩ := chord_left_right hs ht
  obtain ⟨low₃, high₃⟩ := chord_right_left hs ht
  obtain ⟨low₄, high₄⟩ := chord_right_right hs ht
  rw [mean]
  constructor
  · positivity
  · refine le_trans ?_ weights.le
    gcongr
    linarith

/-- A coordinate rises with the parameter, at most three times as fast. -/
theorem coordinate_sub_mem (hp : p ∈ Set.Icc 0 1) (hq : q ∈ Set.Icc 0 1) (hst : s ≤ t) :
    coordinate p q t - coordinate p q s ∈ Set.Icc 0 (3 * (t - s)) := by
  obtain ⟨low, high⟩ := chord_mem hs ht hp hq
  have width : 0 ≤ t - s := sub_nonneg.2 hst
  rw [coordinate_sub]
  constructor
  · positivity
  · rw [mul_comm 3]
    gcongr

end Chord

/-! ### Halving -/

/-- An interval of parameters and the one in it that is tried next. -/
structure Bracket where
  low : ℚ
  high : ℚ
  probe : ℚ

namespace Bracket

/-- The half that the parameter looked for is in, if the one tried is not near enough; the next
one tried is its middle. -/
def halve (c : Bezier ℚ) (x : ℚ) (b : Bracket) : Bracket :=
  if c.abscissa b.probe < x then ⟨b.probe, b.high, (b.probe + b.high) / 2⟩
  else ⟨b.low, b.probe, (b.low + b.probe) / 2⟩

/-- Whether the search ends here: the interval is short, or the parameter tried is near enough. -/
def IsOver (c : Bezier ℚ) (x : ℚ) (b : Bracket) : Prop :=
  b.high - b.low ≤ epsilon ∨ |c.abscissa b.probe - x| < epsilon

/-- What holds of every interval on the way: the parameter tried is strictly inside, the left end
lies below the abscissa, and the right end does not. -/
structure Holds (c : Bezier ℚ) (x : ℚ) (b : Bracket) : Prop where
  low : 0 ≤ b.low
  high : b.high ≤ 1
  left : b.low < b.probe
  right : b.probe < b.high
  below : c.abscissa b.low < x
  above : x ≤ c.abscissa b.high

variable {c : Bezier ℚ} {x : ℚ} {b : Bracket}

/-- A half has what the whole has. -/
theorem Holds.halve (h : b.Holds c x) : (b.halve c x).Holds c x := by
  obtain ⟨low, high, left, right, below, above⟩ := h
  unfold Bracket.halve
  split
  · next hlt => constructor <;> dsimp only <;> linarith
  · next hge =>
    rw [not_lt] at hge
    constructor <;> dsimp only <;> linarith

/-- In a half the middle is tried. -/
theorem probe_halve : (b.halve c x).probe = ((b.halve c x).low + (b.halve c x).high) / 2 := by
  unfold halve
  split <;> rfl

/-- A half is shorter than the whole. -/
theorem Holds.width_halve_lt (h : b.Holds c x) :
    (b.halve c x).high - (b.halve c x).low < b.high - b.low := by
  have left := h.left
  have right := h.right
  unfold Bracket.halve
  split <;> dsimp only <;> linarith

/-- Cut in the middle, it is half as long. -/
theorem width_halve (middle : b.probe = (b.low + b.high) / 2) :
    (b.halve c x).high - (b.halve c x).low = (b.high - b.low) / 2 := by
  unfold halve
  split <;> dsimp only <;> rw [middle] <;> ring

/-- Where the search ends, halving stops. -/
theorem bisect_of_isOver (k : ℕ) (h : b.IsOver c x) :
    c.bisect x k b.low b.high b.probe = b.probe := by
  cases k with
  | zero => rfl
  | succ k =>
    rw [bisect]
    split
    · next long =>
      have near : Scalar.abs (c.abscissa b.probe - x) < epsilon := by
        rw [scalarAbs_eq]
        exact h.resolve_left (not_le.2 long)
      rw [if_pos near]
    · rfl

/-- Elsewhere it goes on with the half. -/
theorem bisect_of_not_isOver (k : ℕ) (h : ¬b.IsOver c x) :
    c.bisect x (k + 1) b.low b.high b.probe =
      c.bisect x k (b.halve c x).low (b.halve c x).high (b.halve c x).probe := by
  obtain ⟨long, far⟩ := not_or.1 h
  have two : (2.0 : ℚ) = 2 := by norm_num
  rw [← scalarAbs_eq] at far
  rw [bisect, if_pos (not_le.1 long), if_neg far, halve]
  split
  · show c.bisect x k b.probe b.high ((b.probe + b.high) / (2.0 : ℚ)) = _
    rw [two]
  · show c.bisect x k b.low b.probe ((b.low + b.probe) / (2.0 : ℚ)) = _
    rw [two]

/-- Halving gives the parameter tried where the search ends, if it may go on so long. -/
theorem bisect_eq {n k : ℕ} (hn : n ≤ k) (ended : ((halve c x)^[n] b).IsOver c x)
    (before : ∀ m < n, ¬((halve c x)^[m] b).IsOver c x) :
    c.bisect x k b.low b.high b.probe = ((halve c x)^[n] b).probe := by
  induction n generalizing b k with
  | zero => exact bisect_of_isOver k ended
  | succ n ih =>
    obtain ⟨k, rfl⟩ := Nat.exists_eq_add_of_le' hn
    have first : ¬b.IsOver c x := before 0 n.succ_pos
    rw [Function.iterate_succ_apply] at ended ⊢
    rw [← Nat.add_assoc, bisect_of_not_isOver (k + n) first]
    apply ih (Nat.le_add_left n k) ended
    intro m hm
    have later := before (m + 1) (Nat.succ_lt_succ hm)
    rwa [Function.iterate_succ_apply] at later

end Bracket

/-! ### The search -/

/-- The interval after so many halvings; the first parameter tried is the abscissa itself. -/
def bracketAt (c : Bezier ℚ) (x : ℚ) (n : ℕ) : Bracket := (Bracket.halve c x)^[n] ⟨0, 1, x⟩

section Search

variable {c : Bezier ℚ} {x : ℚ}

/-- One halving more. -/
theorem bracketAt_succ (n : ℕ) : c.bracketAt x (n + 1) = (c.bracketAt x n).halve c x :=
  Function.iterate_succ_apply' ..

/-- After the first cut all cuts are in the middle. -/
theorem probe_bracketAt_succ (n : ℕ) : (c.bracketAt x (n + 1)).probe =
    ((c.bracketAt x (n + 1)).low + (c.bracketAt x (n + 1)).high) / 2 := by
  rw [bracketAt_succ]
  exact Bracket.probe_halve

/-- What Newton's method gives is near enough. -/
theorem abs_sub_lt_of_newton? {n : ℕ} {s t : ℚ} (h : c.newton? x n s = some t) :
    |c.abscissa t - x| < epsilon := by
  induction n generalizing s with
  | zero => cases h
  | succ n ih =>
    rw [newton?] at h
    dsimp only at h
    split at h
    · next near =>
      cases h
      rwa [scalarAbs_eq] at near
    · split at h
      · cases h
      · exact ih h

variable (hx : 0 < x) (hx' : x < 1)

include hx hx'

/-- **Every interval on the way has the parameter looked for.** -/
theorem holds_bracketAt (n : ℕ) : (c.bracketAt x n).Holds c x := by
  induction n with
  | zero =>
    have first : c.abscissa 0 = 0 := by
      rw [abscissa, coordinate_eq]
      ring
    have last : c.abscissa 1 = 1 := by
      rw [abscissa, coordinate_eq]
      ring
    exact ⟨le_rfl, le_rfl, hx, hx', first.trans_lt hx, hx'.le.trans last.ge⟩
  | succ n ih =>
    rw [bracketAt_succ]
    exact ih.halve

/-- After the first cut the intervals become half as long each time. -/
theorem width_bracketAt_lt (n : ℕ) :
    (c.bracketAt x (n + 1)).high - (c.bracketAt x (n + 1)).low < (1 / 2) ^ n := by
  induction n with
  | zero =>
    have shorter := (holds_bracketAt hx hx' 0 : (c.bracketAt x 0).Holds c x).width_halve_lt
    rw [bracketAt_succ]
    exact shorter.trans_eq (by norm_num [bracketAt])
  | succ n ih =>
    rw [bracketAt_succ, Bracket.width_halve (probe_bracketAt_succ n), pow_succ]
    linarith

/-- **The search ends**, after twenty-five halvings at the latest. -/
theorem exists_isOver : ∃ n ≤ 25, (c.bracketAt x n).IsOver c x ∧
    ∀ m < n, ¬(c.bracketAt x m).IsOver c x := by
  classical
  have short : (c.bracketAt x 25).IsOver c x := by
    left
    rw [epsilon_eq]
    refine (width_bracketAt_lt hx hx' 24).le.trans ?_
    norm_num
  have ends : ∃ n, (c.bracketAt x n).IsOver c x := ⟨25, short⟩
  exact ⟨Nat.find ends, Nat.find_min' ends short, Nat.find_spec ends,
    fun m hm => Nat.find_min ends hm⟩

variable (h₁ : c.x1 ∈ Set.Icc 0 1) (h₂ : c.x2 ∈ Set.Icc 0 1)

include h₁ h₂

/-- Where the search ends, the parameter tried is near enough. -/
theorem abs_sub_le_of_isOver {n : ℕ} (ended : (c.bracketAt x n).IsOver c x) :
    |c.abscissa (c.bracketAt x n).probe - x| ≤ 1.5 * epsilon := by
  have holds : (c.bracketAt x n).Holds c x := holds_bracketAt hx hx' n
  have tiny := epsilon_eq
  rcases ended with short | near
  · cases n with
    | zero =>
      -- The whole unit interval is not short.
      have whole : (1 : ℚ) - 0 ≤ epsilon := short
      rw [epsilon_eq] at whole
      norm_num at whole
    | succ n =>
      have middle := probe_bracketAt_succ (c := c) (x := x) n
      generalize c.bracketAt x (n + 1) = b at holds short middle ⊢
      obtain ⟨low, high, left, right, below, above⟩ := holds
      have hl : b.low ∈ Set.Icc (0 : ℚ) 1 := ⟨low, by linarith⟩
      have hm : b.probe ∈ Set.Icc (0 : ℚ) 1 := ⟨by linarith, by linarith⟩
      have hh : b.high ∈ Set.Icc (0 : ℚ) 1 := ⟨by linarith, high⟩
      have rise := (coordinate_sub_mem hl hm h₁ h₂ left.le).2
      have rise' := (coordinate_sub_mem hm hh h₁ h₂ right.le).2
      unfold abscissa at below above ⊢
      rw [abs_le]
      constructor <;> linarith
  · exact near.le.trans (by linarith)

/-- **The parameter found is the one looked for, up to a bounded error.** The abscissa of what is
found is no further away than three halves of the tolerance, whether Newton's method or the halving
has found it. On the way of the halving the left end always lies below the abscissa, the right end
does not, and the parameter tried is in the unit interval. The halving ends after twenty-five cuts
at the latest, and gives the parameter tried there however much longer it might go on. -/
theorem parameter_exact :
    |c.abscissa (c.parameter x) - x| ≤ 1.5 * epsilon ∧
      (∀ n, c.abscissa (c.bracketAt x n).low < x ∧ x ≤ c.abscissa (c.bracketAt x n).high ∧
        0 ≤ (c.bracketAt x n).probe ∧ (c.bracketAt x n).probe ≤ 1) ∧
      ∃ n ≤ 25, (c.bracketAt x n).IsOver c x ∧ (∀ m < n, ¬(c.bracketAt x m).IsOver c x) ∧
        (∀ k, n ≤ k → c.bisect x k 0 1 x = (c.bracketAt x n).probe) ∧
        c.parameter x = (c.newton? x newtonSteps x).getD (c.bracketAt x n).probe ∧
        (∀ t, c.newton? x newtonSteps x = some t → |c.abscissa t - x| ≤ 1.5 * epsilon) ∧
        |c.abscissa (c.bracketAt x n).probe - x| ≤ 1.5 * epsilon := by
  obtain ⟨n, hn, ended, before⟩ := exists_isOver (c := c) hx hx'
  have bisected : ∀ k, n ≤ k → c.bisect x k 0 1 x = (c.bracketAt x n).probe :=
    fun k hk => Bracket.bisect_eq hk ended before
  have found : c.parameter x = (c.newton? x newtonSteps x).getD (c.bracketAt x n).probe := by
    have enough : n ≤ halvings := hn.trans (by decide)
    have ends : c.bisect x halvings (0.0 : ℚ) (1.0 : ℚ) x = (c.bracketAt x n).probe := by
      have zero : (0.0 : ℚ) = 0 := by norm_num
      have one : (1.0 : ℚ) = 1 := by norm_num
      rw [zero, one, bisected halvings enough]
    rw [parameter]
    cases c.newton? x newtonSteps x with
    | some t => rfl
    | none => exact ends
  have newton : ∀ t, c.newton? x newtonSteps x = some t → |c.abscissa t - x| ≤ 1.5 * epsilon := by
    intro t ht
    have near : |c.abscissa t - x| < epsilon := abs_sub_lt_of_newton? ht
    have tolerance := epsilon_eq
    linarith
  have halved := abs_sub_le_of_isOver hx hx' h₁ h₂ ended
  refine ⟨?_, ?_, n, hn, ended, before, bisected, found, newton, halved⟩
  · rw [found]
    cases ht : c.newton? x newtonSteps x with
    | some t => exact newton t ht
    | none => exact halved
  · intro m
    obtain ⟨low, high, left, right, below, above⟩ :=
      (holds_bracketAt hx hx' m : Bracket.Holds c x _)
    exact ⟨below, above, by linarith, by linarith⟩

end Search

/-- A curve that stands still in the middle, where Newton's method gives up at once. -/
theorem standstill_exact :
    let c : Bezier ℚ := ⟨1, 0, 0, 1⟩
    let x : ℚ := 5001 / 10000
    0 < x ∧ x < 1 ∧ c.x1 ∈ Set.Icc 0 1 ∧ c.x2 ∈ Set.Icc 0 1 ∧ c.newton? x newtonSteps x = none ∧
      |c.abscissa (c.parameter x) - x| ≤ 1.5 * epsilon := by
  intro c x
  have hx : 0 < x := by decide +kernel
  have hx' : x < 1 := by decide +kernel
  have h₁ : c.x1 ∈ Set.Icc 0 1 := ⟨by decide, by decide⟩
  have h₂ : c.x2 ∈ Set.Icc 0 1 := ⟨by decide, by decide⟩
  exact ⟨hx, hx', h₁, h₂, by decide +kernel, (parameter_exact hx hx' h₁ h₂).1⟩

end MotionGraph.Bezier
