import Mathlib.Algebra.Order.Field.Basic
import Mathlib.Algebra.Order.Ring.Rat
import Mathlib.Order.Monotone.Defs
import Mathlib.Tactic.FieldSimp
import Mathlib.Tactic.Linarith
import Mathlib.Tactic.Ring
import MotionGraph.Proofs.Node.Breakpoints

/-!
# Interpolation on exact fractions

On exact fractions an interpolation is the polyline through its breakpoints
(`Interpolation.Traces`): at an input it has the output of the first breakpoint there,
between two neighbours it runs straight from one to the other, and outside it does what the
policy of the side says.

The value at `v` is taken from one segment (`evaluate_eq_onSegment`), and this segment is found by
position (`exists_isSegment`): nothing before it reaches `v`, and it reaches `v` unless it is the
last one. Since the inputs do not decrease, this position is known whenever something is known of
where `v` lies among them. With outputs that do not decrease either, segments further right give
greater values, so the polyline is monotone (`polyline_exact`).
-/

namespace MotionGraph.Interpolation

/-! ### Lines -/

/-- The value at `x` on the line through `a` and `b`: their outputs, each weighted with the distance
from the other input. -/
def line (a b : Breakpoint ℚ) (x : ℚ) : ℚ :=
  ((b.input - x) * a.output + (x - a.input) * b.output) / (b.input - a.input)

/-- The value outside the breakpoints, next to the segment from `a` to `b` whose outer output is
`edge`. A segment of no width has no line that could go on. -/
def outside (policy : Extrapolation) (a b : Breakpoint ℚ) (edge v : ℚ) : ℚ :=
  match policy with
  | .identity => v
  | .clamp => edge
  | .extend => if a.input = b.input then edge else line a b v

section Lines

variable {a b : Breakpoint ℚ} {x y m : ℚ}

/-- The line begins in its left end. -/
theorem line_left (h : a.input ≠ b.input) : line a b a.input = a.output := by
  have width : b.input - a.input ≠ 0 := sub_ne_zero.2 h.symm
  rw [line, sub_self, zero_mul, add_zero, mul_div_cancel_left₀ _ width]

/-- The line ends in its right end. -/
theorem line_right (h : a.input ≠ b.input) : line a b b.input = b.output := by
  have width : b.input - a.input ≠ 0 := sub_ne_zero.2 h.symm
  rw [line, sub_self, zero_mul, zero_add, mul_div_cancel_left₀ _ width]

/-- Between its ends the line does not go below what both are not below. -/
theorem le_line (h : a.input < b.input) (ha : m ≤ a.output) (hb : m ≤ b.output) (hx : a.input ≤ x)
    (hx' : x ≤ b.input) : m ≤ line a b x := by
  have width : 0 < b.input - a.input := sub_pos.2 h
  rw [line, le_div_iff₀ width]
  have left : (b.input - x) * m ≤ (b.input - x) * a.output :=
    mul_le_mul_of_nonneg_left ha (sub_nonneg.2 hx')
  have right : (x - a.input) * m ≤ (x - a.input) * b.output :=
    mul_le_mul_of_nonneg_left hb (sub_nonneg.2 hx)
  linarith

/-- Between its ends the line does not go above what both are not above. -/
theorem line_le (h : a.input < b.input) (ha : a.output ≤ m) (hb : b.output ≤ m) (hx : a.input ≤ x)
    (hx' : x ≤ b.input) : line a b x ≤ m := by
  have width : 0 < b.input - a.input := sub_pos.2 h
  rw [line, div_le_iff₀ width]
  have left : (b.input - x) * a.output ≤ (b.input - x) * m :=
    mul_le_mul_of_nonneg_left ha (sub_nonneg.2 hx')
  have right : (x - a.input) * b.output ≤ (x - a.input) * m :=
    mul_le_mul_of_nonneg_left hb (sub_nonneg.2 hx)
  linarith

/-- A line that does not end below its beginning does not fall anywhere. -/
theorem line_mono (h : a.input < b.input) (ho : a.output ≤ b.output) (hxy : x ≤ y) :
    line a b x ≤ line a b y := by
  have width : 0 < b.input - a.input := sub_pos.2 h
  have rise : 0 ≤ (y - x) * (b.output - a.output) := mul_nonneg (sub_nonneg.2 hxy) (sub_nonneg.2 ho)
  rw [line, line, div_le_div_iff_of_pos_right width]
  linarith

/-- On a segment of some width the program computes the line. -/
theorem along_of_ne (h : a.input ≠ b.input) (v : ℚ) : along a b v x = line a b x := by
  have width : b.input - a.input ≠ 0 := sub_ne_zero.2 h.symm
  unfold along line
  simp only [beq_iff_eq, h, if_false]
  split
  · next flat =>
    rw [← flat]
    field_simp
    ring
  · field_simp
    ring

/-- On a segment of no width the program jumps. -/
theorem along_of_eq (h : a.input = b.input) (v : ℚ) :
    along a b v x = if v ≤ a.input then a.output else b.output := by
  unfold along
  simp only [beq_iff_eq, h, if_true]
  split
  · next flat => simp [flat]
  · rfl

end Lines

/-! ### One segment -/

/-- The value that the segment from `a` to `b` gives. -/
def onSegment (c : Interpolation ℚ) (a b : Breakpoint ℚ) (v : ℚ) : ℚ :=
  if v < a.input then outside c.left a b a.output v
  else if b.input < v then outside c.right a b b.output v
  else if a.input = b.input then a.output
  else line a b v

section Segment

variable {c : Interpolation ℚ} {a b : Breakpoint ℚ} {v : ℚ}

/-- **The value at an input is the one that its segment gives.** -/
theorem evaluate_eq_onSegment (h : c.segment v = (a, b)) (hab : a.input ≤ b.input) :
    c.evaluate v = c.onSegment a b v := by
  have inside : ∀ x ≤ b.input, c.fromRight a b v x = along a b v x := fun x hx =>
    if_neg (not_lt.2 hx)
  unfold evaluate onSegment
  rw [h]
  by_cases left : v < a.input
  · simp only [left, if_true]
    cases c.left with
    | identity => rfl
    | clamp =>
      show c.fromRight a b v a.input = a.output
      rw [inside _ hab]
      rcases eq_or_ne a.input b.input with same | apart
      · rw [along_of_eq same, if_pos left.le]
      · rw [along_of_ne apart, line_left apart]
    | extend =>
      show c.fromRight a b v v = if a.input = b.input then a.output else line a b v
      rw [inside _ (left.le.trans hab)]
      split
      · next same => rw [along_of_eq same, if_pos left.le]
      · next apart => rw [along_of_ne apart]
  · simp only [left, if_false]
    by_cases right : b.input < v
    · have beyond : ¬v ≤ a.input := not_le.2 (hab.trans_lt right)
      simp only [fromRight, right, if_true]
      cases c.right with
      | identity => rfl
      | clamp =>
        show along a b v b.input = b.output
        rcases eq_or_ne a.input b.input with same | apart
        · rw [along_of_eq same, if_neg beyond]
        · rw [along_of_ne apart, line_right apart]
      | extend =>
        show along a b v v = if a.input = b.input then b.output else line a b v
        split
        · next same => rw [along_of_eq same, if_neg beyond]
        · next apart => rw [along_of_ne apart]
    · simp only [right, if_false]
      rw [inside v (not_lt.1 right)]
      split
      · next same => rw [along_of_eq same, if_pos (same ▸ not_lt.1 right)]
      · next apart => rw [along_of_ne apart]

/-- What a policy other than the identity gives on a side does not fall. -/
theorem outside_mono {policy : Extrapolation} {edge w : ℚ} (hp : policy ≠ .identity)
    (hab : a.input ≤ b.input) (ho : a.output ≤ b.output) (hvw : v ≤ w) :
    outside policy a b edge v ≤ outside policy a b edge w := by
  cases policy with
  | identity => exact absurd rfl hp
  | clamp => exact le_rfl
  | extend =>
    simp only [outside]
    split
    · exact le_rfl
    · next apart => exact line_mono (lt_of_le_of_ne hab apart) ho hvw

/-- Carried to the end of the line that has the outer output, either side meets that output. -/
theorem outside_eq {policy : Extrapolation} {edge x : ℚ} (hp : policy ≠ .identity)
    (ends : a.input ≠ b.input → line a b x = edge) : outside policy a b edge x = edge := by
  cases policy with
  | identity => exact absurd rfl hp
  | clamp => rfl
  | extend =>
    simp only [outside]
    split
    · rfl
    · next apart => exact ends apart

/-- At its left end a segment gives the left output. -/
theorem onSegment_left (hab : a.input ≤ b.input) : c.onSegment a b a.input = a.output := by
  rw [onSegment, if_neg (lt_irrefl _), if_neg (not_lt.2 hab)]
  split
  · rfl
  · next apart => exact line_left apart

/-- At its right end a segment of some width gives the right output. -/
theorem onSegment_right (hab : a.input < b.input) : c.onSegment a b b.input = b.output := by
  rw [onSegment, if_neg (not_lt.2 hab.le), if_neg (lt_irrefl _), if_neg hab.ne, line_right hab.ne]

/-- With both sides held, a segment gives nothing outside of what its outputs lie in. -/
theorem onSegment_between {lo hi : ℚ} (hl : c.left = .clamp) (hr : c.right = .clamp)
    (hab : a.input ≤ b.input) (ha : lo ≤ a.output ∧ a.output ≤ hi)
    (hb : lo ≤ b.output ∧ b.output ≤ hi) :
    lo ≤ c.onSegment a b v ∧ c.onSegment a b v ≤ hi := by
  unfold onSegment
  rw [hl, hr]
  split
  · exact ha
  · next left =>
    split
    · exact hb
    · next right =>
      split
      · exact ha
      · next apart =>
        have width : a.input < b.input := lt_of_le_of_ne hab apart
        exact ⟨le_line width ha.1 hb.1 (not_lt.1 left) (not_lt.1 right),
          line_le width ha.2 hb.2 (not_lt.1 left) (not_lt.1 right)⟩

section Rising

variable (hl : c.left ≠ .identity) (hr : c.right ≠ .identity) (hab : a.input ≤ b.input)
  (ho : a.output ≤ b.output)

include hl hab ho in
/-- Up to its right end a segment that does not fall gives no more than the output there. -/
theorem onSegment_le (hv : v ≤ b.input) : c.onSegment a b v ≤ b.output := by
  unfold onSegment
  rw [if_neg (not_lt.2 hv)]
  split
  · next left =>
      exact ((outside_mono hl hab ho left.le).trans_eq (outside_eq hl line_left)).trans ho
  · next left =>
    split
    · exact ho
    · next apart => exact line_le (lt_of_le_of_ne hab apart) ho le_rfl (not_lt.1 left) hv

include hr hab ho in
/-- From its left end on a segment that does not fall gives no less than the output there. -/
theorem le_onSegment (hv : a.input ≤ v) : a.output ≤ c.onSegment a b v := by
  unfold onSegment
  rw [if_neg (not_lt.2 hv)]
  split
  · next right =>
      exact ho.trans ((outside_eq hr line_right).symm.trans_le (outside_mono hr hab ho right.le))
  · next right =>
    split
    · exact le_rfl
    · next apart => exact le_line (lt_of_le_of_ne hab apart) le_rfl ho hv (not_lt.1 right)

include hl hr hab ho in
/-- A segment that does not fall between its ends does not fall outside either. -/
theorem onSegment_mono {w : ℚ} (hvw : v ≤ w) : c.onSegment a b v ≤ c.onSegment a b w := by
  by_cases left : v < a.input
  · have below : c.onSegment a b v = outside c.left a b a.output v := if_pos left
    by_cases left' : w < a.input
    · rw [below, onSegment, if_pos left']
      exact outside_mono hl hab ho hvw
    · calc c.onSegment a b v = outside c.left a b a.output v := below
        _ ≤ a.output := (outside_mono hl hab ho left.le).trans_eq (outside_eq hl line_left)
        _ ≤ c.onSegment a b w := le_onSegment hr hab ho (not_lt.1 left')
  · by_cases right : b.input < w
    · have above : c.onSegment a b w = outside c.right a b b.output w := by
        rw [onSegment, if_neg (not_lt.2 (hab.trans right.le)), if_pos right]
      by_cases right' : b.input < v
      · rw [above, onSegment, if_neg left, if_pos right']
        exact outside_mono hr hab ho hvw
      · calc c.onSegment a b v ≤ b.output := onSegment_le hl hab ho (not_lt.1 right')
          _ ≤ outside c.right a b b.output w :=
            (outside_eq hr line_right).symm.trans_le (outside_mono hr hab ho right.le)
          _ = c.onSegment a b w := above.symm
    · rw [onSegment, onSegment, if_neg left, if_neg (not_lt.2 (hvw.trans (not_lt.1 right))),
        if_neg (not_lt.2 ((not_lt.1 left).trans hvw)), if_neg right]
      split
      · exact le_rfl
      · next apart => exact line_mono (lt_of_le_of_ne hab apart) ho hvw

end Rising

end Segment

/-! ### Which segment -/

/-- The segment that an input belongs to stands at a position: its left end is below the input
unless it is the first one, and its right end is not below it unless it is the last one. -/
structure IsSegment (points : List (Breakpoint ℚ)) (v : ℚ) (k : ℕ) (a b : Breakpoint ℚ) : Prop where
  left : points[k]? = some a
  right : points[k + 1]? = some b
  above : k = 0 ∨ a.input < v
  below : k + 2 = points.length ∨ v ≤ b.input

/-- The search finds a segment, from any position on that nothing before reaches the input. -/
theorem exists_isSegment_of_drop {v : ℚ} (rest : List (Breakpoint ℚ)) {points : List (Breakpoint ℚ)}
    {i : ℕ} {a b : Breakpoint ℚ} (h : points.drop i = a :: b :: rest)
    (above : i = 0 ∨ a.input < v) :
    ∃ k, IsSegment points v k (segmentFrom v a b rest).1 (segmentFrom v a b rest).2 := by
  induction rest generalizing i a b with
  | nil =>
    have len := congrArg List.length h
    have ha := congrArg (·[0]?) h
    have hb := congrArg (·[1]?) h
    simp only [List.length_drop, List.length_cons, List.length_nil] at len
    simp only [List.getElem?_drop] at ha hb
    exact ⟨i, ha, hb, above, .inl (by omega)⟩
  | cons d rest ih =>
    have ha := congrArg (·[0]?) h
    have hb := congrArg (·[1]?) h
    simp only [List.getElem?_drop] at ha hb
    rw [segmentFrom]
    by_cases hv : v ≤ b.input
    · rw [if_pos hv]
      exact ⟨i, ha, hb, above, .inr hv⟩
    · rw [if_neg hv]
      have next : points.drop (i + 1) = b :: d :: rest := by
        rw [← List.drop_drop, h]
        rfl
      exact ih next (.inr (not_le.1 hv))

/-- Every input belongs to a segment. -/
theorem exists_isSegment (c : Interpolation ℚ) (v : ℚ) :
    ∃ k, IsSegment c.breakpoints v k (c.segment v).1 (c.segment v).2 :=
  exists_isSegment_of_drop c.rest (i := 0) rfl (.inl rfl)

/-- What does not decrease along a list is ordered as the positions are. -/
theorem le_of_getElem? {points : List (Breakpoint ℚ)} {f : Breakpoint ℚ → ℚ}
    (h : points.Pairwise fun a b => f a ≤ f b) {i j : ℕ} (hij : i ≤ j) {p q : Breakpoint ℚ}
    (hp : points[i]? = some p) (hq : points[j]? = some q) : f p ≤ f q := by
  obtain ⟨hi, rfl⟩ := List.getElem?_eq_some_iff.1 hp
  obtain ⟨hj, rfl⟩ := List.getElem?_eq_some_iff.1 hq
  rcases hij.eq_or_lt with rfl | hlt
  · exact le_rfl
  · exact List.pairwise_iff_getElem.1 h i j hi hj hlt

section Sorted

variable {points : List (Breakpoint ℚ)} (sorted : points.Pairwise fun a b => a.input ≤ b.input)
  {v : ℚ} {k i : ℕ} {a b p : Breakpoint ℚ}

include sorted in
/-- The ends of a segment are in order. -/
theorem IsSegment.le (h : IsSegment points v k a b) : a.input ≤ b.input :=
  le_of_getElem? sorted (Nat.le_succ k) h.left h.right

include sorted in
/-- The segment of an input begins before any breakpoint that is not left of the input, unless it
is the first segment. -/
theorem IsSegment.before (h : IsSegment points v k a b) (hp : points[i]? = some p)
    (hv : v ≤ p.input) : k = 0 ∨ k < i := by
  refine h.above.imp id fun above => ?_
  by_contra hle
  have le : p.input ≤ a.input := le_of_getElem? sorted (not_lt.1 hle) hp h.left
  linarith

include sorted in
/-- The segment of an input is not left of a segment that begins left of the input. -/
theorem IsSegment.after (h : IsSegment points v k a b) (hp : points[i]? = some p)
    (hi : i + 2 ≤ points.length) (hv : p.input < v) : i ≤ k := by
  by_contra hlt
  rw [not_le] at hlt
  rcases h.below with last | below
  · omega
  · have le : b.input ≤ p.input := le_of_getElem? sorted hlt h.right hp
    linarith

end Sorted

/-! ### The polyline -/

/-- A function is the polyline through some points, with a policy on either side. At an input the
first point there counts; between two neighbouring inputs the line does. -/
structure Traces (f : ℚ → ℚ) (points : List (Breakpoint ℚ)) (left right : Extrapolation) :
    Prop where
  at_input : ∀ (i : ℕ) (p : Breakpoint ℚ), points[i]? = some p →
    (∀ (j : ℕ) (q : Breakpoint ℚ), j < i → points[j]? = some q → q.input ≠ p.input) →
      f p.input = p.output
  between : ∀ (i : ℕ) (p q : Breakpoint ℚ) (v : ℚ), points[i]? = some p → points[i + 1]? = some q →
    p.input < v → v < q.input → f v = line p q v
  below : ∀ (p q : Breakpoint ℚ) (v : ℚ), points[0]? = some p → points[1]? = some q →
    v < p.input → f v = outside left p q p.output v
  above : ∀ (i : ℕ) (p q : Breakpoint ℚ) (v : ℚ), i + 2 = points.length → points[i]? = some p →
    points[i + 1]? = some q → q.input < v → f v = outside right p q q.output v

section Polyline

variable {c : Interpolation ℚ} (sorted : c.breakpoints.Pairwise fun a b => a.input ≤ b.input)

include sorted

/-- The value is the one of the segment found. -/
theorem evaluate_eq {v : ℚ} {k : ℕ}
    (h : IsSegment c.breakpoints v k (c.segment v).1 (c.segment v).2) :
    c.evaluate v = c.onSegment (c.segment v).1 (c.segment v).2 v :=
  evaluate_eq_onSegment rfl (h.le sorted)

/-- At an input the first breakpoint there counts: it begins the first segment, or it ends a segment
that begins further left. -/
theorem evaluate_at_input {i : ℕ} {p : Breakpoint ℚ} (hp : c.breakpoints[i]? = some p)
    (first : ∀ (j : ℕ) (q : Breakpoint ℚ), j < i → c.breakpoints[j]? = some q → q.input ≠ p.input) :
    c.evaluate p.input = p.output := by
  obtain ⟨k, h⟩ := c.exists_isSegment p.input
  have order := h.le sorted
  rw [evaluate_eq sorted h]
  generalize (c.segment p.input).1 = a at h order ⊢
  generalize (c.segment p.input).2 = b at h order ⊢
  have upper : k ≤ i := by
    have := h.before sorted hp le_rfl
    omega
  rcases upper.eq_or_lt with rfl | hlt
  · obtain rfl : a = p := Option.some.inj (h.left.symm.trans hp)
    exact onSegment_left order
  · have ahead : a.input ≠ p.input := first k a hlt h.left
    have left : a.input ≤ p.input := le_of_getElem? sorted hlt.le h.left hp
    -- further right than the right end, the point would not be the first at its input
    have last : i = k + 1 := by
      have len := (List.getElem?_eq_some_iff.1 hp).1
      rcases h.below with bottom | below
      · omega
      · by_contra far
        have ahead' : b.input ≠ p.input := first (k + 1) b (by omega) h.right
        have le : b.input ≤ p.input := le_of_getElem? sorted hlt h.right hp
        exact ahead' (le_antisymm le below)
    obtain rfl : b = p := Option.some.inj (h.right.symm.trans (last ▸ hp))
    exact onSegment_right (lt_of_le_of_ne left ahead)

/-- Between two neighbours the line counts that runs from one to the other. -/
theorem evaluate_between {i : ℕ} {p q : Breakpoint ℚ} {v : ℚ} (hp : c.breakpoints[i]? = some p)
    (hq : c.breakpoints[i + 1]? = some q) (hv : p.input < v) (hv' : v < q.input) :
    c.evaluate v = line p q v := by
  obtain ⟨k, h⟩ := c.exists_isSegment v
  have len := (List.getElem?_eq_some_iff.1 hq).1
  have upper := h.before sorted hq hv'.le
  have lower : i ≤ k := h.after sorted hp len hv
  obtain rfl : k = i := by omega
  rw [evaluate_eq sorted h, Option.some.inj (h.left.symm.trans hp),
    Option.some.inj (h.right.symm.trans hq), onSegment, if_neg (not_lt.2 hv.le),
    if_neg (not_lt.2 hv'.le), if_neg (hv.trans hv').ne]

/-- Left of all breakpoints the left policy counts. -/
theorem evaluate_below {p q : Breakpoint ℚ} {v : ℚ} (hp : c.breakpoints[0]? = some p)
    (hq : c.breakpoints[1]? = some q) (hv : v < p.input) :
    c.evaluate v = outside c.left p q p.output v := by
  obtain ⟨k, h⟩ := c.exists_isSegment v
  obtain rfl : k = 0 := (h.before sorted hp hv.le).resolve_right (Nat.not_lt_zero k)
  rw [evaluate_eq sorted h, Option.some.inj (h.left.symm.trans hp),
    Option.some.inj (h.right.symm.trans hq), onSegment, if_pos hv]

/-- Right of all breakpoints the right policy counts. -/
theorem evaluate_above {i : ℕ} {p q : Breakpoint ℚ} {v : ℚ} (hi : i + 2 = c.breakpoints.length)
    (hp : c.breakpoints[i]? = some p) (hq : c.breakpoints[i + 1]? = some q) (hv : q.input < v) :
    c.evaluate v = outside c.right p q q.output v := by
  obtain ⟨k, h⟩ := c.exists_isSegment v
  have ends : p.input ≤ q.input := le_of_getElem? sorted (Nat.le_succ i) hp hq
  have lower : i ≤ k := h.after sorted hp hi.le (ends.trans_lt hv)
  have len := (List.getElem?_eq_some_iff.1 h.right).1
  obtain rfl : k = i := by omega
  rw [evaluate_eq sorted h, Option.some.inj (h.left.symm.trans hp),
    Option.some.inj (h.right.symm.trans hq), onSegment, if_neg (not_lt.2 (ends.trans hv.le)),
    if_pos hv]

/-- **An interpolation whose inputs do not decrease is the polyline through its breakpoints.** -/
theorem traces_evaluate : Traces c.evaluate c.breakpoints c.left c.right where
  at_input _ _ hp first := evaluate_at_input sorted hp first
  between _ _ _ _ hp hq hv hv' := evaluate_between sorted hp hq hv hv'
  below _ _ _ hp hq hv := evaluate_below sorted hp hq hv
  above _ _ _ _ hi hp hq hv := evaluate_above sorted hi hp hq hv

/-- With both sides held, the value lies between two outputs. -/
theorem exists_outputs_around (hl : c.left = .clamp) (hr : c.right = .clamp) (v : ℚ) :
    ∃ lo ∈ c.outputs, ∃ hi ∈ c.outputs, lo ≤ c.evaluate v ∧ c.evaluate v ≤ hi := by
  obtain ⟨k, h⟩ := c.exists_isSegment v
  have ha : (c.segment v).1.output ∈ c.outputs := List.mem_map_of_mem (List.mem_of_getElem? h.left)
  have hb : (c.segment v).2.output ∈ c.outputs := List.mem_map_of_mem (List.mem_of_getElem? h.right)
  rw [evaluate_eq sorted h]
  rcases le_total (c.segment v).1.output (c.segment v).2.output with rises | falls
  · exact ⟨_, ha, _, hb, onSegment_between hl hr (h.le sorted) ⟨le_rfl, rises⟩ ⟨rises, le_rfl⟩⟩
  · exact ⟨_, hb, _, ha, onSegment_between hl hr (h.le sorted) ⟨falls, le_rfl⟩ ⟨le_rfl, falls⟩⟩

/-- If the outputs do not decrease either, and neither side is the identity, the
values do not decrease. -/
theorem monotone_evaluate (rising : c.breakpoints.Pairwise fun a b => a.output ≤ b.output)
    (hl : c.left ≠ .identity) (hr : c.right ≠ .identity) : Monotone c.evaluate := by
  intro v w hvw
  obtain ⟨k, h⟩ := c.exists_isSegment v
  obtain ⟨l, h'⟩ := c.exists_isSegment w
  have len := (List.getElem?_eq_some_iff.1 h.right).1
  have len' := (List.getElem?_eq_some_iff.1 h'.right).1
  have ho := le_of_getElem? rising (Nat.le_succ k) h.left h.right
  have ho' := le_of_getElem? rising (Nat.le_succ l) h'.left h'.right
  have order : k ≤ l := by
    rcases h.above with rfl | above
    · exact Nat.zero_le l
    · exact h'.after sorted h.left len (above.trans_le hvw)
  rw [evaluate_eq sorted h, evaluate_eq sorted h']
  rcases order.eq_or_lt with rfl | hlt
  · rw [Option.some.inj (h'.left.symm.trans h.left), Option.some.inj (h'.right.symm.trans h.right)]
    exact onSegment_mono hl hr (h.le sorted) ho hvw
  · have hv : v ≤ (c.segment v).2.input := h.below.resolve_left (by omega)
    have hw : (c.segment w).1.input < w := h'.above.resolve_left (by omega)
    calc c.onSegment (c.segment v).1 (c.segment v).2 v
        ≤ (c.segment v).2.output := onSegment_le hl (h.le sorted) ho hv
      _ ≤ (c.segment w).1.output := le_of_getElem? rising hlt h.right h'.left
      _ ≤ c.onSegment (c.segment w).1 (c.segment w).2 w :=
        le_onSegment hr (h'.le sorted) ho' hw.le

end Polyline

/-- What decreases nowhere is in order. -/
theorem pairwise_of_not_decreases : ∀ {l : List ℚ}, decreases l = false → l.Pairwise (· ≤ ·)
  | [], _ => .nil
  | [a], _ => List.pairwise_singleton _ a
  | a :: b :: rest, h => by
    obtain ⟨hab, hrest⟩ := Bool.or_eq_false_iff.1 h
    have le : a ≤ b := not_lt.1 (of_decide_eq_false hab)
    have ih := pairwise_of_not_decreases hrest
    refine List.pairwise_cons.2 ⟨fun x hx => ?_, ih⟩
    rcases List.mem_cons.1 hx with rfl | hx
    · exact le
    · exact le.trans ((List.pairwise_cons.1 ih).1 x hx)

/-- **An interpolation is the polyline through the lists that it is made of**, on exact fractions.
The lists are its coordinates; at an input it has the output of the first breakpoint there, between
two neighbouring inputs the one on the line between them, and outside what the policy of the side
says. With both sides held no value lies outside the outputs, and if the outputs do not decrease and
neither side is the identity, the values do not decrease. -/
theorem polyline_exact {inputs outputs : List ℚ} {left right : Extrapolation} {c : Interpolation ℚ}
    (made : ofLists inputs outputs left right = .ok c) :
    c.inputs = inputs ∧ c.outputs = outputs ∧ Traces c.evaluate c.breakpoints left right ∧
      (left = .clamp → right = .clamp → ∀ v, ∃ lo ∈ outputs, ∃ hi ∈ outputs,
        lo ≤ c.evaluate v ∧ c.evaluate v ≤ hi) ∧
      (outputs.Pairwise (· ≤ ·) → left ≠ .identity → right ≠ .identity → Monotone c.evaluate) := by
  obtain ⟨rfl, rfl, rfl, rfl, steady⟩ := ofLists_eq_ok made
  have sorted := List.pairwise_map.1 (pairwise_of_not_decreases steady)
  exact ⟨rfl, rfl, traces_evaluate sorted, exists_outputs_around sorted,
    fun rising => monotone_evaluate sorted (List.pairwise_map.1 rising)⟩

/-- A jump at zero, then a rise, with the left side going on and the right side held. -/
def stairs : Interpolation ℚ := ⟨⟨0, 10⟩, ⟨0, 20⟩, [⟨2, 40⟩], .extend, .clamp⟩

/-- On the jump the lower end counts, in the middle of the rise the mean of its ends, and on either
side the outermost outputs go on. -/
theorem stairs_exact :
    ofLists [0, 0, 2] [10, 20, 40] .extend .clamp = .ok stairs ∧ stairs.evaluate 0 = 10 ∧
      stairs.evaluate 1 = 30 ∧ stairs.evaluate (-5) = 10 ∧ stairs.evaluate 9 = 40 ∧
      Monotone stairs.evaluate := by
  have made : ofLists [0, 0, 2] [10, 20, 40] .extend .clamp = .ok stairs := rfl
  obtain ⟨-, -, traced, -, monotone⟩ := polyline_exact made
  refine ⟨made, ?_, ?_, ?_, ?_, monotone (by decide) (by decide) (by decide)⟩
  · exact traced.at_input 0 ⟨0, 10⟩ rfl fun j _ hj => absurd hj (Nat.not_lt_zero j)
  · rw [traced.between 1 ⟨0, 20⟩ ⟨2, 40⟩ 1 rfl rfl (by norm_num) (by norm_num)]
    norm_num [line]
  · exact traced.below ⟨0, 10⟩ ⟨0, 20⟩ (-5) rfl rfl (by norm_num)
  · exact traced.above 1 ⟨0, 20⟩ ⟨2, 40⟩ 9 rfl rfl rfl (by norm_num)

end MotionGraph.Interpolation
