import MotionGraph.Number.Binary64

/-!
# The fewest decimal digits that read back

`Decimal.shortest` gives for a positive double `m · 2 ^ q` a decimal `d · 10 ^ k` that lies among
the reals which round to it, on the coarsest decimal grid that has such a point, and there the
nearest to the double. All comparisons are between natural numbers.

The reals that round to `m · 2 ^ q` reach half a unit up and half a unit down, or a quarter of a
unit down where the spacing of doubles changes; the ends belong to them if `m` is even.
-/

namespace MotionGraph

/-- A decimal number `digits · 10 ^ exponent`. -/
structure Decimal where
  /-- The digits, read as one number. -/
  digits : Nat
  /-- The power of ten that the last digit stands at. -/
  exponent : Int
  deriving DecidableEq, Repr

namespace Decimal

/-- Which of two equally near grid points is taken. -/
inductive Tie where
  /-- The greater. -/
  | up
  /-- The one whose last digit is even. -/
  | even
  deriving DecidableEq, Repr

/-- A number of quarter units of the double's last place, brought to the common denominator of
that place and of the grid `10 ^ k`. -/
def quarters (b : Binary64) (k : Int) (n : Nat) : Nat :=
  n * Nat.pow 2 b.exponent.toNat * Nat.pow 10 (-k).toNat

/-- A number of grid steps `10 ^ k`, brought to the denominator of `quarters`. -/
def steps (b : Binary64) (k : Int) (n : Nat) : Nat :=
  4 * n * Nat.pow 10 k.toNat * Nat.pow 2 (-b.exponent).toNat

/-- How many quarter units below the double still round to it. -/
def reachDown (b : Binary64) : Nat :=
  if b.mantissa = Binary64.leastNormal ∧ Binary64.minExponent < b.exponent then 1 else 2

/-- Whether the grid point `n · 10 ^ k` rounds to the double. -/
def readsBack (b : Binary64) (k : Int) (n : Nat) : Bool :=
  let point := steps b k n
  let low := quarters b k (4 * b.mantissa - reachDown b)
  let high := quarters b k (4 * b.mantissa + 2)
  if b.mantissa % 2 = 0 then low ≤ point && point ≤ high else low < point && point < high

/-- The grid point at `10 ^ k` that rounds to the double and is nearest to it, if there is one. -/
def onGrid? (tie : Tie) (b : Binary64) (k : Int) : Option Nat :=
  let value := quarters b k (4 * b.mantissa)
  let below := value / steps b k 1
  match readsBack b k below, readsBack b k (below + 1) with
  | false, false => none
  | true, false => some below
  | false, true => some (below + 1)
  | true, true =>
    let down := value - steps b k below
    let up := steps b k (below + 1) - value
    if down < up then some below
    else if up < down then some (below + 1)
    else match tie with
      | .up => some (below + 1)
      | .even => some (if below % 2 = 0 then below else below + 1)

/-- Tries ever finer grids from `10 ^ k` on, at most the given number of them. -/
def search (tie : Tie) (b : Binary64) : Nat → Int → Decimal
  | 0, k => ⟨quarters b k (4 * b.mantissa) / steps b k 1, k⟩
  | tries + 1, k =>
    match onGrid? tie b k with
    | some n => ⟨n, k⟩
    | none => search tie b tries (k - 1)

/-- The power of ten next above the double, or the one after it. -/
def orderAbove (b : Binary64) : Int :=
  (b.mantissa.log2 + b.exponent) * 30103 / 100000 + 2

/-- The shortest decimal that reads back as the given positive double. Seventeen digits always
suffice, so twenty grids do. -/
def shortest (tie : Tie) (b : Binary64) : Decimal := search tie b 20 (orderAbove b)

end Decimal

end MotionGraph
