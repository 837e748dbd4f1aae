import MotionGraph.Number.Word

/-!
# Doubles as exact binary fractions

A finite double is `± m · 2 ^ q` with a natural `m` and an integer `q`. `Binary64` holds these
three parts, `Binary64.ofFloat?` reads them off the bits of a double, and `Binary64.toFloat` puts
them back. Two operations are computed exactly on the parts: the remainder of a division
(`Double.remainder`) and the nearest natural number (`Double.nearestNat?`).
-/

namespace MotionGraph

/-- A finite double in parts: its magnitude is `mantissa · 2 ^ exponent`. -/
structure Binary64 where
  /-- Whether the sign bit is set; it also tells the two zeros apart. -/
  negative : Bool
  /-- The integer part of the fraction. -/
  mantissa : Nat
  /-- The power of two it is scaled by. -/
  exponent : Int
  deriving DecidableEq, Repr

namespace Binary64

/-- The least exponent of a double; that of the subnormal numbers. -/
def minExponent : Int := -1074

/-- The least mantissa of full width; smaller ones are those of the subnormal numbers. -/
def leastNormal : Nat := Word.size 52

/-- The parts of a finite double; infinities and NaN have none. -/
def ofFloat? (x : Float) : Option Binary64 :=
  let bits := x.toBits.toNat
  let field := bits / leastNormal % Word.size 11
  let fraction := bits % leastNormal
  let negative := bits / Word.size 63 = 1
  if field = Word.size 11 - 1 then none
  else if field = 0 then some ⟨negative, fraction, minExponent⟩
  else some ⟨negative, leastNormal + fraction, Int.ofNat field - 1075⟩

/-- The double with the given parts, for a mantissa below `2 ^ 53` and an exponent that a double
can have once the mantissa is shifted to its full width. -/
def toFloat (b : Binary64) : Float :=
  let room := 53 - (b.mantissa.log2 + 1)
  let shift := min room (b.exponent - minExponent).toNat
  let mantissa := b.mantissa * Nat.pow 2 shift
  let exponent := b.exponent - shift
  let magnitude :=
    if mantissa < leastNormal then mantissa
    else (exponent - minExponent + 1).toNat * leastNormal + (mantissa - leastNormal)
  Float.ofBits (.ofNat (if b.negative then Word.size 63 + magnitude else magnitude))

end Binary64

namespace Double

/-- The value that is not a number. -/
def nan : Float := 0.0 / 0.0

/-- Positive infinity. -/
def infinity : Float := 1.0 / 0.0

/-- The remainder of `x / y` truncated toward zero: exact, with the sign of `x`. Division by an
infinity leaves a finite `x` as it is; without a quotient there is no number. -/
def remainder (x y : Float) : Float :=
  match Binary64.ofFloat? x, Binary64.ofFloat? y with
  | some a, some b =>
    if b.mantissa = 0 then nan
    else
      let q := min a.exponent b.exponent
      let n := a.mantissa * Nat.pow 2 (a.exponent - q).toNat
      let d := b.mantissa * Nat.pow 2 (b.exponent - q).toNat
      Binary64.toFloat ⟨a.negative, n % d, q⟩
  | some _, none => if y.isNaN then nan else x
  | none, _ => nan

/-- The natural number nearest to `x`, a half going up. Negative values and NaN count as zero;
positive infinity has no nearest number. -/
def nearestNat? (x : Float) : Option Nat :=
  match Binary64.ofFloat? x with
  | some b =>
    if b.negative then some 0
    else if 0 ≤ b.exponent then some (b.mantissa * Nat.pow 2 b.exponent.toNat)
    else
      let d := Nat.pow 2 (-b.exponent).toNat
      some ((2 * b.mantissa + d) / (2 * d))
  | none => if x > 0 then none else some 0

/-- Whether two doubles are the same datum: the two zeros differ, NaN is itself. `Float` has one
NaN only, so that NaNs of different bits count as the same. -/
def same (x y : Float) : Bool := x.toBits == y.toBits

/-- The greater of two doubles; the other one if either is not a number. -/
def maxNum (x y : Float) : Float :=
  if x.isNaN then y else if y.isNaN then x else if x < y then y else x

/-- The lesser of two doubles; the other one if either is not a number. -/
def minNum (x y : Float) : Float :=
  if x.isNaN then y else if y.isNaN then x else if y < x then y else x

/-- `x` brought into `[lo, hi]`; NaN stays. -/
def clamp (x lo hi : Float) : Float :=
  if x < lo then lo else if hi < x then hi else x

end Double

end MotionGraph
