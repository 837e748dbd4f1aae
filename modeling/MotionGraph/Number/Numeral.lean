/-!
# Decimal numerals

A numeral is an optional sign, digits around an optional decimal point and an optional power of
ten. `Numeral.scan?` splits a text into these parts without deciding which parts must be there:
each format that holds numerals has its own opinion on that. `Numeral.toFloat` is the double
nearest to the number written.
-/

namespace MotionGraph

/-- A sign in front of a numeral. -/
inductive NumeralSign where
  | absent
  | plus
  | minus
  deriving DecidableEq, Repr

/-- The parts of a decimal numeral. -/
structure Numeral where
  sign : NumeralSign
  /-- The digits before the point. -/
  whole : List Char
  /-- The digits after the point, if there is a point. -/
  fraction : Option (List Char)
  /-- The power of ten, if one is written. -/
  exponent : Option Int
  deriving DecidableEq, Repr

namespace Numeral

/-- The number that decimal digits spell. -/
def digitsValue (cs : List Char) : Nat :=
  cs.foldl (fun n c => 10 * n + (c.toNat - '0'.toNat)) 0

/-- Splits off a leading sign. -/
def splitSign : List Char → NumeralSign × List Char
  | '+' :: cs => (.plus, cs)
  | '-' :: cs => (.minus, cs)
  | cs => (.absent, cs)

/-- Reads what follows the mark of a power of ten: a sign and at least one digit. -/
def scanExponent? (cs : List Char) : Option Int :=
  let (sign, digits) := splitSign cs
  if digits.isEmpty || !digits.all Char.isDigit then none
  else
    let n : Int := digitsValue digits
    some (if sign = .minus then -n else n)

/-- Reads what follows the digits: nothing, or a power of ten. -/
def scanPower? : List Char → Option (Option Int)
  | [] => some none
  | c :: cs => if c = 'e' ∨ c = 'E' then (scanExponent? cs).map some else none

/-- The parts of a text that is a numeral from end to end. -/
def scan? (text : List Char) : Option Numeral :=
  let (sign, cs) := splitSign text
  let whole := cs.takeWhile Char.isDigit
  match cs.dropWhile Char.isDigit with
  | '.' :: rest =>
    (scanPower? (rest.dropWhile Char.isDigit)).map fun power =>
      ⟨sign, whole, some (rest.takeWhile Char.isDigit), power⟩
  | rest => (scanPower? rest).map fun power => ⟨sign, whole, none, power⟩

/-- Whether any digit is written before the power of ten. -/
def hasDigits (n : Numeral) : Bool := !n.whole.isEmpty || !(n.fraction.getD []).isEmpty

/-- Whether the numeral is written as an integer, with neither point nor power. -/
def isInteger (n : Numeral) : Bool := n.fraction.isNone && n.exponent.isNone

/-- All digits, as one number. -/
def mantissa (n : Numeral) : Nat := digitsValue (n.whole ++ n.fraction.getD [])

/-- The power of ten that the last digit stands at. -/
def scale (n : Numeral) : Int := n.exponent.getD 0 - (n.fraction.getD []).length

/-- The integer that the digits before the point spell, with the sign. -/
def toInt (n : Numeral) : Int :=
  let magnitude : Int := digitsValue n.whole
  if n.sign = .minus then -magnitude else magnitude

/-- The double nearest to the number. Powers so far out that the result is zero or infinite are
not computed. -/
def toFloat (n : Numeral) : Float :=
  let m := n.mantissa
  let order := (toString m).length + n.scale
  let magnitude : Float :=
    if m = 0 ∨ order < -400 then 0.0
    else if 400 < order then 1.0 / 0.0
    else Float.ofScientific m (n.scale < 0) n.scale.natAbs
  if n.sign = .minus then -magnitude else magnitude

end Numeral

end MotionGraph
