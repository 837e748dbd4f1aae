import MotionGraph.Number.Binary64
import MotionGraph.Number.Numeral
import MotionGraph.Number.Word
import MotionGraph.Text.Identifier

/-!
# What the words of a settings text say

A word is a name, a truth value, an integer or a double, and it is read from end to end. Behind the
digits of a number its type may be written (`250u64`, `1e3f64`).
-/

namespace MotionGraph.Settings

/-! ### Names -/

/-- Whether a marked name may hold a character. -/
def isMarkedNameChar (c : Char) : Bool :=
  c = '.' || c = '+' || c = '-' || Identifier.isFurther c

/-- The name that a word spells. Behind the mark `r#` a name may begin with any of its characters,
and hold points and signs. -/
def name? : List Char → Option (List Char)
  | 'r' :: '#' :: cs => if cs.isEmpty || !cs.all isMarkedNameChar then none else some cs
  | cs => if Identifier.isName cs then some cs else none

/-- The truth value of a word. -/
def truth? (cs : List Char) : Option Bool :=
  if cs = "true".toList then some true else if cs = "false".toList then some false else none

/-! ### Integers -/

/-- A type of integers. -/
structure IntegerType where
  /-- How it is written behind the digits. -/
  name : List Char
  /-- Integers from zero up lie below this. -/
  above : Nat
  /-- Negative integers are at most so far from zero. -/
  below : Nat

namespace IntegerType

/-- Integers from zero up, in so many bits. -/
def unsigned (name : String) (bits : Nat) : IntegerType := ⟨name.toList, Word.size bits, 0⟩

/-- Integers on both sides of zero, in so many bits and one more for the sign. -/
def signed (name : String) (bits : Nat) : IntegerType :=
  ⟨name.toList, Word.size bits, Word.size bits⟩

/-- Integers of 32 bits from zero up. -/
def u32 : IntegerType := unsigned "u32" 32

/-- Integers of 64 bits from zero up. -/
def u64 : IntegerType := unsigned "u64" 64

/-- All types of integers. -/
def all : List IntegerType :=
  [signed "i8" 7, signed "i16" 15, signed "i32" 31, signed "i64" 63,
   unsigned "u8" 8, unsigned "u16" 16, u32, u64]

/-- Whether an integer is of a type, given its sign and how far from zero it is. -/
def holds (t : IntegerType) (sign : NumeralSign) (n : Nat) : Bool :=
  if sign = .minus then n ≤ t.below else n < t.above

end IntegerType

/-- The value of a digit in any base up to sixteen. -/
def digit? (c : Char) : Option Nat :=
  if c.isDigit then some (c.toNat - '0'.toNat)
  else if 'a' ≤ c && c ≤ 'f' then some (c.toNat - 'a'.toNat + 10)
  else if 'A' ≤ c && c ≤ 'F' then some (c.toNat - 'A'.toNat + 10)
  else none

/-- Whether a character is a digit, or an underscore between digits. -/
def isDigitOrGap (c : Char) : Bool := c = '_' || (digit? c).isSome

/-- An integer without the type behind its digits. In bases eight and sixteen no type is written:
the mark of the base would be taken for the beginning of the type. -/
def IntegerType.dropName (t : IntegerType) (cs : List Char) : List Char :=
  if cs.dropWhile isDigitOrGap = t.name then cs.takeWhile isDigitOrGap else cs

/-- The base that an integer is written in, and what is left of it. -/
def splitBase : List Char → Nat × List Char
  | '0' :: 'x' :: cs => (16, cs)
  | '0' :: 'o' :: cs => (8, cs)
  | '0' :: 'b' :: cs => (2, cs)
  | cs => (10, cs)

/-- The number that digits spell, after the number spelled so far. Underscores count for
nothing. -/
def digits? (base : Nat) (n : Nat) : List Char → Option Nat
  | [] => some n
  | c :: cs =>
    if c = '_' then digits? base n cs
    else
      match digit? c with
      | some d => if d < base then digits? base (base * n + d) cs else none
      | none => none

/-- The number that an integer without a sign spells. -/
def magnitude? (cs : List Char) : Option Nat :=
  let (base, cs) := splitBase cs
  if cs.isEmpty || cs.head? = some '_' then none else digits? base 0 cs

/-- How far from zero the integer is that a word spells, if it is of a type. For a type that has no
negative integers, this is the integer itself. -/
def integer? (t : IntegerType) (cs : List Char) : Option Nat := do
  let (sign, cs) := Numeral.splitSign cs
  let n ← magnitude? (t.dropName cs)
  if t.holds sign n then some n else none

/-! ### Doubles -/

/-- A numeral without its underscores, which stand after digits and marks of a power only. -/
def dropUnderscores? (allowed : Bool) : List Char → Option (List Char)
  | [] => some []
  | c :: cs =>
    if c = '_' then if allowed then dropUnderscores? allowed cs else none
    else
      let allowed :=
        if c.isDigit || c = 'e' || c = 'E' then true else if c = '.' then false else allowed
      (dropUnderscores? allowed cs).map (c :: ·)

/-- A word without a type written at its end. -/
def dropType (type : String) (cs : List Char) : List Char :=
  if type.toList.isSuffixOf cs then cs.take (cs.length - type.length) else cs

/-- The double that a word spells, which may end in the given type. -/
def double? (type : String) (cs : List Char) : Option Float := do
  let cs := dropType type cs
  let (sign, rest) := Numeral.splitSign cs
  if rest = "inf".toList then
    some (if sign = .minus then -Double.infinity else Double.infinity)
  else if rest = "NaN".toList then some Double.nan
  else
    let n ← Numeral.scan? (← dropUnderscores? false cs)
    if n.hasDigits then some n.toFloat else none

/-- Whether a word spells a number of any type. A decimal integer that is too large for all types of
integers is a double. -/
def isNumber (cs : List Char) : Bool :=
  (IntegerType.all.any fun t => (integer? t cs).isSome)
    || ["f32", "f64"].any fun type => (double? type cs).isSome

end MotionGraph.Settings
