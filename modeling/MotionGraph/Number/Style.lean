import MotionGraph.Number.Shortest

/-!
# How numbers are written

`NumberStyle` records the decisions of a number format: which magnitudes are written positionally,
whether a whole number keeps a fraction, how ties between equally short texts go. Three formats
are used: `NumberStyle.message` inside messages, `NumberStyle.settings` in settings texts and
`NumberStyle.data` in data.
-/

namespace MotionGraph

/-- The decisions of a number format. -/
structure NumberStyle where
  /-- Where the decimal point may stand, counted from the first digit, for a positional text; if
  absent, every number is written positionally. -/
  window : Option (Int × Int)
  /-- Whether a whole number is written with `.0`. -/
  keepsFraction : Bool
  /-- Which of two equally short and equally near texts is written. -/
  tie : Decimal.Tie

namespace NumberStyle

/-- In messages numbers never carry an exponent, and whole numbers no fraction. -/
def message : NumberStyle := ⟨none, false, .up⟩

/-- In settings numbers never carry an exponent, and always a fraction. -/
def settings : NumberStyle := ⟨none, true, .up⟩

/-- In data numbers below `10 ^ 16` and from `10 ^ (-5)` on are positional, with a fraction. -/
def data : NumberStyle := ⟨some (-4, 16), true, .even⟩

/-- A row of zeros. -/
def zeros (n : Nat) : String := String.ofList (List.replicate n '0')

/-- The text of digits with the decimal point after the first `point` of them. -/
def positional (style : NumberStyle) (digits : List Char) (point : Int) : String :=
  let count : Int := digits.length
  if point ≤ 0 then "0." ++ zeros (-point).toNat ++ String.ofList digits
  else if count ≤ point then
    String.ofList digits ++ zeros (point - count).toNat ++ if style.keepsFraction then ".0" else ""
  else String.ofList (digits.take point.toNat) ++ "." ++ String.ofList (digits.drop point.toNat)

/-- The text of digits with one before the decimal point and a signed power of ten. -/
def scientific (digits : List Char) (point : Int) : String :=
  let power := point - 1
  let fraction := digits.drop 1
  String.ofList (digits.take 1) ++ (if fraction.isEmpty then "" else "." ++ String.ofList fraction)
    ++ "e" ++ (if power < 0 then "-" else "+") ++ toString power.natAbs

/-- The text of a positive decimal. -/
def ofDecimal (style : NumberStyle) (d : Decimal) : String :=
  let digits := (toString d.digits).toList
  let point := digits.length + d.exponent
  match style.window with
  | none => style.positional digits point
  | some (least, most) =>
    if least ≤ point ∧ point ≤ most then style.positional digits point
    else scientific digits point

/-- The text of a double. -/
def render (style : NumberStyle) (x : Float) : String :=
  match Binary64.ofFloat? x with
  | none => if x.isNaN then "NaN" else if x < 0 then "-inf" else "inf"
  | some b =>
    let magnitude :=
      if b.mantissa = 0 then if style.keepsFraction then "0.0" else "0"
      else style.ofDecimal (Decimal.shortest style.tie b)
    if b.negative then "-" ++ magnitude else magnitude

end NumberStyle

end MotionGraph
