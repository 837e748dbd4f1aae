/-!
# The numbers that curves compute with

Curves that use only field operations and comparisons are written once for every `Scalar`. The
engine runs them on doubles; read on exact fractions, the same definitions are the mathematical
curves.
-/

namespace MotionGraph

/-- Numbers with field operations, decimal literals and decidable comparisons. -/
class Scalar (α : Type) extends Add α, Sub α, Mul α, Div α, Neg α, LT α, LE α, BEq α,
    OfScientific α where
  /-- Whether a number is neither infinite nor undefined. -/
  isFinite : α → Bool
  /-- Strict comparison is decided. -/
  decLT : DecidableLT α
  /-- Weak comparison is decided. -/
  decLE : DecidableLE α

instance Scalar.decidableLT {α : Type} [Scalar α] : DecidableLT α := Scalar.decLT

instance Scalar.decidableLE {α : Type} [Scalar α] : DecidableLE α := Scalar.decLE

instance : Scalar Float where
  isFinite := Float.isFinite
  decLT := inferInstance
  decLE := inferInstance

instance : Scalar Rat where
  isFinite := fun _ => true
  decLT := inferInstance
  decLE := inferInstance

/-- The magnitude of a number. -/
def Scalar.abs {α : Type} [Scalar α] (x : α) : α := if x < 0.0 then -x else x

end MotionGraph
