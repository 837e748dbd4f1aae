import MotionGraph.Number.Word

/-!
# Repetition

How often a motion runs: a number of times, or without end. In descriptions `-1` means without
end, and nothing means once.
-/

namespace MotionGraph

/-- How often a motion runs. -/
inductive Iterations where
  | count (runs : Nat)
  | infinite
  deriving DecidableEq, Repr

/-- What keeps a number from being a number of runs. -/
inductive IterationsError where
  /-- It does not fit into 32 bits. -/
  | outOfRange (n : Int)
  /-- It is neither `-1` nor positive. -/
  | notPositive (n : Int)

/-- What the user is told. -/
def IterationsError.message : IterationsError → String
  | .outOfRange n => "iterations " ++ toString n ++ " out of range"
  | .notPositive n => "iterations must be -1 or at least 1, got " ++ toString n

namespace Iterations

/-- The repetition that a description asks for. -/
def ofInt? : Option Int → Except IterationsError Iterations
  | none => .ok (.count 1)
  | some n =>
    if n = -1 then .ok .infinite
    else if n < 1 then .error (.notPositive n)
    else if n < Word.size 32 then .ok (.count n.toNat)
    else .error (.outOfRange n)

/-- Whether another run follows. -/
def continuesAfter (i : Iterations) (completed : Nat) : Bool :=
  match i with
  | .count runs => completed < runs
  | .infinite => true

end Iterations

end MotionGraph
