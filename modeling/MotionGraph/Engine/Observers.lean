import MotionGraph.Graph.Basic

/-!
# Observers

An observer hears of the values of one node. It is called when the node has been computed and its
value differs from the one it heard last; NaN differs from everything.
-/

namespace MotionGraph

/-- An observer and the value it heard last. -/
structure Observer (κ : Type) where
  callback : κ
  last : Option Float := none

/-- Whether a value is news to an observer. -/
def Observer.isNews {κ : Type} (o : Observer κ) (x : Float) : Bool :=
  match o.last with
  | some last => last != x
  | none => true

/-- A value for an observer. -/
structure Observation (κ : Type) where
  callback : κ
  tag : Tag
  value : Float

/-- The observers, one for each node. -/
structure Observers (κ : Type) where
  byTag : OrderedMap Tag (Observer κ) := ∅

namespace Observers

variable {κ : Type}

/-- Observes a node, in place of an earlier observer. -/
def insert (o : Observers κ) (t : Tag) (callback : κ) : Observers κ :=
  ⟨o.byTag.insert t { callback }⟩

/-- Observes a node no more. -/
def erase (o : Observers κ) (t : Tag) : Observers κ := ⟨o.byTag.erase t⟩

/-- Whether a node is observed. -/
def contains (o : Observers κ) (t : Tag) : Bool := o.byTag.contains t

/-- The value of a node, if someone is to hear it. -/
def observation? (o : Observers κ) (g : Graph) (t : Tag) : Option (Observation κ) := do
  let observer ← o.byTag.get? t
  let x ← g.value? t
  if observer.isNews x then some ⟨observer.callback, t, x⟩ else none

/-- Tells the observers of computed nodes what is news to them; lists what was told. -/
def notify (g : Graph) : Observers κ → List Tag → Observers κ × List (Observation κ)
  | o, [] => (o, [])
  | o, t :: ts =>
    match o.observation? g t with
    | some told =>
      let heard := o.byTag.modify t fun observer => { observer with last := some told.value }
      let (o, rest) := notify g ⟨heard⟩ ts
      (o, told :: rest)
    | none => notify g o ts

end Observers

end MotionGraph
