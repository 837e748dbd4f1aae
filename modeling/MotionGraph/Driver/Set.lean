import MotionGraph.Driver.Basic
import MotionGraph.Graph.Basic

/-!
# The drivers at work

Drivers are kept in the order in which they were started, one for each animation. In every frame
all of them go on; where several drive one node, a policy decides whose value it gets
(`Arbitration`). Drivers that are over are handed out.
-/

namespace MotionGraph

/-- Which of several drivers of one node has its way. -/
inductive Arbitration where
  /-- The one started last. -/
  | lastWriteWins
  /-- The one started first. -/
  | firstWriteWins
  deriving DecidableEq, Repr

/-- The name of a policy. -/
def Arbitration.name : Arbitration → String
  | .lastWriteWins => "LastWriteWins"
  | .firstWriteWins => "FirstWriteWins"

/-- The policy of a name. -/
def Arbitration.ofName? : String → Option Arbitration
  | "LastWriteWins" => some .lastWriteWins
  | "FirstWriteWins" => some .firstWriteWins
  | _ => none

/-- The drivers at work, in the order of their start. -/
structure DriverSet (α κ : Type) where
  drivers : OrderedMap AnimationId (Driver α κ) := ∅
  arbitration : Arbitration := .lastWriteWins

/-- What a frame did. -/
structure StepReport (κ : Type) where
  /-- The values written, one for each node. -/
  written : Writes := []
  /-- The drivers that are over. -/
  completions : List (Completion κ) := []
  /-- How many values had to give way. -/
  conflicts : Nat := 0

namespace DriverSet

variable {α κ : Type}

/-- The driver of an animation. -/
def get? (s : DriverSet α κ) (id : AnimationId) : Option (Driver α κ) := s.drivers.get? id

/-- Number of drivers. -/
def size (s : DriverSet α κ) : Nat := s.drivers.size

/-- Whether there is no driver. -/
def isEmpty (s : DriverSet α κ) : Bool := s.drivers.isEmpty

/-- Whether any driver goes on. -/
def hasActive (s : DriverSet α κ) : Bool := s.drivers.values.any fun d => d.state.isActive

/-- Stops the driver of an animation and hands it out. -/
def stop (s : DriverSet α κ) (id : AnimationId) : DriverSet α κ × Option (Completion κ) :=
  match s.get? id with
  | some d => ({ s with drivers := s.drivers.erase id }, some d.stop.completion)
  | none => (s, none)

/-- Starts a driver. One already at work for the same animation is stopped and handed out. -/
def start (s : DriverSet α κ) (d : Driver α κ) : DriverSet α κ × Option (Completion κ) :=
  let (s, replaced) := s.stop d.id
  ({ s with drivers := s.drivers.insert d.id d }, replaced)

/-- Stops the drivers of several animations. -/
def stopAll (s : DriverSet α κ) : List AnimationId → DriverSet α κ × List (Completion κ)
  | [] => (s, [])
  | id :: ids =>
    let (s, completion) := s.stop id
    let (s, rest) := stopAll s ids
    (s, completion.toList ++ rest)

/-- Stops all drivers of a node. -/
def stopTargeting (s : DriverSet α κ) (t : Tag) : DriverSet α κ × List (Completion κ) :=
  s.stopAll ((s.drivers.values.filter fun d => d.target = t).map Driver.id)

/-! ### One frame -/

/-- A driver goes on to a frame. One whose node is gone, or holds no number, is stopped. -/
def advance [Animation α] (now : Float) (g : Graph) (d : Driver α κ) :
    Driver α κ × Option (Tag × Float) :=
  if d.state.isActive then
    match g.holder d.target with
    | .ok n =>
      let (moved, x) := d.step now n.base
      (moved, x.map fun x => (d.target, x))
    | .error _ => (d.stop, none)
  else (d, none)

/-- The values that the nodes get, in the order in which each was first written, and the number
of values that had to give way. -/
def arbitrate (policy : Arbitration) : OrderedMap Tag Float → Writes → OrderedMap Tag Float × Nat
  | kept, [] => (kept, 0)
  | kept, (t, x) :: ws =>
    if kept.contains t then
      let kept := match policy with
        | .lastWriteWins => kept.insert t x
        | .firstWriteWins => kept
      let (kept, conflicts) := arbitrate policy kept ws
      (kept, conflicts + 1)
    else arbitrate policy (kept.insert t x) ws

/-- Writes values into their nodes, and lists those that could be written. -/
def write (g : Graph) : Writes → Graph × Writes
  | [] => (g, [])
  | (t, x) :: ws =>
    match g.setBase t x with
    | .ok (g, _) =>
      let (g, written) := write g ws
      (g, (t, x) :: written)
    | .error _ => write g ws

/-- All drivers go on to a frame. -/
def step [Animation α] (s : DriverSet α κ) (now : Float) (g : Graph) :
    DriverSet α κ × Graph × StepReport κ :=
  let moved := s.drivers.map fun _ d => (advance now g d).1
  let (kept, conflicts) :=
    arbitrate s.arbitration ∅ (s.drivers.values.filterMap fun d => (advance now g d).2)
  let (g, written) := write g kept.toList
  let ended := moved.values.filter fun d => !d.state.isActive
  ({ s with drivers := moved.filter fun _ d => d.state.isActive }, g,
    { written, conflicts, completions := ended.map Driver.completion })

end DriverSet

end MotionGraph
