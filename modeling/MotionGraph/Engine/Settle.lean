import MotionGraph.Engine.Basic

/-!
# Settling

After changes the engine propagates values until nothing is marked any more, or as often as the
settings allow. Between two propagations it tells the observers, starts the animations that
tracking nodes ask for, and carries out the writes that expressions ask for.
-/

namespace MotionGraph.Engine

variable {κ : Type}

/-- Starts a driver. The client of one that it replaces is told. -/
def startDriver (e : Engine κ) (d : Driver Motion κ) : Engine κ :=
  let (drivers, replaced) := e.drivers.start d
  { e with drivers }.deliverAll replaced.toList

/-- Starts the animation that a tracking node asks for, unless its description is wrong. -/
def startTracking (e : Engine κ) (r : TrackingRequest) : Engine κ :=
  match Motion.ofJson r.config with
  | .ok (animation, iterations) =>
    e.startDriver { id := r.animation, target := r.target, animation, iterations }
  | .error _ => e

/-- Tells the observers of computed nodes what is news to them. -/
def tellObservers (e : Engine κ) (computed : List Tag) : Engine κ :=
  let (observers, told) := e.observers.notify e.graph computed
  told.foldl (fun e o => e.notify (.value o)) { e with observers }

/-- Propagates once. -/
def settleOnce (e : Engine κ) : Engine κ × Pass :=
  let (graph, pass) := e.graph.propagate
  let e := { e with graph }.tellObservers pass.recomputed
  let e := { e with dirty := e.dirty.insertAll pass.sinks.toList }
  let e := pass.requests.foldl startTracking e
  ({ e with graph := (e.graph.applyWrites pass.writes).1 }, pass)

/-- Propagates until nothing is marked, at most so many times, and adds up what was done. -/
def settleUpTo : Nat → Engine κ → Pass → Engine κ × Pass
  | 0, e, done => (e, done)
  | passes + 1, e, done =>
    if e.graph.isPending then
      let (e, pass) := e.settleOnce
      settleUpTo passes e (done.append pass)
    else (e, done)

/-- Propagates until nothing is marked, as often as the settings allow. -/
def settle (e : Engine κ) : Engine κ × Pass := settleUpTo e.settings.maxSettlePasses e {}

end MotionGraph.Engine
