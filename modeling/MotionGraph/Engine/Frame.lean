import MotionGraph.Engine.Operations
import MotionGraph.Number.Word

/-!
# Frames

At every tick the engine carries out the commands that wait, moves the drivers, settles, hands all
updates to the views in one batch, tells the clients of animations that have ended, and declines
further ticks if nothing is left to do.
-/

namespace MotionGraph

/-- A command that was refused. -/
structure CommandFailure where
  /-- The name of the command. -/
  command : String
  cause : EngineError

/-- What a frame did. -/
structure FrameReport where
  /-- The number of the frame. -/
  frame : Nat
  /-- The time of the engine, in milliseconds. -/
  now : Float
  /-- How many commands were refused. -/
  commandFailures : Nat
  /-- How many values drivers wrote. -/
  driverWrites : Nat
  /-- How many updates went to views. -/
  viewUpdates : Nat
  /-- How many animations ended. -/
  completed : Nat

namespace Engine

variable {κ : Type}

/-- Carries out commands that wait, at most so many; those that join the queue meanwhile count,
too. Lists those that were refused. -/
def drainUpTo : Nat → Engine κ → Engine κ × List CommandFailure
  | 0, e => (e, [])
  | limit + 1, e =>
    match e.queue with
    | [] => (e, [])
    | c :: rest =>
      let e := { e with queue := rest }
      match e.execute c with
      | .ok e => drainUpTo limit e
      | .error cause =>
        let (e, failures) := drainUpTo limit e
        (e, ⟨c.name, cause⟩ :: failures)

/-- How many commands one frame carries out at most. -/
def commandLimit (e : Engine κ) : Nat := e.settings.maxCommands.getD (Word.size 64 - 1)

/-- Carries out the commands that wait, as many as the settings allow. -/
def drain (e : Engine κ) : Engine κ × List CommandFailure := drainUpTo e.commandLimit e

/-- Takes the updates of props nodes that have any. -/
def takeUpdates (g : Graph) : List Tag → Graph × List ViewUpdate
  | [] => (g, [])
  | t :: ts =>
    let (g, u) := g.takeUpdate t
    let (g, us) := takeUpdates g ts
    (g, u.toList ++ us)

/-- Hands all updates to the views: first those that take back earlier ones, then those of the
props nodes computed since the last batch. Counts them. -/
def flush (e : Engine κ) (frame : Nat) : Engine κ × Nat :=
  let (graph, updates) := takeUpdates e.graph e.dirty.toList
  let updates := e.resets ++ updates
  let e := { e with graph, dirty := ∅, resets := [] }
  (if updates.isEmpty then e else e.notify (.batch ⟨frame, updates⟩), updates.length)

/-- Declines further ticks if nothing is left to do. Commands that wait ask for a new start. -/
def rest (e : Engine κ) : Engine κ :=
  if e.hasWork then e
  else
    let e := { e with loop := e.loop.stop.1 }
    if e.queue.isEmpty then e else e.wake

/-- A frame at a time of the host, in milliseconds. -/
def onFrame (e : Engine κ) (host : Float) : Engine κ × FrameReport :=
  let (e, failures) := e.drain
  let (loop, timing) := e.loop.tick host
  let (drivers, graph, step) := e.drivers.step timing.now e.graph
  let e := { e with loop, drivers, graph }.settle.1
  let (e, viewUpdates) := e.flush timing.frame
  ((e.deliverAll step.completions).rest,
    { frame := timing.frame
      now := timing.now
      commandFailures := failures.length
      driverWrites := step.written.length
      viewUpdates
      completed := step.completions.length })

/-- Frames at fixed intervals as long as the engine asks for ticks, at most so many. Gives the
time of the last of them. -/
def run (interval : Float) : Nat → Engine κ → Float → Engine κ × Float × List FrameReport
  | 0, e, now => (e, now, [])
  | ticks + 1, e, now =>
    if e.loop.link.running then
      let now := now + interval
      let (e, report) := e.onFrame now
      let (e, now, reports) := run interval ticks e now
      (e, now, report :: reports)
    else (e, now, [])

end Engine

end MotionGraph
