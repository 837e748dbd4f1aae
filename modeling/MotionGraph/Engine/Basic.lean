import MotionGraph.Engine.Command
import MotionGraph.Engine.FrameLoop
import MotionGraph.Graph.Propagation
import MotionGraph.Settings.Basic

/-!
# The engine

An engine owns a graph and all that moves it: the drivers, the event bindings, the observers and
the frame loop. Commands wait in a queue for the next frame. All that an engine tells its clients is
kept in order (`Engine.journal`); clients may answer a notice with commands (`Engine.host`), which
join the queue at once.

The loop runs while there is work: active drivers, marked nodes, views to be updated.
-/

namespace MotionGraph

/-- An engine; `κ` is the type of its clients' callbacks. -/
structure Engine (κ : Type) where
  settings : Settings
  graph : Graph := {}
  drivers : DriverSet Motion κ
  router : Router
  observers : Observers κ := {}
  loop : FrameLoop
  /-- The props nodes computed since the last batch. -/
  dirty : OrderedSet Tag := ∅
  /-- Updates for the next batch that take back earlier ones. -/
  resets : List ViewUpdate := []
  /-- The commands that wait, the next one first. -/
  queue : List (Command κ) := []
  /-- What clients were told, first to last. -/
  journal : List (Notice κ) := []
  /-- What clients answer to what they are told. -/
  host : Host κ

namespace Engine

variable {κ : Type}

/-- An engine with nothing in it. -/
def new (settings : Settings) (host : Host κ) : Engine κ where
  settings
  drivers := { arbitration := settings.arbitration }
  router := { normalizes := settings.normalizeEvents }
  loop := { interval := settings.defaultInterval, maxDelta := settings.maxDelta }
  host

/-- Whether there is anything to do in a frame. -/
def hasWork (e : Engine κ) : Bool :=
  e.drivers.hasActive || e.graph.isPending || !e.dirty.isEmpty || !e.resets.isEmpty

/-- Asks for ticks. -/
def wake (e : Engine κ) : Engine κ := { e with loop := e.loop.start.1 }

/-- Asks for ticks if there is anything to do. -/
def schedule (e : Engine κ) : Engine κ := if e.hasWork then e.wake else e

/-- Puts a command into the queue and asks for a tick to carry it out. -/
def send (e : Engine κ) (c : Command κ) : Engine κ := { e with queue := e.queue ++ [c] }.wake

/-- Puts several commands into the queue. -/
def sendAll (e : Engine κ) (cs : List (Command κ)) : Engine κ := cs.foldl send e

/-- Tells clients something, and takes the commands they answer with. -/
def notify (e : Engine κ) (n : Notice κ) : Engine κ :=
  { e with journal := e.journal ++ [n] }.sendAll (e.host.answer e.journal n)

/-- Tells the client of an animation that it has ended. -/
def deliver (e : Engine κ) (c : Completion κ) : Engine κ :=
  match c.callback with
  | some callback => e.notify (.ended callback c.report)
  | none => e

/-- Tells the clients of several animations, one after the other. -/
def deliverAll (e : Engine κ) (cs : List (Completion κ)) : Engine κ := cs.foldl deliver e

end Engine

end MotionGraph
