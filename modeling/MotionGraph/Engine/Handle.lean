import MotionGraph.Engine.Frame

/-!
# Handles

Clients elsewhere hold a handle, through which their commands reach the queue of an engine. When
the engine is gone, its handle refuses all commands; drivers that were at work are not heard of
again.
-/

namespace MotionGraph

/-- An engine as clients elsewhere see it. -/
structure Handle (κ : Type) where
  engine : Engine κ
  /-- Whether the engine is gone. -/
  closed : Bool := false

namespace Handle

variable {κ : Type}

/-- Puts a command into the queue of the engine. -/
def send (h : Handle κ) (c : Command κ) : Except EngineError (Handle κ) :=
  if h.closed then .error .queueClosed else .ok { h with engine := h.engine.send c }

/-- Puts an end to the engine. -/
def close (h : Handle κ) : Handle κ := { h with closed := true }

end Handle

end MotionGraph
