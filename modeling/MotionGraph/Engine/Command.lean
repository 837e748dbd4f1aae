import MotionGraph.Driver.Error
import MotionGraph.Driver.Set
import MotionGraph.Event.Router
import MotionGraph.Engine.Batch
import MotionGraph.Engine.Observers

/-!
# Commands and notices

Commands are what clients ask of an engine, notices what an engine tells them. What calls back is
left open: a client marks its animations and observers with callbacks of a type of its own.
-/

namespace MotionGraph

/-- What a client asks of an engine. -/
inductive Command (κ : Type) where
  /-- Makes a node. -/
  | createNode (tag : Tag) (config : Json)
  /-- Makes `child` an input of `parent`. -/
  | connect (parent child : Tag)
  /-- Removes an edge. -/
  | disconnect (parent child : Tag)
  /-- Attaches a props node to a view. -/
  | connectToView (tag : Tag) (view : ViewId)
  /-- Detaches a props node from its view. -/
  | disconnectFromView (tag : Tag) (view : ViewId)
  /-- Removes a node. -/
  | dropNode (tag : Tag)
  /-- Sets the base value of a node. -/
  | setValue (tag : Tag) (x : Float)
  /-- Sets the offset of a node. -/
  | setOffset (tag : Tag) (x : Float)
  /-- Merges the offset of a node into its base value. -/
  | flattenOffset (tag : Tag)
  /-- Moves the base value of a node into its offset. -/
  | extractOffset (tag : Tag)
  /-- Starts an animation of a node. -/
  | startAnimation (id : AnimationId) (tag : Tag) (config : Json) (callback : Option κ)
  /-- Stops an animation. -/
  | stopAnimation (id : AnimationId)
  /-- Binds numbers of an event to nodes. -/
  | addEventBinding (view : ViewId) (event : String) (bindings : List EventBinding)
  /-- Removes the bindings of an event to a node. -/
  | removeEventBinding (view : ViewId) (event : String) (tag : Tag)
  /-- Observes a node. -/
  | startListening (tag : Tag) (callback : κ)
  /-- Observes a node no more. -/
  | stopListening (tag : Tag)
  /-- Takes back what a view received from a props node. -/
  | restoreDefaultValues (tag : Tag)
  /-- Hands an event to the nodes bound to it. -/
  | handleEvent (view : ViewId) (event : String) (payload : Json)

/-- The name of a command in reports. -/
def Command.name {κ : Type} : Command κ → String
  | .createNode _ _ => "createNode"
  | .connect _ _ => "connect"
  | .disconnect _ _ => "disconnect"
  | .connectToView _ _ => "connectToView"
  | .disconnectFromView _ _ => "disconnectFromView"
  | .dropNode _ => "dropNode"
  | .setValue _ _ => "setValue"
  | .setOffset _ _ => "setOffset"
  | .flattenOffset _ => "flattenOffset"
  | .extractOffset _ => "extractOffset"
  | .startAnimation _ _ _ _ => "startAnimation"
  | .stopAnimation _ => "stopAnimation"
  | .addEventBinding _ _ _ => "addEventBinding"
  | .removeEventBinding _ _ _ => "removeEventBinding"
  | .startListening _ _ => "startListening"
  | .stopListening _ => "stopListening"
  | .restoreDefaultValues _ => "restoreDefaultValues"
  | .handleEvent _ _ _ => "handleEvent"

/-- What an engine tells its clients. -/
inductive Notice (κ : Type) where
  /-- The updates of a frame, for the views. -/
  | batch (b : FrameBatch)
  /-- An animation has ended. -/
  | ended (callback : κ) (report : AnimationEnd)
  /-- A node has a new value. -/
  | value (o : Observation κ)

/-- Whoever an engine tells its notices: the commands that answer a notice, given all notices
before it. The list of those grows with every notice, so that no answer is ruled out,
whatever it depends on. -/
structure Host (κ : Type) where
  answer : List (Notice κ) → Notice κ → List (Command κ)

namespace Host

variable {κ : Type}

/-- A host that never answers. -/
def silent : Host κ := ⟨fun _ _ => []⟩

/-- A host may answer each notice without a thought of those before it. -/
instance : Coe (Notice κ → List (Command κ)) (Host κ) := ⟨fun answer => ⟨fun _ => answer⟩⟩

end Host

/-- Why a request to an engine is refused. -/
inductive EngineError where
  | graph (cause : GraphError)
  | driver (cause : DriverError)
  /-- The engine is gone. -/
  | queueClosed

/-- What the user is told. -/
def EngineError.message : EngineError → String
  | .graph cause => cause.message
  | .driver cause => cause.message
  | .queueClosed => "Command queue closed"

end MotionGraph
