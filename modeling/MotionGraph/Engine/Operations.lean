import MotionGraph.Engine.Settle

/-!
# What an engine can be asked

Each request either gives the engine after it, or is refused and has done nothing.
-/

namespace MotionGraph.Engine

variable {κ : Type}

/-! ### Nodes and edges -/

/-- The engine after a request to its graph. -/
def onGraph (e : Engine κ) (f : Graph → Except GraphError Graph) : Except EngineError (Engine κ) :=
  match f e.graph with
  | .ok graph => .ok { e with graph }
  | .error cause => .error (.graph cause)

/-- Makes a node. -/
def createNode (e : Engine κ) (t : Tag) (config : Json) : Except EngineError (Engine κ) :=
  e.onGraph fun g => g.create t config

/-- Makes `child` an input of `parent`. -/
def connect (e : Engine κ) (parent child : Tag) : Except EngineError (Engine κ) :=
  (e.onGraph fun g => g.connect parent child).map schedule

/-- Removes an edge. -/
def disconnect (e : Engine κ) (parent child : Tag) : Except EngineError (Engine κ) :=
  (e.onGraph fun g => g.disconnect parent child).map schedule

/-- Attaches a props node to a view. -/
def connectToView (e : Engine κ) (t : Tag) (view : ViewId) : Except EngineError (Engine κ) :=
  (e.onGraph fun g => g.attachView t view).map schedule

/-- Detaches a props node from its view, which receives nothing more from it. -/
def disconnectFromView (e : Engine κ) (t : Tag) (view : ViewId) : Except EngineError (Engine κ) :=
  (e.onGraph fun g => g.detachView t view).map fun e => { e with dirty := e.dirty.erase t }

/-- Removes a node, unless an event is bound to it. Its drivers are stopped, and their clients
told; its observer hears no more. -/
def dropNode (e : Engine κ) (t : Tag) : Except EngineError (Engine κ) :=
  match e.graph.drop t [e.router.toHolder] with
  | .error cause => .error (.graph cause)
  | .ok (graph, _) =>
    let (drivers, stopped) := e.drivers.stopTargeting t
    let e := { e with graph, drivers }.deliverAll stopped
    .ok { e with observers := e.observers.erase t, dirty := e.dirty.erase t }.schedule

/-! ### Values -/

/-- Sets the base value of a node. -/
def setValue (e : Engine κ) (t : Tag) (x : Float) : Except EngineError (Engine κ) :=
  (e.onGraph fun g => (g.setBase t x).map Prod.fst).map schedule

/-- Sets the offset of a node. -/
def setOffset (e : Engine κ) (t : Tag) (x : Float) : Except EngineError (Engine κ) :=
  (e.onGraph fun g => (g.setOffset t x).map Prod.fst).map schedule

/-- Merges the offset of a node into its base value. -/
def flattenOffset (e : Engine κ) (t : Tag) : Except EngineError (Engine κ) :=
  (e.onGraph fun g => g.flattenOffset t).map schedule

/-- Moves the base value of a node into its offset. -/
def extractOffset (e : Engine κ) (t : Tag) : Except EngineError (Engine κ) :=
  (e.onGraph fun g => g.extractOffset t).map schedule

/-- Takes back what a view received from a props node, with the next batch. -/
def restoreDefaultValues (e : Engine κ) (t : Tag) : Except EngineError (Engine κ) :=
  match e.graph.restoreDefaults t with
  | .error cause => .error (.graph cause)
  | .ok (graph, none) => .ok { e with graph }
  | .ok (graph, some reset) =>
    .ok { e with graph, dirty := e.dirty.erase t, resets := e.resets ++ [reset] }.schedule

/-- The value of a node. -/
def value (e : Engine κ) (t : Tag) : Except EngineError Float :=
  (e.graph.observed t).mapError .graph

/-! ### Animations -/

/-- Starts an animation of a node. One that has the same name already is stopped, and its client
told. -/
def startAnimation (e : Engine κ) (id : AnimationId) (t : Tag) (config : Json)
    (callback : Option κ) : Except EngineError (Engine κ) :=
  match e.graph.find t with
  | .error cause => .error (.graph cause)
  | .ok n =>
    if n.holdsValue then
      match Motion.ofJson config with
      | .ok (animation, iterations) =>
        .ok (e.startDriver { id, target := t, animation, iterations, callback }).schedule
      | .error cause => .error (.driver (.config cause))
    else .error (.graph (.notAnimatable n.kind.name t))

/-- Stops an animation, and tells its client. -/
def stopAnimation (e : Engine κ) (id : AnimationId) : Except EngineError (Engine κ) :=
  match e.drivers.stop id with
  | (drivers, some completion) => .ok ({ e with drivers }.deliver completion)
  | (_, none) => .error (.driver (.unknownAnimation id))

/-! ### Events -/

/-- Complains about the first binding whose node is gone or holds no number. -/
def checkBindings (g : Graph) : List EventBinding → Except GraphError Unit
  | [] => .ok ()
  | b :: bs =>
    match g.find b.target with
    | .error cause => .error cause
    | .ok n =>
      if n.holdsValue then checkBindings g bs
      else .error (.notEventTarget b.target n.kind.name)

/-- Binds numbers of an event to nodes. -/
def addEventBinding (e : Engine κ) (view : ViewId) (event : String) (bs : List EventBinding) :
    Except EngineError (Engine κ) :=
  match checkBindings e.graph bs with
  | .error cause => .error (.graph cause)
  | .ok _ => .ok { e with router := (e.router.add view event bs).1 }

/-- Removes the bindings of an event to a node, and counts them. -/
def removeEventBinding (e : Engine κ) (view : ViewId) (event : String) (t : Tag) :
    Engine κ × Nat :=
  let (router, removed) := e.router.remove view event t
  ({ e with router }, removed)

/-- Hands an event to the nodes bound to it, and settles if any was written. -/
def handleEvent (e : Engine κ) (view : ViewId) (event : String) (payload : Json) :
    Engine κ × Dispatch :=
  let (graph, dispatch) := e.router.handle view event payload e.graph
  let e := { e with graph }
  (if dispatch.written.isEmpty then e else e.settle.1.schedule, dispatch)

/-! ### Observers -/

/-- Observes a node. -/
def startListening (e : Engine κ) (t : Tag) (callback : κ) : Except EngineError (Engine κ) :=
  match e.graph.find t with
  | .error cause => .error (.graph cause)
  | .ok _ => .ok { e with observers := e.observers.insert t callback }

/-- Observes a node no more. Tells whether it was observed. -/
def stopListening (e : Engine κ) (t : Tag) : Engine κ × Bool :=
  ({ e with observers := e.observers.erase t }, e.observers.contains t)

/-! ### Commands -/

/-- Carries out a command. -/
def execute (e : Engine κ) : Command κ → Except EngineError (Engine κ)
  | .createNode t config => e.createNode t config
  | .connect parent child => e.connect parent child
  | .disconnect parent child => e.disconnect parent child
  | .connectToView t view => e.connectToView t view
  | .disconnectFromView t view => e.disconnectFromView t view
  | .dropNode t => e.dropNode t
  | .setValue t x => e.setValue t x
  | .setOffset t x => e.setOffset t x
  | .flattenOffset t => e.flattenOffset t
  | .extractOffset t => e.extractOffset t
  | .startAnimation id t config callback => e.startAnimation id t config callback
  | .stopAnimation id => e.stopAnimation id
  | .addEventBinding view event bs => e.addEventBinding view event bs
  | .removeEventBinding view event t => .ok (e.removeEventBinding view event t).1
  | .startListening t callback => e.startListening t callback
  | .stopListening t => .ok (e.stopListening t).1
  | .restoreDefaultValues t => e.restoreDefaultValues t
  | .handleEvent view event payload => .ok (e.handleEvent view event payload).1

end MotionGraph.Engine
