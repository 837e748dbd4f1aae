import MotionGraph.Proofs.Engine.Run
import MotionGraph.Proofs.Graph.InPlace

/-!
# A refused command leaves an engine as it was

`Engine.Edit` carries commands out in place, as `Graph.Edit` does with requests to a graph: every
step rewrites the engine, clients are told on the way, and a command that is refused leaves behind
what its steps have done so far. On every engine that a run leads to, and also for the commands that
wait in its queue, a command in place comes to what `Engine.execute` answers, and a refused one has
changed nothing: neither graph, drivers, bindings, observers, notes for the next batch nor loop, and
no client was told anything (`Engine.refused_unchanged`).
-/

namespace MotionGraph.Engine

variable {κ : Type}

/-- A command carried out in place. -/
abbrev Edit (κ : Type) := EStateM EngineError (Engine κ)

namespace Edit

/-! ### The commands -/

/-- A request to the graph, carried out in place. -/
def onGraph {α : Type} (f : Graph.Edit α) : Edit κ α := fun e =>
  match f.run e.graph with
  | .ok a graph => .ok a { e with graph }
  | .error cause graph => .error (.graph cause) { e with graph }

/-- A request to the graph, and a call for ticks. -/
def scheduled {α : Type} (f : Graph.Edit α) : Edit κ Unit := do
  let _ ← onGraph f
  modify schedule

/-- Detaches a props node from its view. -/
def disconnectFromView (t : Tag) (view : ViewId) : Edit κ Unit := do
  onGraph (.detachView t view)
  modify fun e => { e with dirty := e.dirty.erase t }

/-- Removes a node, then its drivers, its observer and its note. -/
def dropNode (t : Tag) : Edit κ Unit := do
  let holder := (← get).router.toHolder
  let _ ← onGraph (.drop t [holder])
  let stopped := ((← get).drivers.stopTargeting t).2
  modify fun e => { e with drivers := (e.drivers.stopTargeting t).1 }
  modify fun e => e.deliverAll stopped
  modify fun e => { e with observers := e.observers.erase t }
  modify fun e => { e with dirty := e.dirty.erase t }
  modify schedule

/-- Takes back what a view received from a props node. -/
def restoreDefaultValues (t : Tag) : Edit κ Unit := do
  match ← onGraph (.restoreDefaults t) with
  | none => pure ()
  | some reset =>
    modify fun e => { e with dirty := e.dirty.erase t }
    modify fun e => { e with resets := e.resets ++ [reset] }
    modify schedule

/-- Takes a driver out and stops it. -/
def takeDriver (id : AnimationId) : Edit κ (Option (Completion κ)) :=
  modifyGet fun e => ((e.drivers.stop id).2, { e with drivers := (e.drivers.stop id).1 })

/-- Starts an animation. The description is read before one of the same name is taken out. -/
def startAnimation (id : AnimationId) (t : Tag) (config : Json) (callback : Option κ) :
    Edit κ Unit := do
  let n ← onGraph (.find t)
  if !n.holdsValue then throw (.graph (.notAnimatable n.kind.name t))
  match Motion.ofJson config with
  | .error cause => throw (.driver (.config cause))
  | .ok (animation, iterations) =>
    let d : Driver Motion κ := { id, target := t, animation, iterations, callback }
    let replaced ← takeDriver id
    modify fun e =>
      { e with drivers := { e.drivers with drivers := e.drivers.drivers.insert id d } }
    modify fun e => e.deliverAll replaced.toList
    modify schedule

/-- Stops an animation. -/
def stopAnimation (id : AnimationId) : Edit κ Unit := do
  match ← takeDriver id with
  | none => throw (.driver (.unknownAnimation id))
  | some completion => modify fun e => e.deliver completion

/-- Complains about the first binding whose node is gone or holds no number. -/
def checkBindings : List EventBinding → Edit κ Unit
  | [] => pure ()
  | b :: bs => do
    let n ← onGraph (.find b.target)
    if !n.holdsValue then throw (.graph (.notEventTarget b.target n.kind.name))
    checkBindings bs

/-- Binds numbers of an event to nodes, once all bindings are checked. -/
def addEventBinding (view : ViewId) (event : String) (bs : List EventBinding) : Edit κ Unit := do
  checkBindings bs
  modify fun e => { e with router := (e.router.add view event bs).1 }

/-- Observes a node. -/
def startListening (t : Tag) (callback : κ) : Edit κ Unit := do
  let _ ← onGraph (.find t)
  modify fun e => { e with observers := e.observers.insert t callback }

/-- Carries out a command. -/
def execute : Command κ → Edit κ Unit
  | .createNode t config => onGraph (.create t config)
  | .connect parent child => scheduled (.connect parent child)
  | .disconnect parent child => scheduled (.disconnect parent child)
  | .connectToView t view => scheduled (.attachView t view)
  | .disconnectFromView t view => disconnectFromView t view
  | .dropNode t => dropNode t
  | .setValue t x => scheduled (.setBase t x)
  | .setOffset t x => scheduled (.setOffset t x)
  | .flattenOffset t => scheduled (.flattenOffset t)
  | .extractOffset t => scheduled (.extractOffset t)
  | .startAnimation id t config callback => startAnimation id t config callback
  | .stopAnimation id => stopAnimation id
  | .addEventBinding view event bs => addEventBinding view event bs
  | .removeEventBinding view event t => modify fun e => (e.removeEventBinding view event t).1
  | .startListening t callback => startListening t callback
  | .stopListening t => modify fun e => (e.stopListening t).1
  | .restoreDefaultValues t => restoreDefaultValues t
  | .handleEvent view event payload => modify fun e => (e.handleEvent view event payload).1

/-! ### What they come to -/

variable {e : Engine κ}

/-- What a request to the graph of an engine comes to when the graph answers so. -/
def lifted {α : Type} (e : Engine κ) :
    Except GraphError (Graph × α) → EStateM.Result EngineError (Engine κ) α
  | .ok (graph, a) => .ok a { e with graph }
  | .error cause => .error (.graph cause) e

/-- A request to the graph comes to what the graph answers. -/
theorem run_onGraph {α : Type} {f : Graph.Edit α} {r : Except GraphError (Graph × α)}
    (h : f.run e.graph = outcome e.graph r) : (onGraph f).run e = lifted e r := by
  have run : (onGraph f).run e = match f.run e.graph with
      | .ok a graph => .ok a { e with graph }
      | .error cause graph => .error (EngineError.graph cause) { e with graph } := rfl
  rw [run, h]
  cases r <;> rfl

/-- A request to the graph with a call for ticks comes to what the engine answers. -/
theorem run_scheduled {α : Type} {f : Graph.Edit α} {r : Except GraphError (Graph × α)}
    (h : f.run e.graph = outcome e.graph r) {answer : Graph → Except GraphError Graph}
    (ha : answer e.graph = r.map Prod.fst) :
    (scheduled f).run e = outcome e (bare ((e.onGraph answer).map schedule)) := by
  simp only [scheduled, EStateM.run_bind, run_onGraph h, Engine.onGraph, ha]
  cases r <;> rfl

/-- A request without a value. -/
theorem map_fst_bare {ε σ : Type} (r : Except ε σ) : (bare r).map Prod.fst = r := by
  cases r <;> rfl

/-- A node is looked up in the graph of an engine. -/
theorem run_find (t : Tag) :
    (onGraph (.find t)).run e = lifted e ((e.graph.find t).map fun n => (e.graph, n)) :=
  run_onGraph (Graph.Edit.run_find t)

/-- A node is made. -/
theorem run_createNode (t : Tag) (config : Json) :
    (onGraph (.create t config)).run e = outcome e (bare (e.createNode t config)) := by
  simp only [run_onGraph (Graph.Edit.run_create t config), createNode, Engine.onGraph]
  cases e.graph.create t config <;> rfl

/-- A node is detached from its view. -/
theorem run_disconnectFromView (t : Tag) (view : ViewId) :
    (disconnectFromView t view).run e = outcome e (bare (e.disconnectFromView t view)) := by
  simp only [disconnectFromView, EStateM.run_bind, run_onGraph (Graph.Edit.run_detachView t view),
    Engine.disconnectFromView, Engine.onGraph]
  cases e.graph.detachView t view <;> rfl

/-- A node is removed. -/
theorem run_dropNode (t : Tag) : (dropNode t).run e = outcome e (bare (e.dropNode t)) := by
  simp only [dropNode, EStateM.run_bind, EStateM.run_get,
    run_onGraph (Graph.Edit.run_drop t [e.router.toHolder]), Engine.dropNode]
  cases e.graph.drop t [e.router.toHolder] <;> rfl

/-- What a view received is taken back. -/
theorem run_restoreDefaultValues (t : Tag) :
    (restoreDefaultValues t).run e = outcome e (bare (e.restoreDefaultValues t)) := by
  simp only [restoreDefaultValues, EStateM.run_bind,
    run_onGraph (Graph.Edit.run_restoreDefaults t), Engine.restoreDefaultValues]
  cases e.graph.restoreDefaults t with
  | error cause => rfl
  | ok r =>
    obtain ⟨graph, reset⟩ := r
    cases reset <;> rfl

/-- An animation is started. -/
theorem run_startAnimation (id : AnimationId) (t : Tag) (config : Json) (callback : Option κ) :
    (startAnimation id t config callback).run e =
      outcome e (bare (e.startAnimation id t config callback)) := by
  simp only [startAnimation, EStateM.run_bind, run_find, Engine.startAnimation]
  cases e.graph.find t with
  | error cause => rfl
  | ok n =>
    simp only [Except.map, lifted]
    cases n.holdsValue with
    | false => rfl
    | true => cases Motion.ofJson config <;> rfl

/-- An animation is stopped. -/
theorem run_stopAnimation (id : AnimationId) :
    (stopAnimation id).run e = outcome e (bare (e.stopAnimation id)) := by
  simp only [stopAnimation, takeDriver, EStateM.run_bind, EStateM.run_modifyGet,
    Engine.stopAnimation, DriverSet.stop]
  cases e.drivers.get? id <;> rfl

/-- Bindings are checked. -/
theorem run_checkBindings (bs : List EventBinding) :
    (checkBindings bs).run e = match Engine.checkBindings e.graph bs with
      | .ok _ => .ok () e
      | .error cause => .error (.graph cause) e := by
  induction bs with
  | nil => rfl
  | cons b bs ih =>
    simp only [checkBindings, EStateM.run_bind, run_find, Engine.checkBindings]
    cases e.graph.find b.target with
    | error cause => rfl
    | ok n =>
      simp only [Except.map, lifted]
      cases n.holdsValue with
      | false => rfl
      | true => exact ih

/-- Numbers of an event are bound. -/
theorem run_addEventBinding (view : ViewId) (event : String) (bs : List EventBinding) :
    (addEventBinding view event bs).run e =
      outcome e (bare (e.addEventBinding view event bs)) := by
  simp only [addEventBinding, EStateM.run_bind, run_checkBindings, Engine.addEventBinding]
  cases Engine.checkBindings e.graph bs <;> rfl

/-- A node is observed. -/
theorem run_startListening (t : Tag) (callback : κ) :
    (startListening t callback).run e = outcome e (bare (e.startListening t callback)) := by
  simp only [startListening, EStateM.run_bind, run_find, Engine.startListening]
  cases e.graph.find t <;> rfl

/-- A command in place comes to what the engine answers; a refused one leaves the engine. -/
theorem run_execute (hm : e.graph.edges.Mirrored) (c : Command κ) :
    (execute c).run e = outcome e (bare (e.execute c)) := by
  cases c with
  | createNode t config => exact run_createNode t config
  | connect parent child =>
    exact run_scheduled (Graph.Edit.run_connect parent child) (map_fst_bare _).symm
  | disconnect parent child =>
    exact run_scheduled (Graph.Edit.run_disconnect hm parent child) (map_fst_bare _).symm
  | connectToView t view =>
    exact run_scheduled (Graph.Edit.run_attachView t view) (map_fst_bare _).symm
  | disconnectFromView t view => exact run_disconnectFromView t view
  | dropNode t => exact run_dropNode t
  | setValue t x => exact run_scheduled (Graph.Edit.run_setBase t x) rfl
  | setOffset t x => exact run_scheduled (Graph.Edit.run_setOffset t x) rfl
  | flattenOffset t => exact run_scheduled (Graph.Edit.run_flattenOffset t) (map_fst_bare _).symm
  | extractOffset t => exact run_scheduled (Graph.Edit.run_extractOffset t) (map_fst_bare _).symm
  | startAnimation id t config callback => exact run_startAnimation id t config callback
  | stopAnimation id => exact run_stopAnimation id
  | addEventBinding view event bs => exact run_addEventBinding view event bs
  | removeEventBinding view event t => rfl
  | startListening t callback => exact run_startListening t callback
  | stopListening t => rfl
  | restoreDefaultValues t => exact run_restoreDefaultValues t
  | handleEvent view event payload => rfl

end Edit

/-- Every command that a call in a run carries out comes to what the engine answers, also in
place. -/
theorem run_of_mem_commandsOf (settings : Settings) (host : Host κ)
    (calls : List (Call κ)) (call : Call κ) :
    ∀ p ∈ commandsOf (reached settings host calls) call,
      (Edit.execute p.2).run p.1 = outcome p.1 (bare (p.1.execute p.2)) := by
  intro p hp
  have sound : p.1.graph.Sound :=
    commandsOf_induction (P := fun e => e.graph.Sound) (fun _ _ h => h)
      (fun _ c h => graph_after_execute (fun _ _ _ h hg => h.perform hg) c h)
      (sound_reached settings host calls) call p hp
  exact Edit.run_execute sound.mirrored p.2

/-- **A refused command leaves everything as it was**: whatever has been called before, a command
that is carried out in place and refused leaves exactly the engine that it found, all that clients
were told included; and it is refused when `execute` refuses it, with the same cause, and granted
with the same result. -/
theorem refused_unchanged (settings : Settings) (host : Host κ)
    (calls : List (Call κ)) (call : Call κ) :
    (∀ p ∈ commandsOf (reached settings host calls) call, ∀ cause e',
        (Edit.execute p.2).run p.1 = .error cause e' →
          e' = p.1 ∧ p.1.execute p.2 = .error cause) ∧
      ∀ p ∈ commandsOf (reached settings host calls) call, ∀ e',
        (Edit.execute p.2).run p.1 = .ok () e' → p.1.execute p.2 = .ok e' := by
  constructor
  · intro p hp cause e' hx
    rw [run_of_mem_commandsOf settings host calls call p hp] at hx
    cases ha : p.1.execute p.2 <;> rw [ha] at hx <;> cases hx
    exact ⟨rfl, rfl⟩
  · intro p hp e' hx
    rw [run_of_mem_commandsOf settings host calls call p hp] at hx
    cases ha : p.1.execute p.2 <;> rw [ha] at hx <;> cases hx
    rfl

/-- Two nodes are made. -/
def twoMade : List (Call Unit) :=
  [.execute (.createNode ⟨1⟩ (.array [.string "value", .number (.real 1.0)])),
   .execute (.createNode ⟨2⟩ (.array [.string "value", .number (.real 2.0)]))]

/-- Removing an edge that is not there rewrites both maps before it is refused, and leaves
the engine as it was. -/
theorem disconnect_refused_unchanged :
    let e := reached {} .silent twoMade
    e.graph.nodes.size = 2 ∧
      ∃ cause, (Edit.execute (.disconnect ⟨1⟩ ⟨2⟩)).run e = .error cause e := by
  intro e
  have made : e.graph.nodes.size = 2 := by decide +kernel
  have refused : (e.execute (.disconnect ⟨1⟩ ⟨2⟩)).isOk = false := by decide +kernel
  obtain ⟨unchanged, granted⟩ :=
    refused_unchanged {} .silent twoMade (.execute (.disconnect ⟨1⟩ ⟨2⟩))
  cases hx : (Edit.execute (.disconnect ⟨1⟩ ⟨2⟩)).run e with
  | ok a e' =>
    have ok : e.execute (.disconnect ⟨1⟩ ⟨2⟩) = .ok e' := granted _ List.mem_cons_self e' hx
    rw [ok] at refused
    cases refused
  | error cause e' =>
    obtain ⟨rfl, -⟩ := unchanged _ List.mem_cons_self cause e' hx
    exact ⟨made, cause, rfl⟩

end MotionGraph.Engine
