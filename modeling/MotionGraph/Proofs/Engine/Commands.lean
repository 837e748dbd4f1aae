import MotionGraph.Proofs.Engine.History
import MotionGraph.Proofs.Graph.Requests

/-!
# What a granted command does

`Engine.Done` lists what a command that is not refused makes of an engine, with the conditions under
which it is granted (`Engine.done_of_execute`). An outcome says apart what clients are told of ends
of animations and whether ticks are asked for, because every command closes with these in the same
way (`Outcome.closed`). They change the queue, the loop and the journal, and nothing else
(`Engine.Alike`). Facts about all commands are proved from this list.
-/

namespace MotionGraph

/-! ### Writers -/

/-- What setting the base values of its targets keeps, handing out the numbers of an event keeps. -/
theorem Router.deliver_induction {P : Graph → Prop} {bs : List EventBinding}
    (step : ∀ g b x r, b ∈ bs → P g → g.setBase b.target x = .ok r → P r.1) (key : EventKey)
    (payload : Json) {g : Graph} (hg : P g) : P (deliver key payload g bs).1 := by
  induction bs generalizing g with
  | nil => exact hg
  | cons b bs ih =>
    have rest := fun g hg => @ih (fun g b x r hb => step g b x r (List.mem_cons_of_mem _ hb)) g hg
    unfold deliver
    split
    · exact rest _ hg
    · split
      · next hs => exact rest _ (step g b _ _ List.mem_cons_self hg hs)
      · exact rest _ hg

/-- What setting the base values of their nodes keeps, the values of drivers keep. -/
theorem DriverSet.write_induction {P : Graph → Prop} {ws : Writes}
    (step : ∀ g t x r, (t, x) ∈ ws → P g → g.setBase t x = .ok r → P r.1) {g : Graph}
    (hg : P g) : P (write g ws).1 := by
  induction ws generalizing g with
  | nil => exact hg
  | cons w ws ih =>
    have rest := fun g hg => @ih (fun g t x r hw => step g t x r (List.mem_cons_of_mem _ hw)) g hg
    unfold write
    split
    · next hs => exact rest _ (step g _ _ _ List.mem_cons_self hg hs)
    · exact rest _ hg

/-- What a notice says of the value of a node. -/
def Notice.observation? {κ : Type} : Notice κ → Option (Observation κ)
  | .value o => some o
  | .batch _ => none
  | .ended _ _ => none

namespace Engine

variable {κ : Type} {e e' e'' : Engine κ}

/-! ### What telling clients something leaves alone -/

/-- The values that observers were told, first to last. -/
def observations (e : Engine κ) : List (Observation κ) := e.journal.filterMap Notice.observation?

/-- Two engines that differ in what waits, in the loop, and in what was told to others
than observers, at most. -/
structure Alike (e e' : Engine κ) : Prop where
  settings : e'.settings = e.settings
  graph : e'.graph = e.graph
  drivers : e'.drivers = e.drivers
  router : e'.router = e.router
  observers : e'.observers = e.observers
  dirty : e'.dirty = e.dirty
  resets : e'.resets = e.resets
  host : e'.host = e.host
  heard : e'.observations = e.observations

namespace Alike

/-- An engine is like itself. -/
theorem refl (e : Engine κ) : Alike e e := ⟨rfl, rfl, rfl, rfl, rfl, rfl, rfl, rfl, rfl⟩

/-- Likeness goes on from step to step. -/
theorem trans (h : Alike e e') (h' : Alike e' e'') : Alike e e'' where
  settings := h'.settings.trans h.settings
  graph := h'.graph.trans h.graph
  drivers := h'.drivers.trans h.drivers
  router := h'.router.trans h.router
  observers := h'.observers.trans h.observers
  dirty := h'.dirty.trans h.dirty
  resets := h'.resets.trans h.resets
  host := h'.host.trans h.host
  heard := h'.heard.trans h.heard

/-- Steps that each lead to a like engine do so together. -/
theorem foldl {α : Type} {f : Engine κ → α → Engine κ} (hf : ∀ e a, Alike e (f e a)) (l : List α)
    (e : Engine κ) : Alike e (l.foldl f e) := by
  induction l generalizing e with
  | nil => exact refl e
  | cons a l ih => exact (hf e a).trans (ih (f e a))

/-- Asking for ticks leads to a like engine. -/
theorem schedule (e : Engine κ) : Alike e e.schedule := by
  unfold Engine.schedule
  split <;> exact ⟨rfl, rfl, rfl, rfl, rfl, rfl, rfl, rfl, rfl⟩

/-- Putting a command into the queue leads to a like engine. -/
theorem send (e : Engine κ) (c : Command κ) : Alike e (e.send c) :=
  ⟨rfl, rfl, rfl, rfl, rfl, rfl, rfl, rfl, rfl⟩

/-- Telling clients something only adds to what was told; their answers only wait. -/
theorem told (e : Engine κ) (n : Notice κ) :
    Alike { e with journal := e.journal ++ [n] } (e.notify n) :=
  foldl send (e.host.answer e.journal n) _

/-- Telling others than observers something leads to a like engine. -/
theorem notify (e : Engine κ) {n : Notice κ} (hn : n.observation? = none) :
    Alike e (e.notify n) := by
  let e₁ : Engine κ := { e with journal := e.journal ++ [n] }
  have same : e₁.observations = e.observations := by
    simp [e₁, observations, hn]
  have like : Alike e e₁ := ⟨rfl, rfl, rfl, rfl, rfl, rfl, rfl, rfl, same⟩
  exact like.trans (told e n)

/-- Telling a client that an animation has ended leads to a like engine. -/
theorem deliver (e : Engine κ) (c : Completion κ) : Alike e (e.deliver c) := by
  unfold Engine.deliver
  split
  · exact notify e rfl
  · exact refl e

/-- Telling clients of several ends leads to a like engine. -/
theorem deliverAll (e : Engine κ) (cs : List (Completion κ)) : Alike e (e.deliverAll cs) :=
  foldl deliver cs e

/-- Declining ticks leads to a like engine. -/
theorem rest (e : Engine κ) : Alike e e.rest := by
  unfold Engine.rest
  split
  · exact refl e
  · dsimp only
    split <;> exact ⟨rfl, rfl, rfl, rfl, rfl, rfl, rfl, rfl, rfl⟩

end Alike

/-- Telling observers adds what is news to them, and else leads to a like engine. -/
theorem alike_tellObservers (e : Engine κ) (computed : List Tag) :
    Alike
      { e with
        observers := (e.observers.notify e.graph computed).1
        journal := e.journal ++ (e.observers.notify e.graph computed).2.map .value }
      (e.tellObservers computed) := by
  have tell : ∀ (os : List (Observation κ)) (e : Engine κ),
      Alike { e with journal := e.journal ++ os.map .value }
        (os.foldl (fun e o => e.notify (.value o)) e) := by
    intro os
    induction os with
    | nil =>
      intro e
      rw [List.map_nil, List.append_nil]
      exact .refl e
    | cons o os ih =>
      intro e
      have first := Alike.told e (.value o)
      refine Alike.trans ?_ (ih (e.notify (.value o)))
      have heard := first.heard
      refine ⟨first.settings, first.graph, first.drivers, first.router, first.observers,
        first.dirty, first.resets, first.host, ?_⟩
      simp only [observations, List.filterMap_append] at heard ⊢
      rw [heard, List.append_assoc]
      rfl
  exact tell _ { e with observers := (e.observers.notify e.graph computed).1 }

/-- The drivers after starting the animation that a tracking node asks for. -/
def tracked (s : DriverSet Motion κ) (r : TrackingRequest) : DriverSet Motion κ :=
  match Motion.ofJson r.config with
  | .ok (animation, iterations) =>
    (s.start { id := r.animation, target := r.target, animation, iterations }).1
  | .error _ => s

/-- Starting the animation that a tracking node asks for starts its driver, and else leads to a like
engine. -/
theorem alike_startTracking (e : Engine κ) (r : TrackingRequest) :
    Alike { e with drivers := tracked e.drivers r } (e.startTracking r) := by
  unfold startTracking tracked
  cases Motion.ofJson r.config with
  | error cause => exact .refl e
  | ok m => exact .deliverAll _ _

/-- Settling once propagates, tells observers, notes the props nodes computed, starts the animations
asked for and carries out the writes asked for, and else leads to a like engine. -/
theorem alike_settleOnce (e : Engine κ) :
    Alike
      { e with
        graph := (e.graph.propagate.1.applyWrites e.graph.propagate.2.writes).1
        drivers := e.graph.propagate.2.requests.foldl tracked e.drivers
        observers := (e.observers.notify e.graph.propagate.1 e.graph.propagate.2.recomputed).1
        dirty := e.dirty.insertAll e.graph.propagate.2.sinks.toList
        journal := e.journal ++
          (e.observers.notify e.graph.propagate.1 e.graph.propagate.2.recomputed).2.map .value }
      e.settleOnce.1 := by
  let e₁ := { e with graph := e.graph.propagate.1 }.tellObservers e.graph.propagate.2.recomputed
  let e₂ := { e₁ with dirty := e₁.dirty.insertAll e.graph.propagate.2.sinks.toList }
  let e₃ := e.graph.propagate.2.requests.foldl startTracking e₂
  have told := alike_tellObservers { e with graph := e.graph.propagate.1 }
    e.graph.propagate.2.recomputed
  have tracked : ∀ (rs : List TrackingRequest) (e : Engine κ),
      Alike { e with drivers := rs.foldl Engine.tracked e.drivers } (rs.foldl startTracking e) := by
    intro rs
    induction rs with
    | nil => exact .refl
    | cons r rs ih =>
      intro e
      have first := alike_startTracking e r
      refine Alike.trans ?_ (ih (e.startTracking r))
      exact ⟨first.settings, first.graph, congrArg (rs.foldl Engine.tracked) first.drivers,
        first.router, first.observers, first.dirty, first.resets, first.host, first.heard⟩
  have started := tracked e.graph.propagate.2.requests e₂
  exact
    { settings := started.settings.trans told.settings
      graph := congrArg (fun g => (Graph.applyWrites g e.graph.propagate.2.writes).1)
        (started.graph.trans told.graph)
      drivers := started.drivers.trans
        (congrArg (e.graph.propagate.2.requests.foldl Engine.tracked) told.drivers)
      router := started.router.trans told.router
      observers := started.observers.trans told.observers
      dirty := started.dirty.trans
        (congrArg (fun d => d.insertAll e.graph.propagate.2.sinks.toList) told.dirty)
      resets := started.resets.trans told.resets
      host := started.host.trans told.host
      heard := started.heard.trans told.heard }

/-! ### Granted commands -/

/-- A request to the graph changes nothing but the graph. -/
theorem onGraph_eq_ok {f : Graph → Except GraphError Graph} :
    e.onGraph f = .ok e' ↔ ∃ g, f e.graph = .ok g ∧ e' = { e with graph := g } := by
  unfold onGraph
  cases f e.graph <;> simp [eq_comm]

/-- A request to the graph with a call for ticks changes the graph, and asks for ticks. -/
theorem scheduled_eq_ok {f : Graph → Except GraphError Graph} :
    (e.onGraph f).map schedule = .ok e' ↔
      ∃ g, f e.graph = .ok g ∧ e' = schedule { e with graph := g } := by
  simp only [except_map_eq_ok, onGraph_eq_ok]
  constructor
  · rintro ⟨_, ⟨g, hg, rfl⟩, rfl⟩
    exact ⟨g, hg, rfl⟩
  · rintro ⟨g, hg, rfl⟩
    exact ⟨_, ⟨g, hg, rfl⟩, rfl⟩

/-- To clients that are told of ends it does not matter whether a node is still observed and
noted. -/
theorem deliverAll_forgotten (e : Engine κ) (t : Tag) (cs : List (Completion κ)) :
    { e with observers := e.observers.erase t, dirty := e.dirty.erase t }.deliverAll cs =
      { e.deliverAll cs with
        observers := (e.deliverAll cs).observers.erase t
        dirty := (e.deliverAll cs).dirty.erase t } := by
  let forget (e : Engine κ) : Engine κ :=
    { e with observers := e.observers.erase t, dirty := e.dirty.erase t }
  have sent : ∀ e c, (forget e).send c = forget (e.send c) := fun _ _ => rfl
  have answered : ∀ e cs, (forget e).sendAll cs = forget (e.sendAll cs) :=
    fun _ _ => List.foldl_hom forget sent
  have told : ∀ e c, (forget e).deliver c = forget (e.deliver c) := by
    intro e c
    unfold deliver
    split
    · exact answered { e with journal := e.journal ++ [_] } _
    · rfl
  exact List.foldl_hom forget told

/-- What a granted command comes to, but for what clients are told at its end and the call for
ticks. -/
structure Outcome (κ : Type) where
  engine : Engine κ
  /-- The ends of animations that clients are told of. -/
  ended : List (Completion κ) := []
  /-- Whether ticks are asked for. -/
  asks : Bool := false

/-- The engine when clients have been told and ticks have been asked for. -/
def Outcome.closed (o : Outcome κ) : Engine κ :=
  if o.asks then (o.engine.deliverAll o.ended).schedule else o.engine.deliverAll o.ended

/-- What is done at the end of a command leads to a like engine. -/
theorem Outcome.alike (o : Outcome κ) : Alike o.engine o.closed := by
  unfold closed
  split
  · exact (Alike.deliverAll _ _).trans (.schedule _)
  · exact .deliverAll _ _

/-- What is done at the end of a command leaves what views depend on. -/
theorem content_closed (o : Outcome κ) : o.closed.content = o.engine.content := by
  unfold Outcome.closed
  split
  · rw [content_schedule, content_deliverAll]
  · exact content_deliverAll _ _

/-- The request to the graph that a command consists of, if it does and then asks for ticks. -/
def request? : Command κ → Option Graph.Request
  | .connect parent child => some (.connect parent child)
  | .disconnect parent child => some (.disconnect parent child)
  | .connectToView t view => some (.attachView t view)
  | .setValue t x => some (.setBase t x)
  | .setOffset t x => some (.setOffset t x)
  | .flattenOffset t => some (.flattenOffset t)
  | .extractOffset t => some (.extractOffset t)
  | _ => none

/-- Commands that consist of a request to the graph propagate nothing, and may always be given. -/
theorem request?_simple {c : Command κ} {r : Graph.Request} (hc : request? c = some r) (g : Graph) :
    r.isCompound = false ∧ g.Permits r := by
  cases c <;> cases hc <;> exact ⟨rfl, trivial⟩

/-- What a granted command comes to. -/
inductive Done (e : Engine κ) : Command κ → Outcome κ → Prop where
  /-- A node is made. -/
  | created {t : Tag} {config : Json} {graph : Graph} (hg : e.graph.create t config = .ok graph) :
      Done e (.createNode t config) { engine := { e with graph } }
  /-- Another request to the graph is granted. -/
  | requested {c : Command κ} {r : Graph.Request} {graph : Graph} (hc : request? c = some r)
      (hg : e.graph.perform r = .ok graph) : Done e c { engine := { e with graph }, asks := true }
  /-- The node is detached from its view, and is not noted any more. -/
  | detached {t : Tag} {view : ViewId} {graph : Graph}
      (hg : e.graph.detachView t view = .ok graph) :
      Done e (.disconnectFromView t view)
        { engine := { e with graph, dirty := e.dirty.erase t } }
  /-- The node is removed, which no event is bound to, with its drivers, its observer and its
  note. -/
  | dropped {t : Tag} {r : Graph × Node} (hg : e.graph.drop t [e.router.toHolder] = .ok r) :
      Done e (.dropNode t)
        { engine :=
            { e with
              graph := r.1
              drivers := (e.drivers.stopTargeting t).1
              observers := e.observers.erase t
              dirty := e.dirty.erase t }
          ended := (e.drivers.stopTargeting t).2
          asks := true }
  /-- A driver is started on a node that holds a number. -/
  | started {id : AnimationId} {t : Tag} {config : Json} {callback : Option κ} {n : Node}
      {animation : Motion} {iterations : Iterations} {d : Driver Motion κ}
      (hn : e.graph.node? t = some n) (hv : n.holdsValue = true)
      (hd : d = { id, target := t, animation, iterations, callback }) :
      Done e (.startAnimation id t config callback)
        { engine := { e with drivers := (e.drivers.start d).1 }
          ended := (e.drivers.start d).2.toList
          asks := true }
  /-- A driver is stopped. -/
  | stopped {id : AnimationId} :
      Done e (.stopAnimation id)
        { engine := { e with drivers := (e.drivers.stop id).1 }
          ended := (e.drivers.stop id).2.toList }
  /-- Numbers of an event are bound to nodes that hold numbers. -/
  | bound {view : ViewId} {event : String} {bs : List EventBinding}
      (hb : checkBindings e.graph bs = .ok ()) :
      Done e (.addEventBinding view event bs)
        { engine := { e with router := (e.router.add view event bs).1 } }
  /-- Bindings are removed. -/
  | unbound {view : ViewId} {event : String} {t : Tag} :
      Done e (.removeEventBinding view event t)
        { engine := { e with router := (e.router.remove view event t).1 } }
  /-- A node that is there is observed. -/
  | observed {t : Tag} {callback : κ} (ht : e.graph.contains t = true) :
      Done e (.startListening t callback)
        { engine := { e with observers := e.observers.insert t callback } }
  /-- A node is observed no more. -/
  | unobserved {t : Tag} :
      Done e (.stopListening t) { engine := { e with observers := e.observers.erase t } }
  /-- What a view received is taken back. -/
  | restored {t : Tag} {r : Graph × Option ViewUpdate} (hr : e.graph.restoreDefaults t = .ok r) :
      Done e (.restoreDefaultValues t)
        { engine :=
            { e with
              graph := r.1
              dirty := if r.2.isSome then e.dirty.erase t else e.dirty
              resets := e.resets ++ r.2.toList }
          asks := r.2.isSome }
  /-- An event has written nothing. -/
  | passed {view : ViewId} {event : String} {payload : Json}
      (hw : (e.router.handle view event payload e.graph).2.written.isEmpty = true) :
      Done e (.handleEvent view event payload)
        { engine := { e with graph := (e.router.handle view event payload e.graph).1 } }
  /-- An event has written something, and the engine has settled. -/
  | handed {view : ViewId} {event : String} {payload : Json}
      (hw : (e.router.handle view event payload e.graph).2.written.isEmpty = false) :
      Done e (.handleEvent view event payload)
        { engine :=
            { e with graph := (e.router.handle view event payload e.graph).1 }.settle.1
          asks := true }

/-- A command that consists of a request to the graph and asks for ticks. -/
theorem done_of_scheduled {c : Command κ} {r : Graph.Request} (hc : request? c = some r)
    (hx : (e.onGraph fun g => g.perform r).map schedule = .ok e') :
    ∃ o, Done e c o ∧ e' = o.closed := by
  obtain ⟨g, hg, rfl⟩ := scheduled_eq_ok.1 hx
  exact ⟨_, .requested hc hg, rfl⟩

/-- **What a granted command does.** -/
theorem done_of_execute {c : Command κ} (hx : e.execute c = .ok e') :
    ∃ o, Done e c o ∧ e' = o.closed := by
  cases c with
  | createNode t config =>
    obtain ⟨g, hg, rfl⟩ := (onGraph_eq_ok (f := fun g => g.create t config)).1 hx
    exact ⟨_, .created hg, rfl⟩
  | connect parent child => exact done_of_scheduled rfl hx
  | disconnect parent child => exact done_of_scheduled rfl hx
  | connectToView t view => exact done_of_scheduled rfl hx
  | disconnectFromView t view =>
    obtain ⟨e₁, he, rfl⟩ := except_map_eq_ok.1 (show e.disconnectFromView t view = .ok e' from hx)
    obtain ⟨g, hg, rfl⟩ := onGraph_eq_ok.1 he
    exact ⟨_, .detached hg, rfl⟩
  | dropNode t =>
    change e.dropNode t = .ok e' at hx
    unfold dropNode at hx
    split at hx
    · cases hx
    · next graph n hg =>
      cases hx
      let e₁ : Engine κ := { e with graph, drivers := (e.drivers.stopTargeting t).1 }
      exact ⟨_, .dropped hg, (congrArg schedule (deliverAll_forgotten e₁ t _)).symm⟩
  | setValue t x => exact done_of_scheduled (r := .setBase t x) rfl hx
  | setOffset t x => exact done_of_scheduled (r := .setOffset t x) rfl hx
  | flattenOffset t => exact done_of_scheduled rfl hx
  | extractOffset t => exact done_of_scheduled rfl hx
  | startAnimation id t config callback =>
    change e.startAnimation id t config callback = .ok e' at hx
    unfold startAnimation at hx
    split at hx
    · cases hx
    · next n hn =>
      split at hx
      · next hv =>
        split at hx
        · next animation iterations _ =>
          cases hx
          exact ⟨_, .started (Graph.find_eq_ok.1 hn) hv rfl, rfl⟩
        · cases hx
      · cases hx
  | stopAnimation id =>
    change e.stopAnimation id = .ok e' at hx
    unfold stopAnimation at hx
    split at hx
    · next drivers completion hs =>
      cases hx
      refine ⟨_, .stopped, ?_⟩
      rw [hs]
      rfl
    · cases hx
  | addEventBinding view event bs =>
    change e.addEventBinding view event bs = .ok e' at hx
    unfold addEventBinding at hx
    split at hx
    · cases hx
    · next hb =>
      cases hx
      exact ⟨_, .bound hb, rfl⟩
  | removeEventBinding view event t =>
    cases hx
    exact ⟨_, .unbound, rfl⟩
  | startListening t callback =>
    change e.startListening t callback = .ok e' at hx
    unfold startListening at hx
    split at hx
    · cases hx
    · next n hn =>
      cases hx
      exact ⟨_, .observed (Graph.contains_of_node? (Graph.find_eq_ok.1 hn)), rfl⟩
  | stopListening t =>
    cases hx
    exact ⟨_, .unobserved, rfl⟩
  | restoreDefaultValues t =>
    change e.restoreDefaultValues t = .ok e' at hx
    unfold restoreDefaultValues at hx
    split at hx
    · cases hx
    · next graph hr =>
      cases hx
      refine ⟨_, .restored hr, ?_⟩
      simp [Outcome.closed, deliverAll]
    · next graph reset hr =>
      cases hx
      exact ⟨_, .restored hr, rfl⟩
  | handleEvent view event payload =>
    cases hx
    unfold handleEvent
    dsimp only
    split
    · next hw => exact ⟨_, .passed hw, rfl⟩
    · next hw => exact ⟨_, .handed (Bool.eq_false_iff.2 hw), rfl⟩

end Engine

end MotionGraph
