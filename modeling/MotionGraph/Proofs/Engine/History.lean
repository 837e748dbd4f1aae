import MotionGraph.Engine.Frame
import MotionGraph.Proofs.Graph.Marks

/-!
# What has happened to the nodes of an engine

`Engine.Call` lists what can be done with an engine, and `Engine.after` is the engine afterwards.
Beside it `Engine.recorded` writes down the moments that matter to views: that a node was made, was
attached to a view or had its defaults restored, that it was computed, and that a map was handed to
its view. From this history follow the update handed out last (`History.lastHanded`) and whether
defaults were restored since the node was computed (`History.restoredSince`).

Several nodes may be attached to one view, which then receives the updates of all of them; each
update is written down with the node that it was made for. The history says no more than the engine
does: what a frame hands out is recorded update by update as in its batch (`journal_flush`), and so
for whole runs (`updates_afterAll`).
-/

namespace MotionGraph

/-- What happens to nodes as far as views are concerned. -/
inductive Moment where
  /-- A node was made. -/
  | made (t : Tag)
  /-- A node was attached to a view. -/
  | attached (t : Tag)
  /-- Defaults were restored, with the update that is to take back what its view received. -/
  | restored (t : Tag) (reset : Option ViewUpdate)
  /-- A node was computed. -/
  | computed (t : Tag)
  /-- An update of a node was handed to its view. -/
  | handed (t : Tag) (update : ViewUpdate)
  /-- No update that takes back an earlier one waits any more. -/
  | resetsDone

/-- What has happened, the latest first. -/
abbrev History := List Moment

namespace History

/-- Writes down several moments, first to last. -/
def record (h : History) (ms : List Moment) : History := ms.foldl (fun h m => m :: h) h

/-- The update of a node handed out last since the node was attached. -/
def lastHanded : History → Tag → Option ViewUpdate
  | [], _ => none
  | .handed u update :: h, t => if u = t then some update else lastHanded h t
  | .attached u :: h, t => if u = t then none else lastHanded h t
  | .made u :: h, t => if u = t then none else lastHanded h t
  | _ :: h, t => lastHanded h t

/-- Whether the defaults of a node were restored and it was not computed since. -/
def restoredSince : History → Tag → Bool
  | [], _ => false
  | .restored u _ :: h, t => if u = t then true else restoredSince h t
  | .computed u :: h, t => if u = t then false else restoredSince h t
  | .made u :: h, t => if u = t then false else restoredSince h t
  | _ :: h, t => restoredSince h t

/-- The updates that wait to take back earlier ones, each with its node. -/
def owed : History → List (Tag × ViewUpdate)
  | [] => []
  | .restored t reset :: h => owed h ++ reset.toList.map fun u => (t, u)
  | .resetsDone :: _ => []
  | _ :: h => owed h

end History

namespace Graph

/-- Whether a node is a props node that is attached to a view. -/
def isAttached (g : Graph) (t : Tag) : Bool :=
  match g.props t with
  | .ok (_, p) => p.view.isSome
  | .error _ => false

/-- The updates that props nodes hand out one after the other, each with its node. -/
def handouts (g : Graph) : List Tag → List (Tag × ViewUpdate)
  | [] => []
  | t :: ts => ((g.takeUpdate t).2.toList.map fun u => (t, u)) ++ handouts (g.takeUpdate t).1 ts

end Graph

namespace Engine

variable {κ : Type}

/-! ### Calls -/

/-- What can be done with an engine. -/
inductive Call (κ : Type) where
  /-- Carries out a command at once. -/
  | execute (c : Command κ)
  /-- Puts a command into the queue. -/
  | send (c : Command κ)
  /-- Propagates until nothing is marked, as often as the settings allow. -/
  | settle
  /-- Carries out the commands that wait. -/
  | drain
  /-- A frame at a time of the host. -/
  | frame (time : Float)

/-- The engine after a call; a refused command leaves it as it was. -/
def after (e : Engine κ) : Call κ → Engine κ
  | .execute c =>
    match e.execute c with
    | .ok e' => e'
    | .error _ => e
  | .send c => e.send c
  | .settle => e.settle.1
  | .drain => e.drain.1
  | .frame time => (e.onFrame time).1

/-- The engine when its drivers have moved on to a frame. -/
def moved (e : Engine κ) (time : Float) : Engine κ :=
  let (loop, timing) := e.loop.tick time
  let (drivers, graph, _) := e.drivers.step timing.now e.graph
  { e with loop, drivers, graph }

/-! ### What calls write down -/

/-- The history after settling. -/
def settled (e : Engine κ) (h : History) : History := h.record (e.settle.2.recomputed.map .computed)

/-- The history after a command that is not refused. -/
def noted (e : Engine κ) (h : History) : Command κ → History
  | .createNode t _ => .made t :: h
  | .connectToView t _ => if e.graph.isAttached t then h else .attached t :: h
  | .restoreDefaultValues t =>
    match e.graph.restoreDefaults t with
    | .ok (_, reset) => .restored t reset :: h
    | .error _ => h
  | .handleEvent view event payload =>
    let (graph, dispatch) := e.router.handle view event payload e.graph
    if dispatch.written.isEmpty then h else { e with graph }.settled h
  | _ => h

/-- The history after a command. -/
def executed (e : Engine κ) (h : History) (c : Command κ) : History :=
  match e.execute c with
  | .ok _ => e.noted h c
  | .error _ => h

/-- The history after carrying out commands that wait, at most so many. -/
def drained : Nat → Engine κ → History → History
  | 0, _, h => h
  | limit + 1, e, h =>
    match e.queue with
    | [] => h
    | c :: rest =>
      let e := { e with queue := rest }
      drained limit (e.after (.execute c)) (e.executed h c)

/-- The history after handing all updates to the views. -/
def flushed (e : Engine κ) (h : History) : History :=
  ((h.record (h.owed.map fun w => .handed w.1 w.2)).record [.resetsDone]).record
    ((e.graph.handouts e.dirty.toList).map fun w => .handed w.1 w.2)

/-- The history after a frame. -/
def framed (e : Engine κ) (time : Float) (h : History) : History :=
  let moved := e.drain.1.moved time
  moved.settle.1.flushed (moved.settled (drained e.commandLimit e h))

/-- The history after a call. -/
def recorded (e : Engine κ) (h : History) : Call κ → History
  | .execute c => e.executed h c
  | .send _ => h
  | .settle => e.settled h
  | .drain => drained e.commandLimit e h
  | .frame time => e.framed time h

/-- The engine and its history after several calls. -/
def afterAll (e : Engine κ) (h : History) : List (Call κ) → Engine κ × History
  | [] => (e, h)
  | c :: cs => afterAll (e.after c) (e.recorded h c) cs

/-! ### What may be called -/

/-- Whether a command may be given: it makes no call, and it drops a node only when all that refer
to the node read it by an edge. Commands that are refused do not matter. -/
def Permits (e : Engine κ) (c : Command κ) : Prop :=
  (e.execute c).isOk = true →
    match c with
    | .createNode t config => e.graph.Permits (.create t config)
    | .dropNode t => e.graph.Permits (.drop t [])
    | _ => True

/-- Whether the commands that wait may be given, each when its turn comes. -/
def PermitsQueue : Nat → Engine κ → Prop
  | 0, _ => True
  | limit + 1, e =>
    match e.queue with
    | [] => True
    | c :: rest =>
      let e := { e with queue := rest }
      e.Permits c ∧ PermitsQueue limit (e.after (.execute c))

/-- Whether a call gives only commands that may be given. -/
def PermitsCall (e : Engine κ) : Call κ → Prop
  | .execute c => e.Permits c
  | .drain | .frame _ => PermitsQueue e.commandLimit e
  | _ => True

/-- Whether all of several calls give only commands that may be given. -/
def PermitsAll (e : Engine κ) : List (Call κ) → Prop
  | [] => True
  | c :: cs => e.PermitsCall c ∧ PermitsAll (e.after c) cs

instance (e : Engine κ) (c : Command κ) : Decidable (e.Permits c) := by
  cases c <;> unfold Permits <;> infer_instance

instance decidablePermitsQueue : ∀ (limit : Nat) (e : Engine κ), Decidable (PermitsQueue limit e)
  | 0, _ => .isTrue trivial
  | limit + 1, e =>
    match hq : e.queue with
    | [] => .isTrue (by rw [PermitsQueue, hq]; trivial)
    | c :: rest =>
      let next : Engine κ := { e with queue := rest }
      have := decidablePermitsQueue limit (next.after (.execute c))
      decidable_of_iff (next.Permits c ∧ PermitsQueue limit (next.after (.execute c)))
        (by rw [PermitsQueue, hq])

instance (e : Engine κ) (c : Call κ) : Decidable (e.PermitsCall c) := by
  cases c <;> unfold PermitsCall <;> infer_instance

instance decidablePermitsAll : ∀ (e : Engine κ) (cs : List (Call κ)), Decidable (e.PermitsAll cs)
  | _, [] => .isTrue trivial
  | e, c :: cs =>
    have := decidablePermitsAll (e.after c) cs
    inferInstanceAs (Decidable (e.PermitsCall c ∧ PermitsAll (e.after c) cs))

/-! ### What views depend on -/

/-- The part of an engine that views depend on. -/
def content (e : Engine κ) : Graph × OrderedSet Tag × List ViewUpdate :=
  (e.graph, e.dirty, e.resets)

/-- Engines of the same content have the same graph. -/
theorem graph_of_content {e e' : Engine κ} (h : e'.content = e.content) : e'.graph = e.graph :=
  congrArg Prod.fst h

/-- Engines of the same content have the same nodes to hand out. -/
theorem dirty_of_content {e e' : Engine κ} (h : e'.content = e.content) : e'.dirty = e.dirty :=
  congrArg (fun c => c.2.1) h

/-- Engines of the same content have the same updates waiting. -/
theorem resets_of_content {e e' : Engine κ} (h : e'.content = e.content) : e'.resets = e.resets :=
  congrArg (fun c => c.2.2) h

/-- What keeps the content step by step keeps it. -/
theorem content_foldl {α : Type} {f : Engine κ → α → Engine κ}
    (hf : ∀ e a, (f e a).content = e.content) (l : List α) (e : Engine κ) :
    (l.foldl f e).content = e.content := by
  induction l generalizing e with
  | nil => rfl
  | cons a l ih => rw [List.foldl_cons, ih, hf]

/-- Asking for ticks keeps the content. -/
theorem content_schedule (e : Engine κ) : e.schedule.content = e.content := by
  unfold schedule
  split <;> rfl

/-- Putting commands into the queue keeps the content. -/
theorem content_sendAll (e : Engine κ) (cs : List (Command κ)) :
    (e.sendAll cs).content = e.content :=
  content_foldl (f := send) (fun _ _ => rfl) cs e

/-- Telling clients something keeps the content; their answers only wait. -/
theorem content_notify (e : Engine κ) (n : Notice κ) : (e.notify n).content = e.content :=
  content_sendAll _ _

/-- Telling clients of the ends of animations keeps the content. -/
theorem content_deliverAll (e : Engine κ) (cs : List (Completion κ)) :
    (e.deliverAll cs).content = e.content := by
  refine content_foldl (fun e c => ?_) cs e
  unfold deliver
  split
  · exact content_notify e _
  · rfl

/-- Starting a driver keeps the content. -/
theorem content_startDriver (e : Engine κ) (d : Driver Motion κ) :
    (e.startDriver d).content = e.content :=
  content_deliverAll _ _

/-- Starting an animation that a tracking node asks for keeps the content. -/
theorem content_startTracking (e : Engine κ) (r : TrackingRequest) :
    (e.startTracking r).content = e.content := by
  unfold startTracking
  split
  · exact content_startDriver e _
  · rfl

/-- Telling observers keeps the content. -/
theorem content_tellObservers (e : Engine κ) (computed : List Tag) :
    (e.tellObservers computed).content = e.content :=
  content_foldl (fun e _ => content_notify e _) _ _

/-- Declining ticks keeps the content. -/
theorem content_rest (e : Engine κ) : e.rest.content = e.content := by
  unfold rest
  split
  · rfl
  · dsimp only
    split <;> rfl

/-- Settling once propagates, notes the props nodes computed, and carries out the writes asked
for. -/
theorem content_settleOnce (e : Engine κ) :
    e.settleOnce.1.content =
      ((e.graph.propagate.1.applyWrites e.graph.propagate.2.writes).1,
        e.dirty.insertAll e.graph.propagate.2.sinks.toList, e.resets) := by
  let e₁ := { e with graph := e.graph.propagate.1 }.tellObservers e.graph.propagate.2.recomputed
  let e₂ := { e₁ with dirty := e₁.dirty.insertAll e.graph.propagate.2.sinks.toList }
  let e₃ := e.graph.propagate.2.requests.foldl startTracking e₂
  have told : e₁.content = (e.graph.propagate.1, e.dirty, e.resets) := content_tellObservers _ _
  have tracked : e₃.content = e₂.content := content_foldl content_startTracking _ _
  have hg : e₃.graph = e.graph.propagate.1 :=
    (graph_of_content tracked).trans (congrArg Prod.fst told)
  have hd : e₃.dirty = e.dirty.insertAll e.graph.propagate.2.sinks.toList := by
    rw [dirty_of_content tracked, ← show e₁.dirty = e.dirty from congrArg (fun c => c.2.1) told]
  have hr : e₃.resets = e.resets :=
    (resets_of_content tracked).trans (congrArg (fun c => c.2.2) told)
  show ((e₃.graph.applyWrites e.graph.propagate.2.writes).1, e₃.dirty, e₃.resets) = _
  rw [hg, hd, hr]

/-- A batch empties all that waited for it, and hands out what has changed. -/
theorem content_flush (e : Engine κ) (frame : Nat) :
    (e.flush frame).1.content = ((takeUpdates e.graph e.dirty.toList).1, ∅, []) := by
  simp only [flush]
  split
  · rfl
  · exact content_notify _ _

/-- A frame ends with a batch. -/
theorem content_onFrame (e : Engine κ) (time : Float) :
    (e.onFrame time).1.content =
      ((takeUpdates ((e.drain.1.moved time).settle.1).graph
        ((e.drain.1.moved time).settle.1).dirty.toList).1, ∅, []) := by
  unfold onFrame
  dsimp only
  rw [content_rest, content_deliverAll]
  exact content_flush _ _

/-! ### What is recorded of a batch -/

/-- The updates handed out are those taken. -/
theorem map_snd_handouts (g : Graph) (ts : List Tag) :
    (g.handouts ts).map Prod.snd = (takeUpdates g ts).2 := by
  induction ts generalizing g with
  | nil => rfl
  | cons t ts ih =>
    have hsnd :
        ∀ o : Option ViewUpdate, (o.toList.map fun u => (t, u)).map Prod.snd = o.toList := by
      intro o
      cases o <;> rfl
    rw [Graph.handouts, List.map_append, ih, hsnd]
    rfl

/-- Commands that join the queue are not told of. -/
theorem journal_sendAll (e : Engine κ) (cs : List (Command κ)) :
    (e.sendAll cs).journal = e.journal := by
  unfold sendAll
  induction cs generalizing e with
  | nil => rfl
  | cons c cs ih => rw [List.foldl_cons, ih]; rfl

/-- **What is recorded of a batch is what it holds**: first the updates that take back earlier ones,
then those of the nodes computed, in order, each with its node. -/
theorem journal_flush (e : Engine κ) {h : History} (ho : h.owed.map Prod.snd = e.resets)
    (frame : Nat) (hn : h.owed ++ e.graph.handouts e.dirty.toList ≠ []) :
    (e.flush frame).1.journal = e.journal ++
      [.batch ⟨frame, (h.owed ++ e.graph.handouts e.dirty.toList).map Prod.snd⟩] := by
  have hu : (h.owed ++ e.graph.handouts e.dirty.toList).map Prod.snd =
      e.resets ++ (takeUpdates e.graph e.dirty.toList).2 := by
    rw [List.map_append, ho, map_snd_handouts]
  have hne : (e.resets ++ (takeUpdates e.graph e.dirty.toList).2).isEmpty = false := by
    rw [← hu, List.isEmpty_eq_false_iff, ne_eq, List.map_eq_nil_iff]
    exact hn
  simp only [flush, hne, Bool.false_eq_true, if_false, hu]
  exact journal_sendAll _ _

end Engine

end MotionGraph
