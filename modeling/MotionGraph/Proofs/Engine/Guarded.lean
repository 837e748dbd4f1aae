import MotionGraph.Proofs.Engine.Backlog
import MotionGraph.Proofs.Graph.Guarded

/-!
# Frames within bounds

The guards of `Graph.propagate?` are those of a propagation. What else an engine does has three
more: a timed motion reads its table at a position that it has, a tick brings the time that has
passed between zero and a limit that is not below it, and a complaint about an event quotes no more
of a path than there is. `Engine.after?` is a call with all guards, and gives nothing as soon as
one of them does not hold.

A call of an engine whose graph and limit are guarded gives what the call without guards gives
(`Engine.Guarded.after?_eq`), and leaves such an engine (`Engine.Guarded.after`). Settings that were
accepted have a positive limit (`Settings.limit_of_parse`). So no run from accepted settings comes
to a step that makes no sense (`Engine.runs_within_bounds`), whatever times the host gives.
-/

namespace MotionGraph

/-- Guarded steps that all give something give it together. -/
theorem mapM_eq_some_map {α β : Type} {f : α → Option β} {g : α → β} (h : ∀ a, f a = some (g a))
    (l : List α) : l.mapM f = some (l.map g) := by
  obtain rfl : f = fun a => some (g a) := funext h
  exact List.mapM_pure

/-! ### Events -/

namespace EventPath

/-- Follows segments from a position of a path on. A complaint quotes the path up to the
position. -/
def follow? (path : List String) (position : Nat) (j : Json) :
    List String → Option (Except PathError Json)
  | [] => some (.ok j)
  | s :: rest =>
    match descend? j s with
    | some inner => follow? path (position + 1) inner rest
    | none => do
      guard (position < path.length)
      return .error (.noField ⟨path.take (position + 1)⟩)

/-- The number that a path leads to. -/
def extract? (p : EventPath) (payload : Json) : Option (Except PathError Float) := do
  match ← follow? p.segments 0 payload p.segments with
  | .ok (.number n) => return .ok n.toFloat
  | .ok _ => return .error (.notNumber p)
  | .error cause => return .error cause

/-- The part of a path that is quoted is there. -/
theorem follow?_eq (followed rest : List String) (j : Json) :
    follow? (followed ++ rest) followed.length j rest = some (follow followed j rest) := by
  induction rest generalizing followed j with
  | nil => rfl
  | cons s rest ih =>
    rw [follow?, follow]
    cases descend? j s with
    | some inner =>
      have next := ih (followed ++ [s]) inner
      rw [List.append_assoc, List.singleton_append, List.length_append, List.length_singleton]
        at next
      exact next
    | none =>
      have quoted : (followed ++ s :: rest).take (followed.length + 1) = followed ++ [s] := by
        simp [List.take_append]
      simp [quoted]

/-- A path is followed without looking beyond it. -/
theorem extract?_eq (p : EventPath) (payload : Json) :
    p.extract? payload = some (p.extract payload) := by
  have found : follow? p.segments 0 payload p.segments = some (follow [] payload p.segments) :=
    follow?_eq [] p.segments payload
  rw [extract?, found, extract]
  simp only [Option.bind_eq_bind, Option.bind_some, Option.pure_def]
  cases follow [] payload p.segments with
  | ok j => cases j <;> rfl
  | error cause => rfl

end EventPath

/-- Hands the numbers of an event to the nodes bound to it, once all paths have been followed. -/
def Router.handle? (r : Router) (view : ViewId) (event : String) (payload : Json) (g : Graph) :
    Option (Graph × Dispatch) := do
  let _ ← (r.lookup view event).mapM fun b => b.path.extract? payload
  return r.handle view event payload g

/-- Every event is handed out within bounds. -/
theorem Router.handle?_eq (r : Router) (view : ViewId) (event : String) (payload : Json)
    (g : Graph) : r.handle? view event payload g = some (r.handle view event payload g) := by
  rw [handle?, mapM_eq_some_map fun b : EventBinding => b.path.extract?_eq payload]
  rfl

/-! ### Motions -/

namespace Timing

/-- The value at an entry of a table that has the entry and one more, and else the goal. -/
def tableSample? (m : Timing) (frames : List Float) (index : Option Nat) : Option Sample :=
  match index with
  | none => some ⟨m.goal, true⟩
  | some i =>
    if i + 1 < frames.length then do
      let progress ← frames[i]?
      return ⟨m.along progress, false⟩
    else some ⟨m.goal, true⟩

/-- The value at a time since the beginning. -/
def sample? (m : Timing) (elapsed : Float) : Option Sample :=
  match m.curve with
  | .table frames =>
    if elapsed - m.delay < 0.0 then some ⟨m.start, false⟩
    else m.tableSample? frames (Double.nearestNat? ((elapsed - m.delay) / frameLength))
  | .eased _ _ => some (m.sample elapsed)

/-- An entry that is followed by another one is there. -/
theorem tableSample?_eq (m : Timing) (frames : List Float) (index : Option Nat) :
    m.tableSample? frames index = some (m.tableSample frames index) := by
  cases index with
  | none => rfl
  | some i =>
    simp only [tableSample?, tableSample]
    by_cases hi : i + 1 < frames.length
    · simp [hi, List.getElem?_eq_getElem (Nat.lt_of_succ_lt hi)]
    · rw [if_neg hi]
      split
      · rw [if_neg hi]
      · rfl

/-- **A table is read within bounds**, whatever time has passed. -/
theorem sample?_eq (m : Timing) (elapsed : Float) :
    m.sample? elapsed = some (m.sample elapsed) := by
  unfold sample?
  split
  · next frames hc =>
    simp only [sample, hc, tableSample?_eq]
    split <;> rfl
  · rfl

end Timing

/-- A motion goes on to a frame. -/
def Motion.step? (m : Motion) (frame : FrameTime) : Option (Motion × Sample) :=
  match m with
  | .timing t => do
    let sample ← t.sample? frame.elapsed
    return (.timing t, sample)
  | m => some (Animation.step m frame)

/-- Every motion goes on to every frame within bounds. -/
theorem Motion.step?_eq (m : Motion) (frame : FrameTime) :
    m.step? frame = some (Animation.step m frame) := by
  cases m with
  | timing t =>
    rw [step?, Timing.sample?_eq]
    rfl
  | _ => rfl

namespace Driver

variable {κ : Type}

/-- Goes on to a frame once begun. -/
def advance? (d : Driver Motion κ) (now : Float) : Option (Driver Motion κ × Float) := do
  let (animation, sample) ← d.animation.step? (d.frameTime now)
  let d := { d with animation, lastStep := now, lastValue := some sample.value }
  return (if sample.finished then d.endRun now else d, sample.value)

/-- Goes on to a frame, in which the node has the base value `current`. -/
def step? (d : Driver Motion κ) (now current : Float) :
    Option (Driver Motion κ × Option Float) :=
  match d.state with
  | .pending => ((d.begin now current).advance? now).map fun r => (r.1, some r.2)
  | .running => (d.advance? now).map fun r => (r.1, some r.2)
  | .finished | .stopped => some (d, none)

/-- A driver once begun goes on to every frame within bounds. -/
theorem advance?_eq (d : Driver Motion κ) (now : Float) :
    d.advance? now = some (d.advance now) := by
  rw [advance?, Motion.step?_eq]
  rfl

/-- A driver goes on to every frame within bounds. -/
theorem step?_eq (d : Driver Motion κ) (now current : Float) :
    d.step? now current = some (d.step now current) := by
  simp only [step?, step, advance?_eq, Option.map_some]
  cases d.state <;> rfl

end Driver

namespace DriverSet

variable {κ : Type}

/-- A driver goes on to a frame. One whose node is gone, or holds no number, is stopped. -/
def advance? (now : Float) (g : Graph) (d : Driver Motion κ) :
    Option (Driver Motion κ × Option (Tag × Float)) :=
  if d.state.isActive then
    match g.holder d.target with
    | .ok n => (d.step? now n.base).map fun r => (r.1, r.2.map fun x => (d.target, x))
    | .error _ => some (d.stop, none)
  else some (d, none)

/-- All drivers go on to a frame, once each has been found to do so within bounds. -/
def step? (s : DriverSet Motion κ) (now : Float) (g : Graph) :
    Option (DriverSet Motion κ × Graph × StepReport κ) := do
  let _ ← s.drivers.values.mapM (advance? now g)
  return s.step now g

/-- A driver at work goes on to every frame within bounds. -/
theorem advance?_eq (now : Float) (g : Graph) (d : Driver Motion κ) :
    advance? now g d = some (advance now g d) := by
  unfold advance? advance
  split
  · cases g.holder d.target with
    | ok n =>
      simp only [Driver.step?_eq]
      rfl
    | error cause => rfl
  · rfl

/-- The drivers go on to every frame within bounds. -/
theorem step?_eq (s : DriverSet Motion κ) (now : Float) (g : Graph) :
    s.step? now g = some (s.step now g) := by
  rw [step?, mapM_eq_some_map (advance?_eq now g)]
  rfl

end DriverSet

/-! ### The loop -/

namespace FrameLoop

/-- How far a tick goes, if the limit is not below zero. -/
def advance? (l : FrameLoop) (host : Float) : Option Float :=
  match if l.restarted then none else l.lastHost with
  | none => some l.interval
  | some last => Double.clamp? (host - last) 0.0 l.maxDelta

/-- A tick at a time of the host. -/
def tick? (l : FrameLoop) (host : Float) : Option (FrameLoop × FrameTiming) := do
  let delta ← l.advance? host
  let l :=
    { l with
      restarted := false
      lastHost := some host
      now := l.now + delta
      frame := l.frame + 1 }
  return (l, ⟨l.frame, l.now, delta⟩)

/-- **A loop with a limit ticks at every time**, undefined ones and infinite ones, too. -/
theorem tick?_eq {l : FrameLoop} (h : 0.0 ≤ l.maxDelta) (host : Float) :
    l.tick? host = some (l.tick host) := by
  have hd : l.advance? host = some (l.advance host) := by
    unfold advance? advance
    cases if l.restarted then none else l.lastHost with
    | none => rfl
    | some last => exact Double.clamp?_eq h
  rw [tick?, hd]
  rfl

/-- Nothing can be brought below a limit that is no number. -/
example :
    (tick? { interval := 16.0, maxDelta := Double.nan, lastHost := some 0.0 } 16.0).isNone := by
  decide +kernel

end FrameLoop

/-- Settings that are accepted have a positive limit. -/
theorem Settings.limit_of_parse {text : String} {settings : Settings}
    (h : Settings.parse text = .ok settings) : 0.0 < settings.maxDelta := by
  unfold Settings.parse at h
  split at h
  · cases h
  · next s _ =>
    obtain ⟨_, hc, rfl⟩ := except_map_eq_ok.1 h
    unfold Settings.check at hc
    split at hc
    · cases hc
    split at hc
    · cases hc
    split at hc
    · cases hc
    · next hl =>
      simp only [Settings.isDuration, Bool.not_eq_true', Bool.not_eq_false, Bool.and_eq_true,
        decide_eq_true_eq] at hl
      exact hl.2

namespace Engine

variable {κ : Type} {e e' : Engine κ}

/-! ### Calls -/

/-- Propagates once. -/
def settleOnce? (e : Engine κ) : Option (Engine κ × Pass) := do
  let (graph, pass) ← e.graph.propagate?
  let e := { e with graph }.tellObservers pass.recomputed
  let e := { e with dirty := e.dirty.insertAll pass.sinks.toList }
  let e := pass.requests.foldl startTracking e
  return ({ e with graph := (e.graph.applyWrites pass.writes).1 }, pass)

/-- Propagates until nothing is marked, at most so many times. -/
def settleUpTo? : Nat → Engine κ → Pass → Option (Engine κ × Pass)
  | 0, e, done => some (e, done)
  | passes + 1, e, done =>
    if e.graph.isPending then do
      let (e, pass) ← e.settleOnce?
      settleUpTo? passes e (done.append pass)
    else some (e, done)

/-- Propagates until nothing is marked, as often as the settings allow. -/
def settle? (e : Engine κ) : Option (Engine κ × Pass) := settleUpTo? e.settings.maxSettlePasses e {}

/-- Hands an event to the nodes bound to it, and settles if any was written. -/
def handleEvent? (e : Engine κ) (view : ViewId) (event : String) (payload : Json) :
    Option (Engine κ) := do
  let (graph, dispatch) ← e.router.handle? view event payload e.graph
  let e := { e with graph }
  if dispatch.written.isEmpty then return e
  else
    let (e, _) ← e.settle?
    return e.schedule

/-- Carries out a command. -/
def execute? (e : Engine κ) : Command κ → Option (Except EngineError (Engine κ))
  | .handleEvent view event payload => (e.handleEvent? view event payload).map .ok
  | c => some (e.execute c)

/-- Carries out commands that wait, at most so many. -/
def drainUpTo? : Nat → Engine κ → Option (Engine κ × List CommandFailure)
  | 0, e => some (e, [])
  | limit + 1, e =>
    match e.queue with
    | [] => some (e, [])
    | c :: rest => do
      match ← execute? { e with queue := rest } c with
      | .ok e => drainUpTo? limit e
      | .error cause =>
        let (e, failures) ← drainUpTo? limit { e with queue := rest }
        return (e, ⟨c.name, cause⟩ :: failures)

/-- Carries out the commands that wait, as many as the settings allow. -/
def drain? (e : Engine κ) : Option (Engine κ × List CommandFailure) := drainUpTo? e.commandLimit e

/-- A frame at a time of the host. -/
def onFrame? (e : Engine κ) (host : Float) : Option (Engine κ × FrameReport) := do
  let (e, failures) ← e.drain?
  let (loop, timing) ← e.loop.tick? host
  let (drivers, graph, step) ← e.drivers.step? timing.now e.graph
  let (e, _) ← { e with loop, drivers, graph }.settle?
  let (e, viewUpdates) := e.flush timing.frame
  return ((e.deliverAll step.completions).rest,
    { frame := timing.frame
      now := timing.now
      commandFailures := failures.length
      driverWrites := step.written.length
      viewUpdates
      completed := step.completions.length })

/-- The engine after a call. -/
def after? (e : Engine κ) : Call κ → Option (Engine κ)
  | .execute c => do
    match ← e.execute? c with
    | .ok e' => return e'
    | .error _ => return e
  | .send c => some (e.send c)
  | .settle => e.settle?.map Prod.fst
  | .drain => e.drain?.map Prod.fst
  | .frame time => (e.onFrame? time).map Prod.fst

/-- The engine that several calls lead to. -/
def reached? (settings : Settings) (host : Host κ) (calls : List (Call κ)) :
    Option (Engine κ) :=
  calls.foldlM after? (Engine.new settings host)

/-! ### What the guards rest on -/

/-- The graph is one that guarded steps apply to, and the limit of the loop is not below zero. -/
structure Guarded (e : Engine κ) : Prop where
  graph : e.graph.Guarded
  limit : 0.0 ≤ e.loop.maxDelta

/-- Requests keep the graph one that guarded steps apply to. -/
theorem guarded_perform (g : Graph) (r : Graph.Request) (g' : Graph) (h : g.Guarded)
    (hg : g.perform r = .ok g') : g'.Guarded :=
  h.perform hg

/-- So do those that remove no node. -/
theorem guarded_own (g : Graph) (r : Graph.Request) (g' : Graph) (_ : r.dropped? = none)
    (h : g.Guarded) (hg : g.perform r = .ok g') : g'.Guarded :=
  h.perform hg

namespace Guarded

/-- What the guards rest on is kept by calls. -/
theorem after (h : e.Guarded) (c : Call κ) : (e.after c).Guarded :=
  ⟨graph_after guarded_perform c h.graph, (queue_after e c).1.maxDelta ▸ h.limit⟩

/-- The engine propagates once within bounds. -/
theorem settleOnce?_eq (h : e.graph.Guarded) : e.settleOnce? = some e.settleOnce := by
  rw [settleOnce?, h.propagate?_eq]
  rfl

/-- The engine settles within bounds. -/
theorem settleUpTo?_eq (h : e.graph.Guarded) (passes : Nat) (done : Pass) :
    settleUpTo? passes e done = some (settleUpTo passes e done) := by
  induction passes generalizing e done with
  | zero => rfl
  | succ passes ih =>
    rw [settleUpTo?, settleUpTo, settleOnce?_eq h]
    split
    · exact ih (graph_settleOnce guarded_own h) _
    · rfl

/-- An event is handed out, and the engine settles, within bounds. -/
theorem handleEvent?_eq (h : e.graph.Guarded) (view : ViewId) (event : String) (payload : Json) :
    e.handleEvent? view event payload = some (e.handleEvent view event payload).1 := by
  have handed := graph_handle guarded_own e.router view event payload h
  rw [handleEvent?, Router.handle?_eq]
  simp only [Option.bind_eq_bind, Option.bind_some, Option.pure_def, settle?,
    settleUpTo?_eq (e := { e with graph := (e.router.handle view event payload e.graph).1 }) handed]
  unfold handleEvent
  dsimp only
  split <;> rfl

/-- A command is carried out within bounds. -/
theorem execute?_eq (h : e.graph.Guarded) (c : Command κ) : e.execute? c = some (e.execute c) := by
  cases c with
  | handleEvent view event payload =>
    rw [execute?, handleEvent?_eq h]
    rfl
  | _ => rfl

/-- The commands that wait are carried out within bounds. -/
theorem drainUpTo?_eq (h : e.graph.Guarded) (limit : Nat) :
    drainUpTo? limit e = some (drainUpTo limit e) := by
  induction limit generalizing e with
  | zero => rfl
  | succ limit ih =>
    rw [drainUpTo?, drainUpTo]
    cases e.queue with
    | nil => rfl
    | cons c rest =>
      have popped : ({ e with queue := rest } : Engine κ).graph.Guarded := h
      simp only [execute?_eq popped, Option.bind_eq_bind, Option.bind_some]
      cases hx : execute { e with queue := rest } c with
      | ok e' => exact ih (graph_execute guarded_perform popped hx)
      | error cause => simp only [ih popped, Option.bind_some, Option.pure_def]

/-- **A frame stays within bounds**, at every time of the host. -/
theorem onFrame?_eq (h : e.Guarded) (host : Float) : e.onFrame? host = some (e.onFrame host) := by
  have limit : 0.0 ≤ e.drain.1.loop.maxDelta :=
    (queue_drainUpTo e.commandLimit e).1.maxDelta ▸ h.limit
  have drained : e.drain? = some e.drain := drainUpTo?_eq h.graph _
  have settled : (e.drain.1.moved host).settle? = some (e.drain.1.moved host).settle :=
    settleUpTo?_eq (graph_moved guarded_own host (graph_drainUpTo guarded_perform _ h.graph)) _ _
  unfold Engine.moved at settled
  simp only [onFrame?, drained, FrameLoop.tick?_eq limit, DriverSet.step?_eq, Option.bind_eq_bind,
    Option.bind_some]
  rw [settled]
  rfl

/-- **A call stays within bounds.** -/
theorem after?_eq (h : e.Guarded) (c : Call κ) : e.after? c = some (e.after c) := by
  cases c with
  | execute c =>
    rw [after?, execute?_eq h.graph, Engine.after]
    cases e.execute c <;> rfl
  | send c => rfl
  | settle =>
    rw [after?, settle?, settleUpTo?_eq h.graph]
    rfl
  | drain =>
    rw [after?, drain?, drainUpTo?_eq h.graph]
    rfl
  | frame time =>
    rw [after?, onFrame?_eq h]
    rfl

end Guarded

/-- **Runs stay within bounds**: from settings that were accepted, whatever the calls are, the times
of their frames, and the answers of clients, no call comes to a step whose guard does not hold. -/
theorem runs_within_bounds {text : String} {settings : Settings}
    (h : Settings.parse text = .ok settings) (host : Host κ)
    (calls : List (Call κ)) :
    reached? settings host calls = some (reached settings host calls) := by
  have start : (Engine.new settings host).Guarded :=
    ⟨⟨Graph.sound_empty, fun _ _ h => by cases h⟩, Double.le_of_lt (Settings.limit_of_parse h)⟩
  unfold reached? reached
  generalize Engine.new settings host = e at start ⊢
  induction calls generalizing e with
  | nil => rfl
  | cons c calls ih =>
    rw [List.foldlM_cons, start.after?_eq, List.foldl_cons]
    exact ih _ (start.after c)

/-- A node that a table moves, an interpolation and a diff-clamp of it, and frames of
which some have no time. -/
def strangeTimes : List (Call Unit) :=
  [.execute (.createNode ⟨1⟩ (.array [.string "value"])),
   .execute (.createNode ⟨2⟩ (.array [.string "interpolation", .ofNat 1,
     .array [.ofNat 0, .ofNat 10], .array [.ofNat 0, .ofNat 100]])),
   .execute (.createNode ⟨3⟩ (.array [.string "diffclamp", .ofNat 1, .ofNat 0, .ofNat 3])),
   .execute (.connect ⟨2⟩ ⟨1⟩), .execute (.connect ⟨3⟩ ⟨1⟩),
   .execute (.startAnimation ⟨1⟩ ⟨1⟩ (.object
     [("frames", .array [.ofNat 0, .number (.real 0.5), .ofNat 1]), ("toValue", .ofNat 8),
      ("type", .string "timing")]) none),
   .frame 0.0, .frame 17.0, .frame Double.infinity, .frame Double.nan, .frame 18.0]

/-- Accepted settings with a limit of their own. -/
theorem parse_limit :
    Settings.parse "(max_frame_delta_ms: 50.0)" = .ok { maxDelta := 50.0 } := by
  have fields : (Settings.parse "(max_frame_delta_ms: 50.0)").toOption.any (fun s =>
      decide (s.version = 1 ∧ s.defaultInterval = 1000.0 / 60.0 ∧ s.maxDelta = 50.0 ∧
        s.arbitration = .lastWriteWins ∧ s.warnOnConflict = true ∧ s.maxCommands = some 4096 ∧
        s.normalizeEvents = true ∧ s.maxSettlePasses = 4)) = true := by
    decide +kernel
  cases hp : Settings.parse "(max_frame_delta_ms: 50.0)" with
  | error cause =>
    rw [hp] at fields
    cases fields
  | ok s =>
    rw [hp] at fields
    cases s
    obtain ⟨rfl, rfl, rfl, rfl, rfl, rfl, rfl, rfl⟩ := of_decide_eq_true fields
    rfl

/-- Within the settings read, such a run comes to its end, and the clock to no time at all. -/
theorem strangeTimes_within_bounds :
    let settings : Settings := { maxDelta := 50.0 }
    let e := reached settings .silent strangeTimes
    Settings.parse "(max_frame_delta_ms: 50.0)" = .ok settings ∧
      reached? settings .silent strangeTimes = some e ∧ e.loop.now.isNaN = true ∧
      e.graph.value? ⟨1⟩ = some 8.0 ∧ e.graph.value? ⟨2⟩ = some 80.0 ∧
      e.graph.value? ⟨3⟩ = some 3.0 :=
  ⟨parse_limit, runs_within_bounds parse_limit .silent strangeTimes, by decide +kernel,
    by decide +kernel, by decide +kernel, by decide +kernel⟩

end Engine

end MotionGraph
