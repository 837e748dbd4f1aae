import MotionGraph.Proofs.Driver.Ledger
import MotionGraph.Proofs.Engine.InPlace

/-!
# Clients hear of the end of an animation exactly once

Beside an engine a `Ledger` is kept, in which every command that starts or stops an animation is
entered (`Engine.entered`), every animation that a tracking node asks for (`Ledger.track`), and
every frame (`Engine.booked`). It books what was asked for and how the drivers have moved, and never
looks at what clients were told.

Whatever has been called, drivers and clients are as the ledger has them (`Engine.kept_books`):
telling a client goes with the driver's leaving the set, on each of the ways in which that happens.
So every animation with a callback is still at work, with its own driver, or its client was told of
its end, once and in the call in which it ended (`Engine.callbacks_fire_once`).
-/

namespace MotionGraph

/-- What a notice says of the end of an animation. -/
def Notice.ending? {κ : Type} : Notice κ → Option (κ × AnimationEnd)
  | .ended callback report => some (callback, report)
  | .batch _ => none
  | .value _ => none

namespace Ledger

variable {κ : Type}

/-- Books an animation that a tracking node asks for, unless its description is wrong. -/
def track (l : Ledger κ) (r : TrackingRequest) : Ledger κ :=
  match Motion.ofJson r.config with
  | .ok _ => l.start r.animation r.target none false
  | .error _ => l

/-- Books the animations that tracking nodes ask for, in order. -/
def trackAll (l : Ledger κ) (rs : List TrackingRequest) : Ledger κ := rs.foldl track l

end Ledger

namespace Engine

variable {κ : Type} {e e' : Engine κ} {l : Ledger κ}

/-! ### What calls enter -/

/-- The ends of animations that clients were told of, first to last. -/
def endings (e : Engine κ) : List (κ × AnimationEnd) := e.journal.filterMap Notice.ending?

/-- The ledger after a command that is not refused. -/
def granted (e : Engine κ) (l : Ledger κ) : Command κ → Ledger κ
  | .dropNode t => l.stopTargeting t
  | .startAnimation id t _ callback => l.start id t callback true
  | .stopAnimation id => l.stop id
  | .handleEvent view event payload =>
    let (graph, dispatch) := e.router.handle view event payload e.graph
    if dispatch.written.isEmpty then l else l.trackAll { e with graph }.settle.2.requests
  | _ => l

/-- The ledger after a command. -/
def entered (e : Engine κ) (l : Ledger κ) (c : Command κ) : Ledger κ :=
  match e.execute c with
  | .ok _ => e.granted l c
  | .error _ => l

/-- The ledger after several commands, each with the engine that carries it out. -/
def enteredAll (l : Ledger κ) (ps : List (Engine κ × Command κ)) : Ledger κ :=
  ps.foldl (fun l p => p.1.entered l p.2) l

/-- The ledger after a call. -/
def booked (e : Engine κ) (l : Ledger κ) : Call κ → Ledger κ
  | .execute c => e.entered l c
  | .send _ => l
  | .settle => l.trackAll e.settle.2.requests
  | .drain => enteredAll l (carriedOut e.commandLimit e)
  | .frame time =>
    let l := enteredAll l (carriedOut e.commandLimit e)
    let e := e.drain.1
    let l := l.step e.drivers (e.loop.tick time).2.now e.graph
    (l.trackAll (e.moved time).settle.2.requests).tell

/-- The engine that several calls lead to, and its ledger. -/
def kept (settings : Settings) (host : Host κ) (calls : List (Call κ)) :
    Engine κ × Ledger κ :=
  calls.foldl (fun s c => (s.1.after c, s.1.booked s.2 c)) (Engine.new settings host, {})

/-- Keeping a ledger does not change the run. -/
theorem fst_kept (settings : Settings) (host : Host κ)
    (calls : List (Call κ)) : (kept settings host calls).1 = reached settings host calls := by
  unfold kept reached
  generalize ({} : Ledger κ) = l
  generalize Engine.new settings host = e
  induction calls generalizing e l with
  | nil => rfl
  | cons c calls ih => exact ih _ _

/-! ### What clients are told -/

/-- The part of an engine that a ledger books. -/
def work (e : Engine κ) : DriverSet Motion κ × List (κ × AnimationEnd) := (e.drivers, e.endings)

/-- Asking for ticks leaves drivers and ends. -/
theorem work_schedule (e : Engine κ) : e.schedule.work = e.work := by
  unfold schedule
  split <;> rfl

/-- Declining ticks leaves drivers and ends. -/
theorem work_rest (e : Engine κ) : e.rest.work = e.work := by
  unfold rest
  split
  · rfl
  · dsimp only
    split <;> rfl

/-- Clients hear of an end when they are told of it. -/
theorem work_notify (e : Engine κ) (n : Notice κ) :
    (e.notify n).work = (e.drivers, e.endings ++ n.ending?.toList) := by
  have told : (e.notify n).endings = e.endings ++ n.ending?.toList := by
    rw [endings, notify, journal_sendAll]
    cases n <;> simp [endings, Notice.ending?]
  rw [work, told, (Alike.told e n).drivers]

/-- Telling of an end what its driver says. -/
theorem work_deliver (e : Engine κ) (c : Completion κ) :
    (e.deliver c).work = (e.drivers, e.endings ++ c.ending?.toList) := by
  unfold deliver Completion.ending?
  cases c.callback with
  | none => simp [work]
  | some callback => exact work_notify e _

/-- Telling of several ends what their drivers say. -/
theorem work_deliverAll (e : Engine κ) (cs : List (Completion κ)) :
    (e.deliverAll cs).work = (e.drivers, e.endings ++ cs.filterMap Completion.ending?) := by
  induction cs generalizing e with
  | nil => simp [work, deliverAll]
  | cons c cs ih =>
    have first := work_deliver e c
    have rest := ih (e.deliver c)
    simp only [work, Prod.mk.injEq] at first
    rw [first.1, first.2, List.append_assoc] at rest
    show ((e.deliver c).deliverAll cs).work = _
    rw [rest]
    cases hc : c.ending? <;> simp [hc]

/-- Observers hear of no ends. -/
theorem work_tellObservers (e : Engine κ) (computed : List Tag) :
    (e.tellObservers computed).work = e.work := by
  unfold tellObservers
  dsimp only
  generalize (e.observers.notify e.graph computed).2 = told
  have heard : ({ e with observers := (e.observers.notify e.graph computed).1 } : Engine κ).work =
      e.work := rfl
  rw [← heard]
  generalize ({ e with observers := (e.observers.notify e.graph computed).1 } : Engine κ) = e₁
  induction told generalizing e₁ with
  | nil => rfl
  | cons o told ih =>
    rw [List.foldl_cons, ih, work_notify]
    simp [work, Notice.ending?]

/-- Views hear of no ends. -/
theorem work_flush (e : Engine κ) (frame : Nat) : (e.flush frame).1.work = e.work := by
  simp only [flush]
  split
  · rfl
  · rw [work_notify]
    simp [work, Notice.ending?, endings]

/-! ### The books of an engine -/

/-- Drivers and clients are as a ledger has them. -/
def Keeps (e : Engine κ) (l : Ledger κ) : Prop := Books e.drivers e.endings l

namespace Keeps

/-- Only drivers and ends matter. -/
theorem of_work (h : e.Keeps l) (hw : e'.work = e.work) : e'.Keeps l := by
  simp only [work, Prod.mk.injEq] at hw
  unfold Keeps
  rw [hw.1, hw.2]
  exact h

/-- Telling of the ends that drivers were handed out for keeps the books. -/
theorem deliverAll {cs : List (Completion κ)}
    (h : Books e.drivers (e.endings ++ cs.filterMap Completion.ending?) l) :
    (e.deliverAll cs).Keeps l := by
  have hw := work_deliverAll e cs
  simp only [work, Prod.mk.injEq] at hw
  unfold Keeps
  rw [hw.1, hw.2]
  exact h

/-- Starting a driver keeps the books. -/
theorem startDriver (h : e.Keeps l) (d : Driver Motion κ) (requested : Bool)
    (hs : d.state = .pending) (hv : d.lastValue = none) :
    (e.startDriver d).Keeps (l.start d.id d.target d.callback requested) :=
  deliverAll (e := { e with drivers := (e.drivers.start d).1 }) (h.start d requested hs hv)

/-- Starting the animation that a tracking node asks for keeps the books. -/
theorem startTracking (h : e.Keeps l) (r : TrackingRequest) :
    (e.startTracking r).Keeps (l.track r) := by
  unfold Engine.startTracking Ledger.track
  cases Motion.ofJson r.config with
  | error cause => exact h
  | ok m => exact h.startDriver _ false rfl rfl

/-- Starting the animations that tracking nodes ask for keeps the books. -/
theorem startTrackingAll (h : e.Keeps l) (rs : List TrackingRequest) :
    (rs.foldl Engine.startTracking e).Keeps (l.trackAll rs) := by
  induction rs generalizing e l with
  | nil => exact h
  | cons r rs ih => exact ih (h.startTracking r)

/-- Settling once keeps the books. -/
theorem settleOnce (h : e.Keeps l) :
    e.settleOnce.1.Keeps (l.trackAll e.settleOnce.2.requests) := by
  let e₁ := { e with graph := e.graph.propagate.1 }.tellObservers e.graph.propagate.2.recomputed
  let e₂ : Engine κ := { e₁ with dirty := e₁.dirty.insertAll e.graph.propagate.2.sinks.toList }
  have told : e₂.Keeps l := h.of_work (work_tellObservers _ _)
  exact told.startTrackingAll e.graph.propagate.2.requests

/-- Settling keeps the books; the animations asked for before are not booked twice. -/
theorem settleUpTo {done : Pass} (h : e.Keeps (l.trackAll done.requests)) (passes : Nat) :
    (Engine.settleUpTo passes e done).1.Keeps
      (l.trackAll (Engine.settleUpTo passes e done).2.requests) := by
  refine settleUpTo_induction (P := fun e done => e.Keeps (l.trackAll done.requests))
    (fun e done h => ?_) passes h
  have next := h.settleOnce
  rwa [Ledger.trackAll, Ledger.trackAll, ← List.foldl_append] at next

/-- Settling keeps the books. -/
theorem settle (h : e.Keeps l) : e.settle.1.Keeps (l.trackAll e.settle.2.requests) :=
  have start : e.Keeps (l.trackAll ({} : Pass).requests) := h
  start.settleUpTo e.settings.maxSettlePasses

/-! ### Commands -/

/-- What is done at the end of a command keeps the books, if clients are told of the ends that are
booked. -/
theorem closed {o : Outcome κ}
    (h : Books o.engine.drivers (o.engine.endings ++ o.ended.filterMap Completion.ending?) l) :
    o.closed.Keeps l := by
  have told : (o.engine.deliverAll o.ended).Keeps l := deliverAll h
  unfold Outcome.closed
  split
  · exact told.of_work (work_schedule _)
  · exact told

/-- A command that is not refused is booked. -/
theorem granted (h : e.Keeps l) {c : Command κ} (hx : e.execute c = .ok e') :
    e'.Keeps (e.granted l c) := by
  obtain ⟨o, hd, rfl⟩ := done_of_execute hx
  -- a command that stops or starts no animation itself has no ends to tell of
  have quiet : ∀ {e₁ : Engine κ} {l₁ : Ledger κ}, e₁.Keeps l₁ →
      Books e₁.drivers (e₁.endings ++ ([] : List (Completion κ)).filterMap Completion.ending?)
        l₁ := by
    intro e₁ l₁ h
    rw [List.filterMap_nil, List.append_nil]
    exact h
  cases hd with
  | requested hc =>
    cases c <;> cases hc <;> exact closed (quiet h)
  | dropped => exact closed (h.stopTargeting _)
  | started _ _ hd =>
    subst hd
    exact closed (h.start _ true rfl rfl)
  | stopped => exact closed (Books.stop h _)
  | @passed view event payload hw =>
    unfold Engine.granted
    dsimp only
    rw [if_pos hw]
    exact closed (quiet h)
  | @handed view event payload hw =>
    have handed : Keeps { e with graph := (e.router.handle view event payload e.graph).1 } l := h
    unfold Engine.granted
    dsimp only
    rw [if_neg (Bool.eq_false_iff.1 hw)]
    exact closed (quiet handed.settle)
  | _ => exact closed (quiet h)

/-- A command is booked; a refused one changes nothing. -/
theorem entered (h : e.Keeps l) (c : Command κ) :
    (e.after (.execute c)).Keeps (e.entered l c) := by
  unfold Engine.entered
  rw [after]
  cases hx : e.execute c with
  | ok e' => exact h.granted hx
  | error cause => exact h

/-- The commands that wait are booked, each when its turn comes. -/
theorem drainUpTo (h : e.Keeps l) (limit : Nat) :
    (Engine.drainUpTo limit e).1.Keeps (enteredAll l (carriedOut limit e)) := by
  refine drainUpTo_fold (P := Keeps) (Q := fun _ => True) (fun e l c rest _ h _ => ?_) limit
    (fun _ _ => trivial) h
  exact entered (e := { e with queue := rest }) h c

end Keeps

/-! ### Runs -/

/-- Tracking leaves those whose clients are still to be told. -/
theorem owed_trackAll (l : Ledger κ) (rs : List TrackingRequest) :
    (l.trackAll rs).owed = l.owed := by
  induction rs generalizing l with
  | nil => rfl
  | cons r rs ih =>
    refine (ih (l.track r)).trans ?_
    unfold Ledger.track
    split <;> rfl

/-- Commands leave those whose clients are still to be told. -/
theorem owed_entered (e : Engine κ) (l : Ledger κ) (c : Command κ) :
    (e.entered l c).owed = l.owed := by
  have stopAll : ∀ (ids : List AnimationId) (l : Ledger κ), (l.stopAll ids).owed = l.owed := by
    intro ids
    induction ids with
    | nil => exact fun _ => rfl
    | cons id ids ih => exact fun l => ih (l.stop id)
  unfold entered
  split
  · cases c <;> try rfl
    · exact stopAll _ l
    · unfold granted
      dsimp only
      split
      · rfl
      · exact owed_trackAll l _
  · rfl

/-- Commands leave those whose clients are still to be told. -/
theorem owed_enteredAll (l : Ledger κ) (ps : List (Engine κ × Command κ)) :
    (enteredAll l ps).owed = l.owed := by
  induction ps generalizing l with
  | nil => rfl
  | cons p ps ih => exact (ih _).trans (owed_entered p.1 l p.2)

/-- After a call no client is still to be told. -/
theorem owed_booked (e : Engine κ) (h : l.owed = []) (c : Call κ) : (e.booked l c).owed = [] := by
  cases c with
  | execute c => exact (owed_entered e l c).trans h
  | send c => exact h
  | settle => exact (owed_trackAll l _).trans h
  | drain => exact (owed_enteredAll l _).trans h
  | frame time => rfl

/-- A frame is booked. -/
theorem Keeps.frame (h : e.Keeps l) (ho : l.owed = []) (time : Float) :
    (e.onFrame time).1.Keeps (e.booked l (.frame time)) := by
  let l₁ := enteredAll l (carriedOut e.commandLimit e)
  let l₂ := l₁.step e.drain.1.drivers (e.drain.1.loop.tick time).2.now e.drain.1.graph
  let l₃ := l₂.trackAll (e.drain.1.moved time).settle.2.requests
  let e₃ := ((e.drain.1.moved time).settle.1.flush (e.drain.1.loop.tick time).2.frame).1
  have drained : e.drain.1.Keeps l₁ := h.drainUpTo e.commandLimit
  have moved : (e.drain.1.moved time).Keeps l₂ := Books.step drained _ _
  have flushed : e₃.Keeps l₃ := moved.settle.of_work (work_flush _ _)
  have leaving :
      (e.drain.1.ended time).filterMap Completion.ending? = l₃.owed.filterMap Life.ending? := by
    rw [owed_trackAll]
    exact Books.handed_step drained _ _ ((owed_enteredAll l _).trans ho)
  have told : (e₃.deliverAll (e.drain.1.ended time)).Keeps l₃.tell := by
    refine Keeps.deliverAll ?_
    rw [leaving]
    exact Books.tell flushed
  rw [onFrame_eq]
  exact told.of_work (work_rest _)

/-- Every call is booked. -/
theorem Keeps.after (h : e.Keeps l) (ho : l.owed = []) (c : Call κ) :
    (e.after c).Keeps (e.booked l c) := by
  cases c with
  | execute c => exact h.entered c
  | send c => exact h
  | settle => exact h.settle
  | drain => exact h.drainUpTo e.commandLimit
  | frame time => exact h.frame ho time

/-- In every run drivers and clients are as the ledger has them, and no client is still to be
told. -/
theorem kept_books (settings : Settings) (host : Host κ)
    (calls : List (Call κ)) :
    (kept settings host calls).1.Keeps (kept settings host calls).2 ∧
      (kept settings host calls).2.owed = [] := by
  unfold kept
  have new : (Engine.new settings host).Keeps ({} : Ledger κ) ∧ ({} : Ledger κ).owed = [] :=
    ⟨Books.empty, rfl⟩
  generalize Engine.new settings host = e at new ⊢
  generalize ({} : Ledger κ) = l at new ⊢
  induction calls generalizing e l with
  | nil => exact new
  | cons c calls ih => exact ih _ _ ⟨new.1.after new.2 c, owed_booked e new.2 c⟩

/-! ### Ledgers follow each other -/

/-- Tracking leads to a later ledger. -/
theorem later_trackAll (l : Ledger κ) (rs : List TrackingRequest) :
    Ledger.Later l (l.trackAll rs) := by
  refine Ledger.Later.foldl (fun l r => ?_) rs l
  unfold Ledger.track
  split
  · exact .start l _ _ _ _
  · exact .refl l

/-- Commands lead to a later ledger. -/
theorem later_entered (e : Engine κ) (l : Ledger κ) (c : Command κ) :
    Ledger.Later l (e.entered l c) := by
  unfold entered
  split
  · cases c <;> try exact .refl l
    · exact .stopTargeting l _
    · exact .start l _ _ _ _
    · exact .stop l _
    · unfold granted
      dsimp only
      split
      · exact .refl l
      · exact later_trackAll l _
  · exact .refl l

/-- Calls lead to a later ledger. -/
theorem later_booked (e : Engine κ) (l : Ledger κ) (c : Call κ) :
    Ledger.Later l (e.booked l c) := by
  have drained : ∀ limit, Ledger.Later l (enteredAll l (carriedOut limit e)) := fun limit =>
    .foldl (fun l (p : Engine κ × Command κ) => later_entered p.1 l p.2) _ l
  cases c with
  | execute c => exact later_entered e l c
  | send c => exact .refl l
  | settle => exact later_trackAll l _
  | drain => exact drained _
  | frame time =>
    exact ((drained _).trans (.step _ _ _ _)).trans ((later_trackAll _ _).trans (.tell _))

/-- **Clients hear of the end of an animation exactly once**: whatever has been called, the
animations at work are those whose own drivers are in the set; every animation that was started is
at work or over, and booked once; and clients were told of exactly those that are over, with their
own reports. In every further call the animations that leave are those whose clients are told. An
animation that is refused tells nobody anything. -/
theorem callbacks_fire_once (settings : Settings) (host : Host κ)
    (calls : List (Call κ)) (call : Call κ) :
    let s := kept settings host calls
    let s' := kept settings host (calls ++ [call])
    s.1 = reached settings host calls ∧
      List.Forall₂ Life.Of s.2.atWork s.1.drivers.drivers.toList ∧
      ((s.2.atWork ++ s.2.gone).map Life.number).Perm (List.range s.2.started) ∧
      s.1.endings = s.2.gone.filterMap Life.ending? ∧
      (∃ left, s'.2.gone = s.2.gone ++ left ∧
        s'.1.endings = s.1.endings ++ left.filterMap Life.ending? ∧
        ∀ x ∈ s.2.atWork, ∃ y ∈ s'.2.atWork ++ left, y.Continues x) ∧
      ∀ (e : Engine κ) id t config callback cause e',
        (Edit.startAnimation id t config callback).run e = .error cause e' →
          e'.endings = e.endings := by
  intro s s'
  obtain ⟨books, howed⟩ := kept_books settings host calls
  obtain ⟨books', howed'⟩ := kept_books settings host (calls ++ [call])
  have next : s' = (s.1.after call, s.1.booked s.2 call) := by
    simp only [s, s', kept, List.foldl_append, List.foldl_cons, List.foldl_nil]
  have later : Ledger.Later s.2 s'.2 := by
    rw [next]
    exact later_booked s.1 s.2 call
  refine ⟨fst_kept settings host calls, books.own, ?_, books.told, ?_, ?_⟩
  · rw [← Ledger.lives_of_owed howed]
    exact books.numbers
  · obtain ⟨left, hleft⟩ := later.gone
    refine ⟨left, hleft.symm, ?_, fun x hx => books.continues_or_left howed later howed' hleft hx⟩
    rw [books'.told, books.told, ← List.filterMap_append, hleft]
  · intro e id t config callback cause e' hx
    rw [Edit.run_startAnimation] at hx
    cases ha : e.startAnimation id t config callback <;> rw [ha] at hx <;> cases hx
    rfl

/-- A value is animated, and two frames pass. -/
def twoFrames : List (Call Unit) :=
  [.execute (.createNode ⟨1⟩ (.array [.string "value", .number (.real 1.0)])),
   .execute (.startAnimation ⟨5⟩ ⟨1⟩ (.array [.string "clock"]) (some ())), .frame 16.0,
   .frame 32.0]

/-- When the node is removed, the client of its animation is told of an end that the animation did
not reach by itself, in this call and once. -/
theorem removal_tells_once :
    let s := kept {} .silent twoFrames
    let s' := kept {} .silent (twoFrames ++ [.execute (.dropNode ⟨1⟩)])
    (s.2.atWork.length, s.1.endings.length) = (1, 0) ∧
      ∃ x, s'.2.gone = [x] ∧ s'.1.endings = [x].filterMap Life.ending? ∧
        s'.1.endings.map (fun p => (p.2.finished, p.2.value.isSome)) = [(false, true)] := by
  intro s s'
  have busy : (s.2.atWork.length, s.1.endings.length) = (1, 0) := by decide +kernel
  have before : s.2.gone.length = 0 := by decide +kernel
  have ended : s'.2.gone.length = 1 := by decide +kernel
  have told : s'.1.endings.map (fun p => (p.2.finished, p.2.value.isSome)) = [(false, true)] := by
    decide +kernel
  obtain ⟨-, -, -, heard, ⟨left, hgone, hleft, -⟩, -⟩ :=
    callbacks_fire_once {} .silent twoFrames (.execute (.dropNode ⟨1⟩))
  rw [List.length_eq_zero_iff.1 before, List.nil_append] at hgone
  rw [heard, List.length_eq_zero_iff.1 before, List.filterMap_nil, List.nil_append] at hleft
  obtain ⟨x, hx⟩ := List.length_eq_one_iff.1 ended
  refine ⟨busy, x, hx, ?_, told⟩
  rw [hleft, ← hgone, hx]

end Engine

end MotionGraph
