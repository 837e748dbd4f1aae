import MotionGraph.Proofs.Engine.Commands
import MotionGraph.Proofs.Graph.Sound

/-!
# Runs of engines

`Engine.reached` is the engine that several calls lead to. `Engine.commandsOf` lists the commands
that a call carries out, each with the engine that carries it out: a call carries out one
command, or those that wait.

The graph of an engine changes by requests only, so that every call keeps what requests keep
(`Engine.graph_after`); in particular the graph stays sound (`Engine.sound_reached`).

The same steps recur in all that an engine does: observers are told values, clients are told of
ends, ticks are asked for, and what is neither told nor waits changes. A relation that goes on from
step to step and holds of these (`Engine.Stepwise`) holds of settling and of commands.
-/

namespace MotionGraph

namespace Engine

variable {κ : Type} {e e' e'' : Engine κ}

/-! ### Runs -/

/-- The engine that several calls lead to. -/
def reached (settings : Settings) (host : Host κ) (calls : List (Call κ)) :
    Engine κ :=
  calls.foldl after (Engine.new settings host)

/-- What holds of an engine with nothing in it and is kept by every call holds after every run. -/
theorem reached_induction {settings : Settings} {host : Host κ}
    {P : Engine κ → Prop} (new : P (Engine.new settings host))
    (step : ∀ e c, P e → P (e.after c)) (calls : List (Call κ)) :
    P (reached settings host calls) := by
  unfold reached
  generalize Engine.new settings host = e at new ⊢
  induction calls generalizing e with
  | nil => exact new
  | cons c calls ih => exact ih _ (step e c new)

/-- The animations that are over at a frame, as the drivers hand them out. -/
def ended (e : Engine κ) (time : Float) : List (Completion κ) :=
  (e.drivers.step (e.loop.tick time).2.now e.graph).2.2.completions

/-- A frame part by part: the commands that wait, the drivers, settling, the batch, the clients of
animations that are over, and rest. -/
theorem onFrame_eq (e : Engine κ) (time : Float) :
    (e.onFrame time).1 =
      (((e.drain.1.moved time).settle.1.flush (e.drain.1.loop.tick time).2.frame).1.deliverAll
        (e.drain.1.ended time)).rest := by
  unfold onFrame
  rfl

/-- The commands that wait and are carried out, at most so many, each with the engine that carries
it out. -/
def carriedOut : Nat → Engine κ → List (Engine κ × Command κ)
  | 0, _ => []
  | limit + 1, e =>
    match e.queue with
    | [] => []
    | c :: rest =>
      let e := { e with queue := rest }
      (e, c) :: carriedOut limit (e.after (.execute c))

/-- The commands that a call carries out, each with the engine that carries it out. -/
def commandsOf (e : Engine κ) : Call κ → List (Engine κ × Command κ)
  | .execute c => [(e, c)]
  | .drain | .frame _ => carriedOut e.commandLimit e
  | .send _ | .settle => []

/-- The first command that waits is carried out, then the others. -/
theorem fst_drainUpTo_cons {c : Command κ} {rest : List (Command κ)} (hq : e.queue = c :: rest)
    (limit : Nat) :
    (drainUpTo (limit + 1) e).1 =
      (drainUpTo limit ({ e with queue := rest }.after (.execute c))).1 := by
  rw [drainUpTo, hq, after]
  dsimp only
  cases execute { e with queue := rest } c <;> rfl

/-- What carrying out the first command that waits keeps of an engine and of what is written down
beside it, carrying out those that wait keeps. -/
theorem drainUpTo_fold {σ : Type} {f : σ → Engine κ × Command κ → σ} {P : Engine κ → σ → Prop}
    {Q : Engine κ × Command κ → Prop}
    (step : ∀ e s c rest, Q ({ e with queue := rest }, c) → P e s → e.queue = c :: rest →
      P ({ e with queue := rest }.after (.execute c)) (f s ({ e with queue := rest }, c)))
    (limit : Nat) (hok : ∀ p ∈ carriedOut limit e, Q p) {s : σ} (h : P e s) :
    P (drainUpTo limit e).1 ((carriedOut limit e).foldl f s) := by
  induction limit generalizing e s with
  | zero => exact h
  | succ limit ih =>
    cases hq : e.queue with
    | nil =>
      rw [drainUpTo, carriedOut, hq]
      exact h
    | cons c rest =>
      rw [carriedOut, hq] at hok
      rw [fst_drainUpTo_cons hq, carriedOut, hq]
      exact ih (fun p hp => hok p (List.mem_cons_of_mem _ hp))
        (step e s c rest (hok _ List.mem_cons_self) h hq)

/-- What carrying out the first command that waits keeps, carrying out those that wait keeps. -/
theorem drainUpTo_induction {P : Engine κ → Prop}
    (step : ∀ e c rest, P e → e.queue = c :: rest →
      P ({ e with queue := rest }.after (.execute c))) (limit : Nat) (h : P e) :
    P (drainUpTo limit e).1 :=
  drainUpTo_fold (f := fun u _ => u) (P := fun e _ => P e) (Q := fun _ => True)
    (fun e _ c rest _ => step e c rest) limit (fun _ _ => trivial) (s := ()) h

/-- What settling once keeps of an engine and of what was done so far, settling keeps. -/
theorem settleUpTo_induction {P : Engine κ → Pass → Prop}
    (once : ∀ e done, P e done → P e.settleOnce.1 (done.append e.settleOnce.2)) (passes : Nat)
    {done : Pass} (h : P e done) :
    P (settleUpTo passes e done).1 (settleUpTo passes e done).2 := by
  induction passes generalizing e done with
  | zero => exact h
  | succ passes ih =>
    rw [settleUpTo]
    split
    · exact ih (once e done h)
    · exact h

/-- A relation between an engine and a later one that goes on from step to step and holds wherever
observers are told values, clients are told of ends, ticks are asked for, or what is neither told
nor waits has changed. -/
structure Stepwise (R : Engine κ → Engine κ → Prop) : Prop where
  trans : ∀ {e e' e'' : Engine κ}, R e e' → R e' e'' → R e e''
  quiet : ∀ (e : Engine κ) graph drivers router observers dirty resets,
    R e { e with graph, drivers, router, observers, dirty, resets }
  wake : ∀ e, R e e.wake
  told : ∀ e o, R e (e.notify (.value o))
  ended : ∀ e callback report, R e (e.notify (.ended callback report))

namespace Stepwise

variable {R : Engine κ → Engine κ → Prop} (h : Stepwise R)

include h

/-- It holds of an engine that stays as it is. -/
theorem refl (e : Engine κ) : R e e := h.quiet e ..

/-- It holds of steps together of each of which it holds. -/
theorem foldl {α : Type} {f : Engine κ → α → Engine κ} (hf : ∀ e a, R e (f e a)) (l : List α)
    (e : Engine κ) : R e (l.foldl f e) := by
  induction l generalizing e with
  | nil => exact h.refl e
  | cons a l ih => exact h.trans (hf e a) (ih (f e a))

/-- It holds when ticks are asked for if there is anything to do. -/
theorem schedule (e : Engine κ) : R e e.schedule := by
  unfold Engine.schedule
  split
  · exact h.wake e
  · exact h.refl e

/-- It holds when the client of an animation is told. -/
theorem deliver (e : Engine κ) (c : Completion κ) : R e (e.deliver c) := by
  unfold Engine.deliver
  split
  · exact h.ended e _ _
  · exact h.refl e

/-- It holds when the clients of several animations are told. -/
theorem deliverAll (e : Engine κ) (cs : List (Completion κ)) : R e (e.deliverAll cs) :=
  h.foldl h.deliver cs e

/-- It holds when an animation is started that a tracking node asks for. -/
theorem startTracking (e : Engine κ) (r : TrackingRequest) : R e (e.startTracking r) := by
  unfold Engine.startTracking
  split
  · exact h.trans (h.quiet e ..) (h.deliverAll _ _)
  · exact h.refl e

/-- It holds when observers are told. -/
theorem tellObservers (e : Engine κ) (computed : List Tag) : R e (e.tellObservers computed) :=
  h.trans (h.quiet e ..) (h.foldl h.told _ _)

/-- It holds when an engine propagates once. -/
theorem settleOnce (e : Engine κ) : R e e.settleOnce.1 := by
  let e₁ : Engine κ := { e with graph := e.graph.propagate.1 }
  let e₂ := e₁.tellObservers e.graph.propagate.2.recomputed
  let e₃ : Engine κ := { e₂ with dirty := e₂.dirty.insertAll e.graph.propagate.2.sinks.toList }
  let e₄ := e.graph.propagate.2.requests.foldl Engine.startTracking e₃
  have computed : R e e₁ := h.quiet e ..
  have told : R e₁ e₂ := h.tellObservers e₁ _
  have noted : R e₂ e₃ := h.quiet e₂ ..
  have tracked : R e₃ e₄ := h.foldl h.startTracking _ e₃
  have written : R e₄ e.settleOnce.1 := h.quiet e₄ ..
  exact h.trans (h.trans computed told) (h.trans (h.trans noted tracked) written)

/-- It holds when an engine propagates several times. -/
theorem settleUpTo (passes : Nat) (e : Engine κ) (done : Pass) :
    R e (Engine.settleUpTo passes e done).1 :=
  settleUpTo_induction (P := fun e' _ => R e e') (fun e' _ he => h.trans he (h.settleOnce e'))
    passes (h.refl e)

/-- It holds when an engine settles. -/
theorem settle (e : Engine κ) : R e e.settle.1 := h.settleUpTo _ e _

/-- It holds when further ticks are declined, if it holds where the loop is stopped. -/
theorem rest (stopped : ∀ e : Engine κ, R e { e with loop := e.loop.stop.1 }) (e : Engine κ) :
    R e e.rest := by
  unfold Engine.rest
  split
  · exact h.refl e
  · dsimp only
    split
    · exact stopped e
    · exact h.trans (stopped e) (h.wake _)

/-- It holds when a command is carried out, up to its close. -/
theorem done {c : Command κ} {o : Outcome κ} (hd : Done e c o) : R e o.engine := by
  cases hd with
  | handed => exact h.trans (h.quiet e ..) (h.settle _)
  | _ => exact h.quiet e ..

/-- It holds when a command closes. -/
theorem closed (o : Outcome κ) : R o.engine o.closed := by
  unfold Outcome.closed
  split
  · exact h.trans (h.deliverAll _ _) (h.schedule _)
  · exact h.deliverAll _ _

/-- It holds when a command is granted. -/
theorem execute {c : Command κ} (hx : e.execute c = .ok e') : R e e' := by
  obtain ⟨o, hd, rfl⟩ := done_of_execute hx
  exact h.trans (h.done hd) (h.closed o)

/-- It holds when a command is carried out, granted or refused. -/
theorem after_execute (e : Engine κ) (c : Command κ) : R e (e.after (.execute c)) := by
  rw [after]
  split
  · next hx => exact h.execute hx
  · exact h.refl e

end Stepwise

/-- What taking a command from the queue and carrying one out keeps holds of every engine that
carries out a command of a call. -/
theorem commandsOf_induction {P : Engine κ → Prop}
    (pop : ∀ e rest, P e → P { e with queue := rest })
    (step : ∀ e c, P e → P (e.after (.execute c))) (h : P e) (call : Call κ) :
    ∀ p ∈ commandsOf e call, P p.1 := by
  have waiting : ∀ limit e, P e → ∀ p ∈ carriedOut limit e, P p.1 := by
    intro limit
    induction limit with
    | zero => simp [carriedOut]
    | succ limit ih =>
      intro e h p hp
      rw [carriedOut] at hp
      split at hp
      · cases hp
      · next c rest _ =>
        have popped := pop e rest h
        rcases List.mem_cons.1 hp with rfl | hp
        · exact popped
        · exact ih _ (step _ c popped) p hp
  cases call with
  | execute c =>
    intro p hp
    rw [List.mem_singleton.1 hp]
    exact h
  | drain => exact waiting _ e h
  | frame time => exact waiting _ e h
  | send c => exact fun p hp => absurd hp List.not_mem_nil
  | settle => exact fun p hp => absurd hp List.not_mem_nil

/-! ### What requests to the graph keep -/

section OwnRequests

variable {P : Graph → Prop}
  (own : ∀ g r g', r.dropped? = none → P g → g.perform r = .ok g' → P g')

include own

/-- What requests that remove no node keep, setting a base value keeps. -/
theorem graph_setBase (g : Graph) (t : Tag) (x : Float) (r : Graph × Bool) (h : P g)
    (hr : g.setBase t x = .ok r) : P r.1 :=
  own g (.setBase t x) r.1 rfl h (except_map_eq_ok.2 ⟨r, hr, rfl⟩)

/-- What requests that remove no node keep, handing out the numbers of an event keeps. -/
theorem graph_handle (router : Router) (view : ViewId) (event : String) (payload : Json) {g : Graph}
    (h : P g) : P (router.handle view event payload g).1 :=
  Router.deliver_induction (fun g b x r _ => graph_setBase own g b.target x r) _ payload h

/-- What requests that remove no node keep, settling once keeps. -/
theorem graph_settleOnce (h : P e.graph) : P e.settleOnce.1.graph := by
  show P e.settleOnce.1.content.1
  rw [content_settleOnce]
  exact own _ (.applyWrites _) _ rfl (own _ .propagate _ rfl h rfl) rfl

/-- What requests that remove no node keep, settling keeps. -/
theorem graph_settleUpTo (passes : Nat) (done : Pass) (h : P e.graph) :
    P (settleUpTo passes e done).1.graph :=
  settleUpTo_induction (P := fun e _ => P e.graph) (fun _ _ => graph_settleOnce own) passes h

/-- What requests that remove no node keep, moving the drivers keeps. -/
theorem graph_moved (time : Float) (h : P e.graph) : P (e.moved time).graph :=
  DriverSet.write_induction (fun g t x r _ => graph_setBase own g t x r) h

/-- What requests that remove no node keep, taking the updates of props nodes keeps. -/
theorem graph_takeUpdates {g : Graph} (ts : List Tag) (h : P g) : P (takeUpdates g ts).1 := by
  induction ts generalizing g with
  | nil => exact h
  | cons t ts ih => exact ih (own _ (.takeUpdate t) _ rfl h rfl)

end OwnRequests

section AllRequests

variable {P : Graph → Prop} (step : ∀ g r g', P g → g.perform r = .ok g' → P g')

include step

/-- What requests keep, a command that is not refused keeps. -/
theorem graph_execute {c : Command κ} (h : P e.graph) (hx : e.execute c = .ok e') : P e'.graph := by
  have own : ∀ g r g', r.dropped? = none → P g → g.perform r = .ok g' → P g' :=
    fun g r g' _ => step g r g'
  obtain ⟨o, hd, rfl⟩ := done_of_execute hx
  rw [o.alike.graph]
  cases hd with
  | created hg => exact step _ (.create _ _) _ h hg
  | requested _ hg => exact step _ _ _ h hg
  | detached hg => exact step _ (.detachView _ _) _ h hg
  | dropped hg => exact step _ (.drop _ _) _ h (except_map_eq_ok.2 ⟨_, hg, rfl⟩)
  | restored hr => exact step _ (.restoreDefaults _) _ h (except_map_eq_ok.2 ⟨_, hr, rfl⟩)
  | passed => exact graph_handle own _ _ _ _ h
  | handed => exact graph_settleUpTo own _ _ (graph_handle own _ _ _ _ h)
  | _ => exact h

/-- What requests keep, a command keeps. -/
theorem graph_after_execute (c : Command κ) (h : P e.graph) : P (e.after (.execute c)).graph := by
  rw [after]
  split
  · next hx => exact graph_execute step h hx
  · exact h

/-- What requests keep, carrying out the commands that wait keeps. -/
theorem graph_drainUpTo (limit : Nat) (h : P e.graph) : P (drainUpTo limit e).1.graph :=
  drainUpTo_induction (P := fun e => P e.graph)
    (fun _ c _ h _ => graph_after_execute step c h) limit h

/-- **What requests to a graph keep, every call keeps.** -/
theorem graph_after (c : Call κ) (h : P e.graph) : P (e.after c).graph := by
  have own : ∀ g r g', r.dropped? = none → P g → g.perform r = .ok g' → P g' :=
    fun g r g' _ => step g r g'
  cases c with
  | execute c => exact graph_after_execute step c h
  | send c => exact h
  | settle => exact graph_settleUpTo own _ _ h
  | drain => exact graph_drainUpTo step _ h
  | frame time =>
    have moved : P (e.drain.1.moved time).graph := graph_moved own time (graph_drainUpTo step _ h)
    rw [show (e.after (.frame time)).graph = _ from congrArg Prod.fst (content_onFrame e time)]
    exact graph_takeUpdates own _ (graph_settleUpTo own _ _ moved)

end AllRequests

/-- Every run keeps the graph sound. -/
theorem sound_reached (settings : Settings) (host : Host κ)
    (calls : List (Call κ)) : (reached settings host calls).graph.Sound :=
  reached_induction (P := fun e => e.graph.Sound) Graph.sound_empty
    (fun _ c h => graph_after (fun _ _ _ h hg => h.perform hg) c h) calls

end Engine

end MotionGraph
