import MotionGraph.Proofs.Driver.Ledger
import MotionGraph.Proofs.Engine.Run

/-!
# The loop never sleeps on work

Something waits in an engine if a driver is active, a node is marked, a view is to be updated or
a command is in the queue (`Engine.Waits`). An engine is awake if its loop runs whenever
something waits (`Engine.Awake`).

Telling clients something, starting drivers and settling never stop the loop, and a command that
clients answer with asks for a tick (`Engine.Onward`). So the queue never sleeps, and a command that
makes work ends with a call for ticks (`Attended.awake_schedule`); the other commands make no work
(`Awake.idle`). A frame ends by declining further ticks, which happens exactly if nothing waits
(`Awake.running_rest_iff`).
-/

namespace MotionGraph

/-- A driver that is not active gives no value in a frame. -/
theorem DriverSet.advance_of_inactive {α κ : Type} [Animation α] {d : Driver α κ}
    (h : d.state.isActive = false) (now : Float) (g : Graph) : advance now g d = (d, none) := by
  simp [advance, h]

/-- Without active drivers a frame writes nothing, and leaves none active. -/
theorem DriverSet.step_of_inactive {α κ : Type} [Animation α] {s : DriverSet α κ}
    (h : s.hasActive = false) (now : Float) (g : Graph) :
    (s.step now g).1.hasActive = false ∧ (s.step now g).2.1 = g := by
  have idle : ∀ d ∈ s.drivers.values, d.state.isActive = false := by
    simpa [hasActive] using h
  have silent : (s.drivers.values.filterMap fun d => (advance now g d).2) = [] := by
    rw [List.filterMap_eq_nil_iff]
    intro d hd
    rw [advance_of_inactive (idle d hd)]
  constructor
  · simp only [step, hasActive, OrderedMap.filter, OrderedMap.map, OrderedMap.values,
      List.any_eq_false, List.mem_map, List.mem_filter]
    rintro _ ⟨_, ⟨⟨⟨id, d⟩, hd, rfl⟩, hactive⟩, rfl⟩
    have hd : d ∈ s.drivers.values := List.mem_map_of_mem (f := Prod.snd) hd
    rw [advance_of_inactive (idle d hd), idle d hd] at hactive
    cases hactive
  · simp only [step, silent]
    rfl

/-- An event that writes nothing leaves the graph. -/
theorem Router.graph_deliver_of_unwritten {key : EventKey} {payload : Json} {g : Graph}
    {bs : List EventBinding} (h : (deliver key payload g bs).2.written = []) :
    (deliver key payload g bs).1 = g := by
  induction bs with
  | nil => rfl
  | cons b bs ih =>
    unfold deliver at h ⊢
    split
    · next he => exact ih (by simpa [he] using h)
    · next x he =>
      rw [he] at h
      dsimp only at h
      split
      · next hs => simp [hs] at h
      · next hs => exact ih (by simpa [hs] using h)

namespace Engine

variable {κ : Type} {e e' e'' : Engine κ}

/-! ### What waits -/

/-- Something waits to be done: a driver is active, a node is marked, a view is to be updated, an
update is to be taken back, or a command is in the queue. -/
def Waits (e : Engine κ) : Prop :=
  (∃ d ∈ e.drivers.drivers.values, d.state.isActive = true) ∨ (∃ t, t ∈ e.graph.marked) ∨
    (∃ t, t ∈ e.dirty) ∨ e.resets ≠ [] ∨ e.queue ≠ []

/-- The loop runs if anything waits. -/
def Awake (e : Engine κ) : Prop := e.Waits → e.loop.running = true

/-- The loop runs if a command waits. -/
def Attended (e : Engine κ) : Prop := e.queue ≠ [] → e.loop.running = true

/-- A set has a member unless it is empty. -/
theorem exists_mem_iff_isEmpty {α : Type} {s : OrderedSet α} :
    (∃ a, a ∈ s) ↔ s.isEmpty = false := by
  simp only [OrderedSet.isEmpty, ← OrderedSet.mem_toList, List.isEmpty_eq_false_iff_exists_mem]

/-- What waits is what there is to do in a frame, and the queue. -/
theorem waits_iff : e.Waits ↔ e.hasWork = true ∨ e.queue ≠ [] := by
  simp [Waits, hasWork, DriverSet.hasActive, Graph.isPending, exists_mem_iff_isEmpty, or_assoc]

/-- In an engine that is awake the queue is attended to. -/
theorem Awake.attended (h : e.Awake) : e.Attended := fun hq => h (waits_iff.2 (Or.inr hq))

/-- An engine whose loop runs is awake. -/
theorem Awake.of_running (h : e.loop.running = true) : e.Awake := fun _ => h

/-- Where nothing waits that did not wait before, an engine stays awake. -/
theorem Awake.of_less (h : e.Awake) (less : e'.Waits → e.Waits)
    (running : e.loop.running = true → e'.loop.running = true) : e'.Awake :=
  fun hw => running (h (less hw))

/-! ### Steps that let the loop run -/

/-- The loop runs on, and a command that joins the queue is attended to. -/
structure Onward (e e' : Engine κ) : Prop where
  running : e.loop.running = true → e'.loop.running = true
  attended : e.Attended → e'.Attended

namespace Onward

/-- Where neither the loop nor the queue changes, the loop runs on. -/
theorem of_eq (hl : e'.loop = e.loop) (hq : e'.queue = e.queue) : Onward e e' := by
  constructor
  · intro h
    rw [hl, h]
  · intro h
    unfold Attended
    rw [hl, hq]
    exact h

/-- The loop runs on from step to step. -/
theorem trans (h : Onward e e') (h' : Onward e' e'') : Onward e e'' :=
  ⟨h'.running ∘ h.running, h'.attended ∘ h.attended⟩

/-- A loop that was asked for ticks runs. -/
theorem running_wake (e : Engine κ) : e.wake.loop.running = true := by
  simp only [wake, FrameLoop.start]
  split
  · assumption
  · rfl

/-- A command that joins the queue asks for a tick. -/
theorem send (e : Engine κ) (c : Command κ) : Onward e (e.send c) :=
  ⟨fun _ => running_wake _, fun _ _ => running_wake _⟩

/-- Commands that clients answer a notice with ask for a tick. -/
theorem notify (e : Engine κ) (n : Notice κ) : Onward e (e.notify n) := by
  have told : Onward e { e with journal := e.journal ++ [n] } := of_eq rfl rfl
  have answered : ∀ (cs : List (Command κ)) (e : Engine κ), Onward e (e.sendAll cs) := by
    intro cs
    induction cs with
    | nil => exact fun e => of_eq rfl rfl
    | cons c cs ih => exact fun e => (send e c).trans (ih (e.send c))
  exact told.trans (answered _ _)

/-- The loop runs on whatever is told, and whatever changes that is not told. -/
theorem stepwise : Stepwise (Onward (κ := κ)) where
  trans := trans
  quiet _ _ _ _ _ _ _ := of_eq rfl rfl
  wake e := ⟨fun _ => running_wake e, fun _ _ => running_wake e⟩
  told e o := notify e (.value o)
  ended e callback report := notify e (.ended callback report)

end Onward

/-! ### Calls for ticks -/

/-- After a call for ticks an engine is awake if its queue was attended to. -/
theorem Attended.awake_schedule (h : e.Attended) : e.schedule.Awake := by
  by_cases hwork : e.hasWork = true
  · apply Awake.of_running
    rw [schedule, if_pos hwork]
    exact Onward.running_wake e
  · rw [schedule, if_neg hwork]
    intro hw
    exact h ((waits_iff.1 hw).resolve_left hwork)

namespace Awake

/-- A step that lets the loop run, with a call for ticks at its end, keeps an engine awake. -/
theorem schedule_of (h : e.Awake) (hon : Onward e e') : e'.schedule.Awake :=
  (hon.attended h.attended).awake_schedule

/-- Telling clients something keeps an engine awake. -/
theorem told (h : e.Awake) (like : Alike e e') (hon : Onward e e') : e'.Awake := by
  intro hw
  have hwork : e'.hasWork = e.hasWork := by
    simp only [hasWork, like.drivers, like.graph, like.dirty, like.resets]
  rcases waits_iff.1 hw with hw | hq
  · rw [hwork] at hw
    exact hon.running (h (waits_iff.2 (Or.inl hw)))
  · exact hon.attended h.attended hq

/-- A change of the graph that marks nothing, of the bindings or of the observers keeps an engine
awake. -/
theorem of_idle (h : e.Awake) (hd : e'.drivers = e.drivers) (hm : e'.graph.marked = e.graph.marked)
    (hv : ∀ t, t ∈ e'.dirty → t ∈ e.dirty) (hr : e'.resets = e.resets) (hq : e'.queue = e.queue)
    (hl : e'.loop = e.loop) : e'.Awake := by
  refine h.of_less ?_ ?_
  · unfold Waits
    rw [hd, hm, hr, hq]
    rintro (hw | hw | ⟨t, ht⟩ | hw)
    · exact Or.inl hw
    · exact Or.inr (Or.inl hw)
    · exact Or.inr (Or.inr (Or.inl ⟨t, hv t ht⟩))
    · exact Or.inr (Or.inr (Or.inr hw))
  · rw [hl]
    exact id

/-- Settling keeps an engine awake: nothing happens unless something is marked. -/
theorem settleUpTo (h : e.Awake) (passes : Nat) (done : Pass) :
    (Engine.settleUpTo passes e done).1.Awake := by
  have hon := Onward.stepwise.settleUpTo passes e done
  by_cases hp : e.graph.isPending = true
  · have hwork : e.hasWork = true := by simp [hasWork, hp]
    exact of_running (hon.running (h (waits_iff.2 (Or.inl hwork))))
  · cases passes with
    | zero => exact h
    | succ passes =>
      rw [Engine.settleUpTo, if_neg hp]
      exact h

/-! ### Commands -/

/-- Where a granted command asks for no ticks, it makes no work. -/
theorem idle (h : e.Awake) {c : Command κ} {o : Outcome κ} (hd : Done e c o) (ha : o.asks = false) :
    o.engine.Awake := by
  cases hd with
  | created hg =>
    -- a node that is made is not marked
    obtain ⟨c, -, hg⟩ := Graph.create_eq_ok.1 hg
    obtain ⟨-, n, -, rfl⟩ := Graph.make_eq_ok.1 hg
    exact h.of_idle rfl rfl (fun _ => id) rfl rfl rfl
  | detached hg =>
    obtain ⟨n, p, -, -, -, rfl⟩ := Graph.detachView_eq_ok hg
    exact h.of_idle rfl rfl (fun u hu => (OrderedSet.mem_erase.1 hu).1) rfl rfl rfl
  | stopped =>
    refine h.of_less ?_ id
    rintro (⟨d, hd, ha⟩ | hw)
    · exact Or.inl ⟨d, DriverSet.mem_values_stop hd, ha⟩
    · exact Or.inr hw
  | @restored t r hr =>
    -- without a view nothing is to be taken back
    obtain ⟨n, p, -, -, hg, -⟩ := Graph.restoreDefaults_eq_ok hr
    rw [Option.isSome_eq_false_iff, Option.isNone_iff_eq_none] at ha
    refine h.of_idle rfl ?_ (fun u hu => ?_) ?_ rfl rfl
    · rw [hg]
      rfl
    · simpa [ha] using hu
    · simp [ha]
  | passed hw =>
    have unchanged := Router.graph_deliver_of_unwritten (List.isEmpty_iff.1 hw)
    exact h.of_idle rfl (congrArg Graph.marked unchanged) (fun _ => id) rfl rfl rfl
  | bound | unbound | observed | unobserved => exact h
  | _ => cases ha

/-- A command keeps an engine awake. -/
theorem execute (h : e.Awake) {c : Command κ} (hx : e.execute c = .ok e') : e'.Awake := by
  obtain ⟨o, hd, rfl⟩ := done_of_execute hx
  unfold Outcome.closed
  split
  · exact h.schedule_of ((Onward.stepwise.done hd).trans (Onward.stepwise.deliverAll _ _))
  · next ha =>
    exact (h.idle hd (Bool.eq_false_iff.2 ha)).told (.deliverAll _ _)
      (Onward.stepwise.deliverAll _ _)

/-- A command keeps an engine awake, refused or not. -/
theorem after_execute (h : e.Awake) (c : Command κ) : (e.after (.execute c)).Awake := by
  rw [after]
  split
  · next hx => exact h.execute hx
  · exact h

/-- Carrying out the commands that wait keeps an engine awake. -/
theorem drainUpTo (h : e.Awake) (limit : Nat) : (Engine.drainUpTo limit e).1.Awake := by
  refine drainUpTo_induction (P := Awake) (fun e c rest h hq => ?_) limit h
  have less : ({ e with queue := rest } : Engine κ).Awake := by
    intro _
    refine h.attended ?_
    rw [hq]
    exact List.cons_ne_nil c rest
  exact less.after_execute c

/-! ### Frames -/

/-- Moving the drivers keeps an engine awake: without active drivers nothing happens. -/
theorem moved (h : e.Awake) (time : Float) : (e.moved time).Awake := by
  by_cases ha : e.drivers.hasActive = true
  · have hwork : e.hasWork = true := by simp [hasWork, ha]
    exact of_running (h (waits_iff.2 (Or.inl hwork)))
  · rw [Bool.not_eq_true] at ha
    obtain ⟨hidle, hsame⟩ := DriverSet.step_of_inactive ha (e.loop.tick time).2.now e.graph
    have hwork : (e.moved time).hasWork = e.hasWork := by
      simp only [hasWork, Engine.moved, hidle, hsame, ha]
    refine h.of_less (fun hw => ?_) id
    rw [waits_iff, hwork] at hw
    exact waits_iff.2 hw

/-- Handing all updates to the views keeps an engine awake. -/
theorem flush (h : e.Awake) (frame : Nat) : (e.flush frame).1.Awake := by
  have hmarked : ∀ (ts : List Tag) (g : Graph), (takeUpdates g ts).1.marked = g.marked := by
    intro ts
    induction ts with
    | nil => exact fun _ => rfl
    | cons t ts ih => exact fun g => (ih _).trans (g.marked_takeUpdate t)
  have emptied : ({ e with
      graph := (takeUpdates e.graph e.dirty.toList).1, dirty := ∅, resets := [] } :
      Engine κ).Awake := by
    refine h.of_less ?_ id
    unfold Waits
    rw [hmarked]
    rintro (hw | hw | ⟨t, ht⟩ | hw | hw)
    · exact Or.inl hw
    · exact Or.inr (Or.inl hw)
    · exact absurd ht List.not_mem_nil
    · exact absurd rfl hw
    · exact Or.inr (Or.inr (Or.inr (Or.inr hw)))
  simp only [Engine.flush]
  split
  · exact emptied
  · exact emptied.told (.notify _ rfl) (.notify _ _)

/-- Further ticks are declined exactly if nothing waits. -/
theorem running_rest_iff (h : e.Awake) : e.rest.loop.running = true ↔ e.rest.Waits := by
  have like := Alike.rest e
  have hwork : e.rest.hasWork = e.hasWork := by
    simp only [hasWork, like.drivers, like.graph, like.dirty, like.resets]
  rw [waits_iff, hwork]
  unfold rest
  by_cases hw : e.hasWork = true
  · simp [hw, h (waits_iff.2 (Or.inl hw))]
  · have stopped : e.loop.stop.1.running = false := by
      unfold FrameLoop.stop
      split
      · rfl
      · next hr => exact Bool.eq_false_iff.2 hr
    simp only [hw, Bool.false_eq_true, if_false, false_or]
    by_cases hq : e.queue.isEmpty = true
    · rw [if_pos hq]
      simp [stopped, List.isEmpty_iff.1 hq]
    · rw [if_neg hq]
      refine iff_of_true (Onward.running_wake _) fun hn => ?_
      exact hq (List.isEmpty_iff.2 hn)

/-- After a frame the loop runs exactly if something waits. -/
theorem running_onFrame_iff (h : e.Awake) (time : Float) :
    (e.onFrame time).1.loop.running = true ↔ (e.onFrame time).1.Waits := by
  have settled : (e.drain.1.moved time).settle.1.Awake :=
    ((h.drainUpTo e.commandLimit).moved time).settleUpTo _ _
  have flushed := settled.flush (e.drain.1.loop.tick time).2.frame
  have told := flushed.told (.deliverAll _ (e.drain.1.ended time))
    (Onward.stepwise.deliverAll _ _)
  rw [onFrame_eq]
  exact told.running_rest_iff

/-- Every call keeps an engine awake. -/
theorem after (h : e.Awake) (c : Call κ) : (e.after c).Awake := by
  cases c with
  | execute c => exact h.after_execute c
  | send c => exact of_running (Onward.running_wake _)
  | settle => exact h.settleUpTo _ _
  | drain => exact h.drainUpTo _
  | frame time => exact (h.running_onFrame_iff time).2

end Awake

/-- In an engine with nothing in it nothing waits. -/
theorem awake_new (settings : Settings) (host : Host κ) :
    (Engine.new settings host).Awake := by
  rintro (⟨d, hd, -⟩ | ⟨t, ht⟩ | ⟨t, ht⟩ | h | h)
  · exact absurd hd List.not_mem_nil
  · exact absurd ht List.not_mem_nil
  · exact absurd ht List.not_mem_nil
  · exact absurd rfl h
  · exact absurd rfl h

/-- Every run keeps an engine awake. -/
theorem awake_reached (settings : Settings) (host : Host κ)
    (calls : List (Call κ)) : (reached settings host calls).Awake :=
  reached_induction (awake_new settings host) (fun _ c h => h.after c) calls

/-- **The loop never sleeps on work**: whenever a call has returned and something waits, the loop
runs; and right after a frame it runs exactly if something waits. -/
theorem loop_runs_while_waiting (settings : Settings) (host : Host κ)
    (calls : List (Call κ)) :
    ((reached settings host calls).Waits → (reached settings host calls).loop.running = true) ∧
      ∀ time, ((reached settings host calls).onFrame time).1.loop.running = true ↔
        ((reached settings host calls).onFrame time).1.Waits :=
  ⟨awake_reached settings host calls,
    fun time => (awake_reached settings host calls).running_onFrame_iff time⟩

/-- A client that answers every value it hears of by setting the value to three. -/
def setsThree : Notice Unit → List (Command Unit)
  | .value _ => [.setValue ⟨1⟩ 3.0]
  | _ => []

/-- A value is observed and set, and several frames pass. -/
def observedFrames (frames : List Float) : List (Call Unit) :=
  [.execute (.createNode ⟨1⟩ (.array [.string "value", .number (.real 1.0)])),
   .execute (.startListening ⟨1⟩ ()), .execute (.setValue ⟨1⟩ 2.0)] ++ frames.map .frame

/-- The command that the client answers with during a frame keeps the loop running; it stops when
there are no more answers. -/
theorem answer_keeps_running :
    let e := reached {} setsThree (observedFrames [16.0])
    let e' := reached {} setsThree (observedFrames [16.0, 32.0])
    (e.queue.length, e.loop.running) = (1, true) ∧
      (e'.onFrame 48.0).1.loop.running = false ∧ ¬(e'.onFrame 48.0).1.Waits := by
  intro e e'
  have asked : e.queue.length = 1 := by decide +kernel
  have waits : e.Waits := waits_iff.2 (Or.inr (List.length_pos_iff.1 (asked ▸ Nat.one_pos)))
  have asleep : (e'.onFrame 48.0).1.loop.running = false := by decide +kernel
  obtain ⟨runs, -⟩ := loop_runs_while_waiting {} setsThree (observedFrames [16.0])
  obtain ⟨-, stops⟩ := loop_runs_while_waiting {} setsThree (observedFrames [16.0, 32.0])
  refine ⟨by rw [asked, runs waits], asleep, fun hw => ?_⟩
  exact absurd ((stops 48.0).2 hw) (Bool.eq_false_iff.1 asleep)

end Engine

end MotionGraph
