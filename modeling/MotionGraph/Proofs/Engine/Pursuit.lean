import MotionGraph.Proofs.Driver.Lookup
import MotionGraph.Proofs.Engine.Awake
import MotionGraph.Proofs.Engine.Callbacks
import MotionGraph.Proofs.Event.Bindings
import MotionGraph.Proofs.Graph.Pursuit
import MotionGraph.Proofs.Motion.Arrival

/-!
# Followers catch up

A tracking node asks for a new animation of its follower whenever it is computed. That
animation replaces the one under way, and comes to its end with the value that the followed
node has had when the tracking node was computed. So whatever is done, the tracking node waits
to be computed, or a driver leads the follower to the value of the followed node, or the
follower has it (`Pursuit.UnderWay`): nothing that happens to the followed node is missed, as
it marks the tracking node.

Propagations keep this (`Carried.propagate`), and so do commands (`CarriedIn.done`), drivers
(`Carried.step`) and whole calls (`CarriedIn.after`), as long as no one else writes into the
follower or uses the animation (`Pursuit.Undisturbed`). When the loop has come to rest, nothing is
marked and no driver is at work, so that the follower has caught up (`Engine.follower_catches_up`).

A driver whose node is gone is stopped for good. So a follower that is made only after the tracking
node was computed is not led anywhere until the tracking node is computed again
(`Engine.late_follower_stays`).
-/

namespace MotionGraph

namespace Pursuit

variable {κ : Type} {p : Pursuit} {g g' : Graph} {s s' : DriverSet Motion κ} {e e' : Engine κ}

/-! ### What is under way -/

/-- Whatever finite value the settings are to lead to, they describe a motion that has a goal. -/
def Leads (p : Pursuit) : Prop :=
  ∀ x : Float, x.isFinite = true →
    ∃ m i, Motion.ofJson (p.request x).config = .ok (m, i) ∧ m.goal?.isSome = true

/-- The follower is on its way to a value, or it has the value and nothing is under way. -/
def LedTo (p : Pursuit) (g : Graph) (s : DriverSet Motion κ) (v : Float) : Prop :=
  (∃ d, s.get? p.animation = some d ∧ d.state.isActive = true ∧ d.target = p.follower ∧
    d.animation.goal? = some v) ∨
  (s.get? p.animation = none ∧ g.base? p.follower = some v)

/-- Only the driver of the animation and the base value of the follower matter. -/
theorem LedTo.congr {v : Float} (h : p.LedTo g s v) (hs : s'.get? p.animation = s.get? p.animation)
    (hb : g'.base? p.follower = g.base? p.follower) : p.LedTo g' s' v := by
  unfold LedTo
  rw [hs, hb]
  exact h

/-- The tracking node waits to be computed, or the follower is led to the value of the followed
node. -/
def UnderWay (p : Pursuit) (g : Graph) (s : DriverSet Motion κ) : Prop :=
  g.Stale p.tracker ∨ ∀ v, g.value? p.followed = some v → v.isFinite = true → p.LedTo g s v

/-- A pursuit that is set up and under way. -/
structure Carried (p : Pursuit) (g : Graph) (s : DriverSet Motion κ) : Prop where
  sound : g.Sound
  set : p.SetIn g
  keyed : s.Keyed
  led : p.UnderWay g s

/-- A pursuit is carried on where it lasts, as long as the follower is led where it was. -/
theorem Carried.next (h : p.Carried g s) (hl : p.LastsTo g g') (hk : s'.Keyed)
    (hled : ¬g.Stale p.tracker → ∀ v, p.LedTo g s v → p.LedTo g' s' v) : p.Carried g' s' := by
  refine ⟨hl.sound, hl.set, hk, hl.heeded.imp id fun ⟨hst, hv⟩ v hv' hf => hled hst v ?_⟩
  exact h.led.resolve_left hst v (hv ▸ hv') hf

/-! ### Settling -/

/-- Starting the animation that a tracking node asks for keeps drivers under their names. -/
theorem keyed_tracked {rs : List TrackingRequest} (h : s.Keyed) :
    (rs.foldl Engine.tracked s).Keyed := by
  induction rs generalizing s with
  | nil => exact h
  | cons r rs ih =>
    refine ih ?_
    unfold Engine.tracked
    split
    · exact h.start _
    · exact h

/-- Other animations leave the driver of an animation alone. -/
theorem get?_tracked_of_ne {rs : List TrackingRequest} {id : AnimationId}
    (h : ∀ r ∈ rs, r.animation ≠ id) : (rs.foldl Engine.tracked s).get? id = s.get? id := by
  induction rs generalizing s with
  | nil => rfl
  | cons r rs ih =>
    refine (ih fun r' hr => h r' (List.mem_cons_of_mem _ hr)).trans ?_
    unfold Engine.tracked
    split
    · rw [DriverSet.get?_start]
      exact if_neg (Ne.symm (h r List.mem_cons_self))
    · rfl

/-- The animation that the tracking node asks for leads the follower to the value. -/
theorem Leads.tracked (hp : p.Leads) {v : Float} (hv : v.isFinite = true) (g : Graph)
    (s : DriverSet Motion κ) : p.LedTo g (Engine.tracked s (p.request v)) v := by
  obtain ⟨m, i, hm, hgoal⟩ := hp v hv
  obtain ⟨x, hx⟩ := Option.isSome_iff_exists.1 hgoal
  obtain rfl : x = v := Motion.goal?_ofJson hv hm hx
  refine Or.inl ⟨{ id := p.animation, target := p.follower, animation := m, iterations := i },
    ?_, rfl, rfl, hx⟩
  unfold Engine.tracked
  rw [hm]
  exact (DriverSet.get?_start s _ p.animation).trans (if_pos rfl)

/-- **A propagation carries a pursuit on**: if it computes the tracking node, the follower is led to
the new value, and else nothing has changed for it. -/
theorem Carried.propagate (h : p.Carried g s) (hp : p.Leads) (hsp : p.SparedBy g) :
    p.Carried g.propagate.1 (g.propagate.2.requests.foldl Engine.tracked s) := by
  have hd : Graph.SameDesign { g with marked := ∅ } g.propagate.1 := Graph.sameDesign_propagate g
  have set₀ : p.SetIn { g with marked := ∅ } := h.set.of_same_kinds rfl fun _ => rfl
  refine ⟨h.sound.perform (r := .propagate) rfl, set₀.of_sameDesign hd, keyed_tracked h.keyed,
    Or.inr fun v hv hf => ?_⟩
  by_cases ht : p.tracker ∈ g.affected
  · obtain ⟨earlier, later, hr, hlater⟩ := hsp.requested h.set h.sound ht hv
    rw [hr, List.foldl_append, List.foldl_cons]
    exact (hp.tracked hf _ _).congr (get?_tracked_of_ne hlater) rfl
  · have hst : ¬g.Stale p.tracker := fun hst => ht ((Graph.mem_affected_iff h.sound).2 hst)
    have hfollowed : p.followed ∉ g.affected := fun hm =>
      hst (h.set.stale_of_followed ((Graph.mem_affected_iff h.sound).1 hm))
    have hvalue : g.propagate.1.value? p.followed = g.value? p.followed := by
      rw [Graph.value?, Graph.node?_propagate_of_notMem h.set.callFree hfollowed, Graph.value?]
    obtain ⟨n, hn, hk⟩ := Option.map_eq_some_iff.1 h.set.follower
    have hfollower : g.propagate.1.node? p.follower = some n :=
      set₀.callFree.node?_evaluateAll_of_value hn hk _
    refine (h.led.resolve_left hst v (hvalue ▸ hv) hf).congr
      (get?_tracked_of_ne (hsp.not_requested h.set ht)) ?_
    rw [Graph.base?, hfollower, Graph.base?, hn]

/-- Writes into other nodes carry a pursuit on. -/
theorem Carried.applyWrites (h : p.Carried g s) {ws : Writes} (hw : ∀ w ∈ ws, w.1 ≠ p.follower) :
    p.Carried (g.applyWrites ws).1 s := by
  refine h.next (LastsTo.applyWrites h.sound h.set ws) h.keyed fun _ v hv => hv.congr rfl ?_
  rw [Graph.base?, Graph.node?_applyWrites_of_latest?_eq_none g, Graph.base?]
  rw [Writes.latest?_eq_none_iff, List.mem_map]
  rintro ⟨w, hmem, he⟩
  exact hw w hmem he

/-- In each of so many propagations nothing is written into the follower, and no other node
asks for the animation. -/
def SparedUpTo (p : Pursuit) : Nat → Engine κ → Prop
  | 0, _ => True
  | passes + 1, e =>
    e.graph.isPending = true → p.SparedBy e.graph ∧ p.SparedUpTo passes e.settleOnce.1

/-- Settling writes nothing into the follower, and no other node asks for the animation
meanwhile. -/
def SparedSettling (p : Pursuit) (e : Engine κ) : Prop := p.SparedUpTo e.settings.maxSettlePasses e

instance decidableSparedUpTo (p : Pursuit) : ∀ (passes : Nat) (e : Engine κ),
    Decidable (p.SparedUpTo passes e)
  | 0, _ => .isTrue trivial
  | passes + 1, e =>
    have := decidableSparedUpTo p passes e.settleOnce.1
    inferInstanceAs (Decidable
      (e.graph.isPending = true → p.SparedBy e.graph ∧ p.SparedUpTo passes e.settleOnce.1))

instance (p : Pursuit) (e : Engine κ) : Decidable (p.SparedSettling e) := by
  unfold SparedSettling
  infer_instance

/-- An engine carries a pursuit on. -/
def CarriedIn (p : Pursuit) (e : Engine κ) : Prop := p.Carried e.graph e.drivers

namespace CarriedIn

/-- Telling clients something carries a pursuit on. -/
theorem of_alike (h : p.CarriedIn e) (like : Engine.Alike e e') : p.CarriedIn e' := by
  unfold CarriedIn
  rw [like.graph, like.drivers]
  exact h

/-- Settling once carries a pursuit on. -/
theorem settleOnce (h : p.CarriedIn e) (hp : p.Leads) (hsp : p.SparedBy e.graph) :
    p.CarriedIn e.settleOnce.1 := by
  refine of_alike ?_ (Engine.alike_settleOnce e)
  exact (Carried.propagate h hp hsp).applyWrites hsp.1

/-- Settling carries a pursuit on. -/
theorem settleUpTo (h : p.CarriedIn e) (hp : p.Leads) {passes : Nat} (hsp : p.SparedUpTo passes e)
    (done : Pass) : p.CarriedIn (Engine.settleUpTo passes e done).1 := by
  induction passes generalizing e done with
  | zero => exact h
  | succ passes ih =>
    rw [Engine.settleUpTo]
    split
    · next hpending =>
      obtain ⟨now, rest⟩ := hsp hpending
      exact ih (h.settleOnce hp now) rest _
    · exact h

end CarriedIn

/-! ### Commands -/

/-- Stopping the drivers of another node leaves the follower led where it was. -/
theorem LedTo.stopTargeting {v : Float} (h : p.LedTo g s v) (hk : s.Keyed) {t : Tag}
    (ht : p.follower ≠ t) : p.LedTo g (s.stopTargeting t).1 v := by
  obtain ⟨d, hd, ha, htarget, hgoal⟩ | ⟨hn, hb⟩ := h
  · exact Or.inl ⟨d, DriverSet.get?_stopTargeting hk hd (htarget ▸ ht), ha, htarget, hgoal⟩
  · refine Or.inr ⟨?_, hb⟩
    rw [DriverSet.stopTargeting, DriverSet.get?_stopAll, hn, ite_self]

/-- A request that does not set the base value of the follower carries a pursuit on,
if it leaves it set up. -/
theorem Carried.perform (h : p.Carried g s) {r : Graph.Request} (hr : r.isCompound = false)
    (hb : r.rebases? ≠ some p.follower) (hg : g.perform r = .ok g') (set : p.SetIn g') :
    p.Carried g' s := by
  have lasts : p.LastsTo g g' :=
    .of_noticed h.sound h.set (h.sound.perform hg) set (.perform h.sound hr hg)
  exact h.next lasts h.keyed fun _ v hv =>
    hv.congr rfl (Graph.base?_perform hr hb hg h.set.contains_follower set.contains_follower)

/-- A change of the drivers that leaves the one of the animation alone carries a pursuit on. -/
theorem Carried.drivers (h : p.Carried g s) (hk : s'.Keyed)
    (hs : s'.get? p.animation = s.get? p.animation) : p.Carried g s' :=
  h.next (.refl h.sound h.set) hk fun _ _ hv => hv.congr hs rfl

/-- What a command leaves alone: it does not set the base value of the follower, and neither uses
nor stops the animation. -/
def Lets (p : Pursuit) (e : Engine κ) : Command κ → Prop
  | .setValue t _ | .flattenOffset t | .extractOffset t => t ≠ p.follower
  | .startAnimation id _ _ _ | .stopAnimation id => id ≠ p.animation
  | .handleEvent view event payload =>
    let (graph, dispatch) := e.router.handle view event payload e.graph
    (∀ w ∈ dispatch.written, w.1 ≠ p.follower) ∧
      (dispatch.written.isEmpty = false → p.SparedSettling { e with graph })
  | _ => True

/-- The request that a command consists of does not set the base value of the follower, if the
command leaves that alone. -/
theorem Lets.not_rebased {c : Command κ} (h : p.Lets e c) {r : Graph.Request}
    (hr : Engine.request? c = some r) : r.rebases? ≠ some p.follower := by
  intro he
  cases c with
  | setValue t x | flattenOffset t | extractOffset t =>
    cases hr
    exact h (Option.some.inj he)
  | _ => cases hr <;> cases he

/-- A command that an engine refuses, or that leaves the pursuit alone and set up. -/
def Admits (p : Pursuit) (w : Engine κ × Command κ) : Prop :=
  ∀ e', w.1.execute w.2 = .ok e' → p.Lets w.1 w.2 ∧ p.SetIn e'.graph

namespace CarriedIn

/-- Handing out an event carries a pursuit on, if nothing is written into the follower. -/
theorem handled (h : p.CarriedIn e) {view : ViewId} {event : String} {payload : Json}
    (hw : ∀ w ∈ (e.router.handle view event payload e.graph).2.written, w.1 ≠ p.follower) :
    p.CarriedIn { e with graph := (e.router.handle view event payload e.graph).1 } := by
  show p.Carried (e.router.handle view event payload e.graph).1 e.drivers
  rw [Router.handle, Router.fst_deliver]
  exact Carried.applyWrites h hw

/-- **A granted command carries a pursuit on**, if it leaves it alone and set up. -/
theorem done (h : p.CarriedIn e) (hp : p.Leads) {c : Command κ} (hc : p.Lets e c)
    {o : Engine.Outcome κ} (hd : Engine.Done e c o) (set : p.SetIn o.engine.graph) :
    p.CarriedIn o.engine := by
  cases hd with
  | created hg => exact Carried.perform h (r := .create _ _) rfl nofun hg set
  | requested hreq hg =>
    exact Carried.perform h (Engine.request?_simple hreq e.graph).1 (hc.not_rebased hreq) hg set
  | detached hg => exact Carried.perform h (r := .detachView _ _) rfl nofun hg set
  | @dropped t r hg =>
    have carried : p.Carried r.1 e.drivers :=
      Carried.perform h (r := .drop _ _) rfl nofun (except_map_eq_ok.2 ⟨_, hg, rfl⟩) set
    have there : p.follower ≠ t := Graph.ne_of_contains_drop hg set.contains_follower
    exact carried.next (.refl carried.sound set) (h.keyed.stopAll _) fun _ v hv =>
      hv.stopTargeting h.keyed there
  | started hn hv hd =>
    subst hd
    exact Carried.drivers h (h.keyed.start _)
      ((DriverSet.get?_start _ _ _).trans (if_neg (Ne.symm hc)))
  | stopped =>
    exact Carried.drivers h (h.keyed.stop _)
      ((DriverSet.get?_stop _ _ _).trans (if_neg (Ne.symm hc)))
  | restored hr =>
    exact Carried.perform h (r := .restoreDefaults _) rfl nofun
      (except_map_eq_ok.2 ⟨_, hr, rfl⟩) set
  | passed => exact h.handled hc.1
  | handed hw => exact (h.handled hc.1).settleUpTo hp (hc.2 hw) {}
  | _ => exact h

/-- **A command carries a pursuit on**, if it is refused or leaves it alone and set up. -/
theorem after_execute (h : p.CarriedIn e) (hp : p.Leads) {c : Command κ} (hc : p.Admits (e, c)) :
    p.CarriedIn (e.after (.execute c)) := by
  rw [Engine.after]
  split
  · next e' hx =>
    obtain ⟨lets, set⟩ := hc e' hx
    obtain ⟨o, hd, rfl⟩ := Engine.done_of_execute hx
    exact of_alike (h.done hp lets hd (o.alike.graph ▸ set)) o.alike
  · exact h

/-- Carrying out commands that wait carries a pursuit on. -/
theorem drainUpTo (h : p.CarriedIn e) (hp : p.Leads) (limit : Nat)
    (hc : ∀ w ∈ Engine.carriedOut limit e, p.Admits w) :
    p.CarriedIn (Engine.drainUpTo limit e).1 :=
  Engine.drainUpTo_fold (f := fun u _ => u) (P := fun e _ => p.CarriedIn e) (Q := p.Admits)
    (fun e _ _ rest hc h _ => after_execute (e := { e with queue := rest }) h hp hc)
    limit hc (s := ()) h

end CarriedIn

/-! ### Frames -/

/-- No driver but that of the animation is at work on the follower. -/
def Alone (p : Pursuit) (s : DriverSet Motion κ) : Prop :=
  ∀ q ∈ s.drivers.toList, q.2.target = p.follower → q.1 = p.animation

instance (p : Pursuit) (s : DriverSet Motion κ) : Decidable (p.Alone s) := by
  unfold Alone
  infer_instance

/-- **In a frame the follower goes on or arrives**, if no other driver is at work on it. -/
theorem LedTo.step {v : Float} (h : p.LedTo g s v) (alone : p.Alone s)
    (ht : g.holds p.follower = true) (now : Float) :
    p.LedTo (s.step now g).2.1 (s.step now g).1 v := by
  obtain ⟨d, hd, hactive, htarget, hgoal⟩ | ⟨hn, hb⟩ := h
  · obtain ⟨x, hx, hgoal', hend⟩ := DriverSet.advance_goal hgoal hactive (htarget ▸ ht) now
    by_cases hgoes : (DriverSet.advance now g d).1.state.isActive = true
    · refine Or.inl ⟨(DriverSet.advance now g d).1, ?_, hgoes, ?_, hgoal'⟩
      · rw [DriverSet.get?_step, hd, Option.map_some, Option.filter_some, if_pos hgoes]
      · rw [DriverSet.target_advance, htarget]
    · obtain rfl : x = v := hend.resolve_left hgoes
      have only : ∀ j d', s.get? j = some d' → d'.target = p.follower → j = p.animation :=
        fun j d' hd' => alone (j, d') (OrderedMap.get?_eq_some_iff.1 hd')
      refine Or.inr ⟨?_, DriverSet.base?_step_of_only_driver now g ht hd only (htarget ▸ hx)⟩
      rw [DriverSet.get?_step, hd, Option.map_some, Option.filter_some, if_neg hgoes]
  · have no_driver : ∀ d ∈ s.drivers.values, d.target ≠ p.follower := by
      intro d hd ht
      obtain ⟨q, hq, rfl⟩ := List.mem_map.1 hd
      have found : s.get? q.1 = some q.2 := OrderedMap.get?_eq_some_iff.2 hq
      rw [alone q hq ht, hn] at found
      cases found
    refine Or.inr ⟨?_, ?_⟩
    · rw [DriverSet.get?_step, hn]
      rfl
    · rw [Graph.base?, DriverSet.node?_step_of_no_driver now g no_driver]
      exact hb

/-- Moving the drivers carries a pursuit on, if no other one is at work on the follower. -/
theorem Carried.step (h : p.Carried g s) (alone : p.Alone s) (now : Float) :
    p.Carried (s.step now g).2.1 (s.step now g).1 := by
  have lasts : p.LastsTo g (s.step now g).2.1 := by
    rw [DriverSet.graph_step]
    exact .applyWrites h.sound h.set _
  exact h.next lasts (h.keyed.step now g) fun _ v hv => hv.step alone h.set.holds now

/-- Taking the updates of props nodes carries a pursuit on. -/
theorem Carried.takeUpdates (h : p.Carried g s) (ts : List Tag) :
    p.Carried (Engine.takeUpdates g ts).1 s := by
  induction ts generalizing g with
  | nil => exact h
  | cons t ts ih =>
    exact ih (h.perform (r := .takeUpdate t) rfl nofun rfl (h.set.takeUpdate h.sound t))

namespace CarriedIn

/-- Handing out a batch carries a pursuit on. -/
theorem flush (h : p.CarriedIn e) (frame : Nat) : p.CarriedIn (e.flush frame).1 := by
  have taken : p.CarriedIn
      { e with
        graph := (Engine.takeUpdates e.graph e.dirty.toList).1
        dirty := ∅
        resets := [] } := Carried.takeUpdates h _
  simp only [Engine.flush]
  split
  · exact taken
  · exact of_alike taken (.notify _ rfl)

end CarriedIn

/-! ### Calls -/

/-- **A call that leaves a pursuit alone.** Its commands that are granted do so, and leave it set
up; in a frame no other driver is at work on the follower; and settling writes nothing into the
follower and starts the animation for no other node. -/
def Undisturbed (p : Pursuit) (e : Engine κ) (call : Engine.Call κ) : Prop :=
  (∀ w ∈ Engine.commandsOf e call, p.Admits w) ∧
  match call with
  | .settle => p.SparedSettling e
  | .frame time => p.Alone e.drain.1.drivers ∧ p.SparedSettling (e.drain.1.moved time)
  | .execute _ | .send _ | .drain => True

/-- Calls that leave a pursuit alone, one after the other. -/
def UndisturbedAll (p : Pursuit) : Engine κ → List (Engine.Call κ) → Prop
  | _, [] => True
  | e, call :: calls => p.Undisturbed e call ∧ p.UndisturbedAll (e.after call) calls

namespace Undisturbed

/-- A single command that leaves a pursuit alone and set up. -/
theorem execute {c : Command κ} (hc : p.Lets e c) (set : p.SetIn (e.after (.execute c)).graph) :
    p.Undisturbed e (.execute c) := by
  refine ⟨fun w hw e' hx => ?_, trivial⟩
  obtain rfl : w = (e, c) := List.mem_singleton.1 hw
  rw [Engine.after, show e.execute c = .ok e' from hx] at set
  exact ⟨hc, set⟩

/-- A frame for which no command waits. -/
theorem frame {time : Float} (hq : e.queue = []) (alone : p.Alone e.drain.1.drivers)
    (spared : p.SparedSettling (e.drain.1.moved time)) : p.Undisturbed e (.frame time) := by
  have nothing_waits : Engine.commandsOf e (.frame time) = [] := by
    show Engine.carriedOut e.commandLimit e = []
    cases e.commandLimit <;> simp [Engine.carriedOut, hq]
  exact ⟨by simp [nothing_waits], alone, spared⟩

end Undisturbed

namespace CarriedIn

/-- **A call carries a pursuit on** that it leaves alone. -/
theorem after (h : p.CarriedIn e) (hp : p.Leads) {call : Engine.Call κ}
    (hu : p.Undisturbed e call) : p.CarriedIn (e.after call) := by
  cases call with
  | execute c => exact h.after_execute hp (hu.1 (e, c) List.mem_cons_self)
  | send c => exact h.of_alike (.send e c)
  | settle => exact h.settleUpTo hp hu.2 {}
  | drain => exact h.drainUpTo hp _ hu.1
  | frame time =>
    obtain ⟨commands, alone, spared⟩ := hu
    have drained : p.CarriedIn e.drain.1 := h.drainUpTo hp _ commands
    have moved : p.CarriedIn (e.drain.1.moved time) := Carried.step drained alone _
    have settled : p.CarriedIn (e.drain.1.moved time).settle.1 := moved.settleUpTo hp spared {}
    show p.CarriedIn (e.onFrame time).1
    rw [Engine.onFrame_eq]
    exact of_alike (settled.flush _) ((Engine.Alike.deliverAll _ _).trans (.rest _))

/-- Calls carry a pursuit on that they leave alone. -/
theorem afterAll (h : p.CarriedIn e) (hp : p.Leads) {calls : List (Engine.Call κ)}
    (hu : p.UndisturbedAll e calls) : p.CarriedIn (calls.foldl Engine.after e) := by
  induction calls generalizing e with
  | nil => exact h
  | cons call calls ih => exact ih (h.after hp hu.1) hu.2

end CarriedIn

end Pursuit

namespace Engine

variable {κ : Type}

/-- In every run drivers are found under their names. -/
theorem keyed_reached (settings : Settings) (host : Host κ)
    (calls : List (Call κ)) : (reached settings host calls).drivers.Keyed := by
  intro id d hd
  rw [← fst_kept] at hd
  obtain ⟨books, -⟩ := kept_books settings host calls
  obtain ⟨x, -, hx⟩ := books.exists_life (OrderedMap.get?_eq_some_iff.1 hd)
  exact hx.id.trans hx.key.symm

/-- **A follower catches up.** Let a tracking node be set up whose settings lead to any finite
value, at a moment when it waits to be computed or its follower is led already. After calls that
leave the pursuit alone, whenever the loop does not run, the follower has the value of the followed
node, if that is finite. -/
theorem follower_catches_up (settings : Settings) (host : Host κ)
    (before calls : List (Call κ)) {p : Pursuit} (leads : p.Leads)
    (set : p.SetIn (reached settings host before).graph)
    (underWay : p.UnderWay (reached settings host before).graph
      (reached settings host before).drivers)
    (undisturbed : p.UndisturbedAll (reached settings host before) calls) :
    let e := reached settings host (before ++ calls)
    e.loop.running = false →
      ∃ v, e.graph.value? p.followed = some v ∧
        (v.isFinite = true → e.graph.base? p.follower = some v) := by
  intro e idle
  have carried : p.CarriedIn e := by
    show p.CarriedIn ((before ++ calls).foldl after (Engine.new settings host))
    rw [List.foldl_append]
    exact Pursuit.CarriedIn.afterAll
      ⟨sound_reached settings host before, set, keyed_reached settings host before, underWay⟩ leads
      undisturbed
  -- an engine at rest has nothing to do, so that nothing is marked and no driver is at work
  have rests : ¬e.Waits := fun waits => by
    rw [awake_reached settings host (before ++ calls) waits] at idle
    cases idle
  have current : ¬e.graph.Stale p.tracker := fun ⟨m, hm, _⟩ => rests (Or.inr (Or.inl ⟨m, hm⟩))
  obtain ⟨v, hv⟩ := carried.set.exists_value carried.sound
  refine ⟨v, hv, fun hf => ?_⟩
  obtain ⟨d, hd, hactive, -⟩ | ⟨-, arrived⟩ := carried.led.resolve_left current v hv hf
  · have hmem : d ∈ e.drivers.drivers.values :=
      List.mem_map_of_mem (f := Prod.snd) (OrderedMap.get?_eq_some_iff.1 hd)
    exact absurd (Or.inl ⟨d, hmem, hactive⟩) rests
  · exact arrived

/-- A tracking node whose follower jumps to the value of the followed node. -/
def jump : Pursuit where
  tracker := ⟨3⟩
  followed := ⟨1⟩
  follower := ⟨2⟩
  animation := ⟨9⟩
  template := [("duration", .number (.integer 0)), ("type", .string "timing")]

/-- A jump leads to every finite value. -/
theorem leads_jump : jump.Leads := by
  intro x hx
  have read : MotionConfig.ofJson? (jump.request x).config =
      some (.timing x (some 0.0) none none none none) := by
    unfold Pursuit.request
    rw [Json.ofFloat, if_pos hx]
    with_unfolding_all rfl
  refine ⟨.timing { goal := x, curve := .eased 0.0 .easeInOut, delay := 0.0 }, .count 1, ?_, rfl⟩
  rw [Motion.ofJson, read]
  show MotionConfig.build _ = _
  simp only [MotionConfig.build, MotionConfig.finite, if_pos hx]
  with_unfolding_all rfl

/-- Makes a node that holds a value. -/
def makeValue (t : Tag) : Call Unit :=
  .execute (.createNode t (.object [("type", .string "value")]))

/-- Makes the tracking node of a jump, and lets it read the followed node. -/
def makeJump : List (Call Unit) :=
  [.execute (.createNode ⟨3⟩ (.object [("animationConfig", .object jump.template),
      ("animationId", .number (.integer 9)), ("toValue", .number (.integer 1)),
      ("type", .string "tracking"), ("value", .number (.integer 2))])),
   .execute (.connect ⟨3⟩ ⟨1⟩)]

/-- The three nodes of a jump. -/
def jumpSetUp : List (Call Unit) := makeValue ⟨1⟩ :: makeValue ⟨2⟩ :: makeJump

/-- The followed node gets a value, and another one while the follower is on its way to the
first. -/
def chase : List (Call Unit) :=
  [.execute (.setValue ⟨1⟩ 5.0), .frame 16.0, .execute (.setValue ⟨1⟩ 7.0), .frame 32.0,
   .frame 48.0]

/-- The follower catches up with both values. -/
theorem chase_catches_up :
    let e : Engine Unit := reached {} .silent (jumpSetUp ++ chase)
    e.loop.running = false ∧ e.graph.value? ⟨1⟩ = some 7.0 ∧ e.graph.base? ⟨2⟩ = some 7.0 := by
  intro e
  have other : (⟨1⟩ : Tag) ≠ ⟨2⟩ := by decide
  have set : jump.SetIn (reached {} .silent jumpSetUp).graph :=
    ⟨by decide +kernel, by decide +kernel, by with_unfolding_all rfl, by with_unfolding_all rfl⟩
  have waits : (reached {} .silent jumpSetUp).graph.Stale ⟨3⟩ :=
    ⟨⟨3⟩, OrderedSet.contains_iff.1 (by decide +kernel), .refl⟩
  have undisturbed : jump.UndisturbedAll (reached {} .silent jumpSetUp) chase := by
    refine ⟨.execute other ⟨by decide +kernel, by decide +kernel, ?_, ?_⟩,
      .frame (List.isEmpty_iff.1 (by decide +kernel)) (by decide +kernel) (by decide +kernel),
      .execute other ⟨by decide +kernel, by decide +kernel, ?_, ?_⟩,
      .frame (List.isEmpty_iff.1 (by decide +kernel)) (by decide +kernel) (by decide +kernel),
      .frame (List.isEmpty_iff.1 (by decide +kernel)) (by decide +kernel) (by decide +kernel),
      trivial⟩ <;> with_unfolding_all rfl
  have idle : e.loop.running = false := by decide +kernel
  have last : e.graph.value? ⟨1⟩ = some 7.0 := by decide +kernel
  obtain ⟨v, hv, arrived⟩ := follower_catches_up {} .silent jumpSetUp chase leads_jump set
    (Or.inl waits) undisturbed idle
  obtain rfl : v = 7.0 := Option.some.inj (hv.symm.trans last)
  exact ⟨idle, hv, arrived (by decide +kernel)⟩

/-- The tracking node is computed before its follower is made. -/
def lateSetUp : List (Call Unit) :=
  makeValue ⟨1⟩ :: makeJump ++
    [.execute (.setValue ⟨1⟩ 5.0), .frame 16.0, .frame 32.0, makeValue ⟨2⟩]

/-- A follower that comes too late stays where it is: the driver that was to lead it was stopped
when there was no node to write into. -/
theorem late_follower_stays :
    let e : Engine Unit := reached {} .silent lateSetUp
    let e' := e.after (.frame 48.0)
    jump.Leads ∧ jump.SetIn e.graph ∧ ¬Relation.TransGen e.graph.edges.Reads ⟨1⟩ ⟨2⟩ ∧
      jump.UndisturbedAll e [.frame 48.0] ∧ jump.SetIn e'.graph ∧ e'.loop.running = false ∧
      e'.graph.value? ⟨1⟩ = some 5.0 ∧ e'.graph.base? ⟨2⟩ = some 0.0 := by
  intro e e'
  have apart : e.graph.edges.isAncestor ⟨1⟩ ⟨2⟩ = false := by decide +kernel
  refine ⟨leads_jump, ⟨by decide +kernel, by decide +kernel, ?_, ?_⟩, fun h => ?_,
    ⟨.frame (List.isEmpty_iff.1 (by decide +kernel)) (by decide +kernel) (by decide +kernel),
      trivial⟩,
    ⟨by decide +kernel, by decide +kernel, ?_, ?_⟩, by decide +kernel, by decide +kernel,
    by decide +kernel⟩
  case refine_3 =>
    have mirrored := (sound_reached (κ := Unit) {} .silent lateSetUp).mirrored
    rw [(Edges.isAncestor_iff mirrored).2 h] at apart
    cases apart
  all_goals with_unfolding_all rfl

end Engine

end MotionGraph
