import MotionGraph.Proofs.Engine.Callbacks
import MotionGraph.Proofs.Event.Bindings

/-!
# What an engine refers to is there

Bindings, drivers, observers, notes of props nodes and marks all hold bare names. `Engine.Integrity`
says that what they name is there and can do what they need of it. It holds whatever has been called
(`Engine.integrity_kept`), also between the commands of a frame (`Integrity.drainUpTo`), because a
node keeps its part until it is removed (`Graph.role?_perform`) and removing it takes all that names
it away (`Integrity.dropped`).

So a binding always finds a node to write to, and an animation that a client has started is never
stopped because its node is gone (`Integrity.not_stopped`).
-/

namespace MotionGraph

namespace Ledger

variable {κ : Type} {l : Ledger κ} {x : Life κ}

/-- Tracking starts no animation that a client asked for. -/
theorem mem_atWork_trackAll {rs : List TrackingRequest} (h : x ∈ (l.trackAll rs).atWork)
    (hx : x.requested = true) : x ∈ l.atWork := by
  induction rs generalizing l with
  | nil => exact h
  | cons r rs ih =>
    have h : x ∈ (l.track r).atWork := ih h
    unfold track at h
    split at h
    · refine (mem_atWork_start h).resolve_right fun hnew => ?_
      rw [hx] at hnew
      cases hnew.2
    · exact h

end Ledger

namespace Observers

variable {κ : Type} {o : Observers κ} {t u : Tag}

/-- Who observes is found when looked up. -/
theorem contains_iff : o.contains t = true ↔ ∃ observer, o.byTag.get? t = some observer := by
  rw [contains, OrderedMap.contains_eq_isSome, Option.isSome_iff_exists]

/-- Another node is observed. -/
theorem contains_insert_iff {callback : κ} :
    (o.insert t callback).contains u = true ↔ u = t ∨ o.contains u = true := by
  rw [contains_iff, contains_iff, insert, OrderedMap.get?_insert]
  by_cases h : u = t <;> simp [h]

/-- One node is observed no more. -/
theorem contains_erase_iff :
    (o.erase t).contains u = true ↔ u ≠ t ∧ o.contains u = true := by
  rw [contains_iff, contains_iff, erase, OrderedMap.get?_erase]
  by_cases h : u = t <;> simp [h]

/-- Telling observers leaves who observes. -/
theorem contains_notify (g : Graph) (o : Observers κ) (ts : List Tag) (t : Tag) :
    (notify g o ts).1.contains t = o.contains t := by
  induction ts generalizing o with
  | nil => rfl
  | cons u ts ih =>
    unfold notify
    split
    · refine (ih _).trans ?_
      simp only [contains, OrderedMap.contains_eq_isSome, OrderedMap.get?_modify]
      split <;> simp
    · exact ih o

end Observers

/-- A driver that goes on is not stopped in a frame. -/
theorem Driver.state_step_ne_stopped {α κ : Type} [Animation α] {d : Driver α κ}
    (h : d.state.isActive = true) (now current : Float) :
    (d.step now current).1.state ≠ .stopped := by
  have advanced : ∀ d' : Driver α κ, d'.state = .running → (d'.advance now).1.state ≠ .stopped := by
    intro d' hd
    have ended : ∀ d' : Driver α κ, d'.state = .running → (d'.endRun now).state ≠ .stopped := by
      intro d' hd
      unfold endRun
      dsimp only
      split <;> simp [hd]
    unfold advance
    dsimp only
    split
    · exact ended _ hd
    · simp [hd]
  unfold step
  split
  · exact advanced _ rfl
  · next hd => exact advanced _ hd
  · next hd => simp [hd, DriverState.isActive] at h
  · next hd => simp [hd, DriverState.isActive] at h

namespace Engine

variable {κ : Type} {e e' : Engine κ} {l l' : Ledger κ}

/-! ### The invariant -/

/-- What an engine refers to is there, and can do what is needed of it. -/
structure Integrity (e : Engine κ) (l : Ledger κ) : Prop where
  /-- Edges join nodes that are there, and what is marked is there. -/
  sound : e.graph.Sound
  /-- Events are bound to nodes that hold numbers. -/
  bound : ∀ t, e.router.holds t = true → e.graph.holds t = true
  /-- Clients have started animations on nodes that hold numbers. -/
  driven : ∀ x ∈ l.atWork, x.requested = true → e.graph.holds x.target = true
  /-- What is observed is there. -/
  observed : ∀ t, e.observers.contains t = true → e.graph.contains t = true
  /-- What is noted hands values to a view. -/
  noted : ∀ t ∈ e.dirty, ∃ r, e.graph.props t = .ok r

namespace Integrity

/-- The invariant stays if nodes keep their parts, and what is referred to was referred
to before or is there. -/
theorem of_steady (h : e.Integrity l) (hs : e'.graph.Sound) (hg : e.graph.Steady e'.graph)
    (hb : ∀ t, e'.router.holds t = true → e.router.holds t = true ∨ e'.graph.holds t = true)
    (hd : ∀ x ∈ l'.atWork, x.requested = true →
      (∃ y ∈ l.atWork, x.Continues y) ∨ e'.graph.holds x.target = true)
    (ho : ∀ t, e'.observers.contains t = true →
      e.observers.contains t = true ∨ e'.graph.contains t = true)
    (hn : ∀ t ∈ e'.dirty, t ∈ e.dirty ∨ ∃ r, e'.graph.props t = .ok r) : e'.Integrity l' where
  sound := hs
  bound t ht := (hb t ht).elim (fun ht => hg.holds (h.bound t ht)) id
  driven x hx hr := by
    obtain ⟨y, hy, hxy⟩ | hx := hd x hx hr
    · rw [hxy.target]
      exact hg.holds (h.driven y hy (hxy.requested ▸ hr))
    · exact hx
  observed t ht := (ho t ht).elim (fun ht => hg.contains (h.observed t ht)) id
  noted t ht := (hn t ht).elim (fun ht => hg.props (h.noted t ht)) id

/-- Telling clients something keeps the invariant. -/
theorem of_alike (h : e.Integrity l) (like : Alike e e') : e'.Integrity l where
  sound := like.graph ▸ h.sound
  bound := like.router ▸ like.graph ▸ h.bound
  driven := like.graph ▸ h.driven
  observed := like.observers ▸ like.graph ▸ h.observed
  noted := like.dirty ▸ like.graph ▸ h.noted

/-- Fewer animations that clients have started keep the invariant. -/
theorem of_atWork (h : e.Integrity l)
    (hd : ∀ x ∈ l'.atWork, x.requested = true → ∃ y ∈ l.atWork, x.Continues y) : e.Integrity l' :=
  h.of_steady h.sound (.refl _) (fun _ => Or.inl) (fun x hx hr => Or.inl (hd x hx hr))
    (fun _ => Or.inl) fun _ => Or.inl

/-- Tracking nodes have no part in the invariant. -/
theorem trackAll (h : e.Integrity l) (rs : List TrackingRequest) : e.Integrity (l.trackAll rs) :=
  h.of_atWork fun x hx hr => ⟨x, Ledger.mem_atWork_trackAll hx hr, .refl x⟩

/-- A change of the graph in which no node is removed keeps the invariant. -/
theorem onGraph (h : e.Integrity l) {graph : Graph} (hs : graph.Sound)
    (hg : e.graph.Steady graph) : Integrity { e with graph } l :=
  h.of_steady hs hg (fun _ => Or.inl) (fun x hx _ => Or.inl ⟨x, hx, .refl x⟩) (fun _ => Or.inl)
    fun _ => Or.inl

/-- Requests that remove no node keep the graph sound and nodes what they are. -/
theorem steady_own {g₀ : Graph} (g : Graph) (r : Graph.Request) (g' : Graph)
    (hd : r.dropped? = none) (h : g.Sound ∧ g₀.Steady g) (hg : g.perform r = .ok g') :
    g'.Sound ∧ g₀.Steady g' :=
  ⟨h.1.perform hg, h.2.trans (.perform hd hg)⟩

/-! ### Settling and frames -/

/-- Settling once keeps the invariant: only props nodes are noted. -/
theorem settleOnce (h : e.Integrity l) : e.settleOnce.1.Integrity l := by
  have start : e.graph.Sound ∧ e.graph.Steady e.graph := ⟨h.sound, .refl _⟩
  have propagated := steady_own _ .propagate _ rfl start rfl
  have written := steady_own _ (.applyWrites e.graph.propagate.2.writes) _ rfl propagated rfl
  refine Integrity.of_alike ?_ (alike_settleOnce e)
  refine h.of_steady written.1 written.2 (fun _ => Or.inl)
    (fun x hx _ => Or.inl ⟨x, hx, .refl x⟩) (fun t ht => Or.inl ?_) fun t ht => ?_
  · rwa [Observers.contains_notify] at ht
  · rcases OrderedSet.mem_insertAll.1 ht with ht | ht
    · exact Or.inl ht
    · obtain ⟨v, hv⟩ := Graph.role?_of_mem_sinks_evaluateAll ht
      exact Or.inr (Graph.props_iff_role?.2 ⟨v, written.2 t _ hv⟩)

/-- Settling keeps the invariant. -/
theorem settleUpTo (h : e.Integrity l) (passes : Nat) (done : Pass) :
    (Engine.settleUpTo passes e done).1.Integrity l :=
  settleUpTo_induction (P := fun e _ => e.Integrity l) (fun _ _ h => h.settleOnce) passes h

/-- Settling keeps the invariant. -/
theorem settle (h : e.Integrity l) : e.settle.1.Integrity l := h.settleUpTo _ _

/-- Moving the drivers to a frame keeps the invariant. -/
theorem moved (h : e.Integrity l) (time : Float) :
    (e.moved time).Integrity (l.step e.drivers (e.loop.tick time).2.now e.graph) := by
  have start : e.graph.Sound ∧ e.graph.Steady e.graph := ⟨h.sound, .refl _⟩
  obtain ⟨sound, steady⟩ := graph_moved steady_own time start
  exact h.of_steady sound steady (fun _ => Or.inl)
    (fun x hx _ => Or.inl (Ledger.mem_atWork_step hx)) (fun _ => Or.inl) fun _ => Or.inl

/-- Handing all updates to the views keeps the invariant. -/
theorem flush (h : e.Integrity l) (frame : Nat) : (e.flush frame).1.Integrity l := by
  have start : e.graph.Sound ∧ e.graph.Steady e.graph := ⟨h.sound, .refl _⟩
  obtain ⟨sound, steady⟩ := graph_takeUpdates steady_own e.dirty.toList start
  have taken : Integrity
      { e with graph := (takeUpdates e.graph e.dirty.toList).1, dirty := ∅, resets := [] } l :=
    h.of_steady sound steady (fun _ => Or.inl) (fun x hx _ => Or.inl ⟨x, hx, .refl x⟩)
      (fun _ => Or.inl) fun t ht => absurd ht List.not_mem_nil
  simp only [Engine.flush]
  split
  · exact taken
  · exact taken.of_alike (.notify _ rfl)

/-! ### Commands -/

/-- Commands that consist of a request to the graph remove no node and start or stop no
animation. -/
theorem request?_spec {c : Command κ} {r : Graph.Request} (hc : request? c = some r) :
    r.dropped? = none ∧ e.granted l c = l := by
  cases c <;> cases hc <;> exact ⟨rfl, rfl⟩

/-- Removing a node takes all that refers to it away. -/
theorem dropped (h : e.Integrity l) {t : Tag} {r : Graph × Node}
    (hr : e.graph.drop t [e.router.toHolder] = .ok r) :
    Integrity
      { e with
        graph := r.1
        drivers := (e.drivers.stopTargeting t).1
        observers := e.observers.erase t
        dirty := e.dirty.erase t } (l.stopTargeting t) := by
  have hg : e.graph.perform (.drop t [e.router.toHolder]) = .ok r.1 :=
    except_map_eq_ok.2 ⟨r, hr, rfl⟩
  have kept : ∀ u, u ≠ t → ∀ x, e.graph.role? u = some x → r.1.role? u = some x := by
    intro u hu x hx
    refine Graph.role?_perform ?_ hg hx
    simpa [Graph.Request.dropped?] using hu.symm
  have holds : ∀ u, u ≠ t → e.graph.holds u = true → r.1.holds u = true := by
    intro u hu hv
    obtain ⟨s, hs⟩ := Graph.holds_iff_role?.1 hv
    exact Graph.holds_iff_role?.2 ⟨s, kept u hu _ hs⟩
  refine ⟨h.sound.perform hg, fun u hu => ?_, fun x hx hrequested => ?_, fun u hu => ?_,
    fun u hu => ?_⟩
  · -- the request is refused while an event is bound to the node
    obtain ⟨-, -, free, -, -⟩ := Graph.drop_eq_ok hr
    refine holds u ?_ (h.bound u hu)
    rintro rfl
    have unbound : e.router.holds u = false := free _ List.mem_cons_self
    rw [unbound] at hu
    cases hu
  · obtain ⟨hx, hne⟩ := Ledger.mem_atWork_stopTargeting hx
    exact holds _ hne (h.driven x hx hrequested)
  · obtain ⟨hne, hu⟩ := Observers.contains_erase_iff.1 hu
    obtain ⟨x, hx⟩ := Graph.contains_iff_role?.1 (h.observed u hu)
    exact Graph.contains_iff_role?.2 ⟨x, kept u hne x hx⟩
  · obtain ⟨hu, hne⟩ := OrderedSet.mem_erase.1 hu
    obtain ⟨v, hv⟩ := Graph.props_iff_role?.1 (h.noted u hu)
    exact Graph.props_iff_role?.2 ⟨v, kept u hne _ hv⟩

/-- Bindings that were checked name nodes that hold numbers. -/
theorem holds_of_checked {g : Graph} {bs : List EventBinding} (h : checkBindings g bs = .ok ()) :
    ∀ b ∈ bs, g.holds b.target = true := by
  induction bs with
  | nil => exact fun b hb => absurd hb List.not_mem_nil
  | cons b bs ih =>
    unfold checkBindings at h
    split at h
    · cases h
    · next n hn =>
      split at h
      · next hv =>
        intro c hc
        rcases List.mem_cons.1 hc with rfl | hc
        · exact Graph.holds_of_node? (Graph.find_eq_ok.1 hn) hv
        · exact ih h c hc
      · cases h

/-- The ledger after an event has no more animations that clients have started. -/
theorem event (h : e'.Integrity l) (e : Engine κ) (view : ViewId) (event : String)
    (payload : Json) : e'.Integrity (e.granted l (.handleEvent view event payload)) := by
  unfold granted
  dsimp only
  split
  · exact h
  · exact h.trackAll _

/-- **What a granted command does keeps the invariant.** -/
theorem done (h : e.Integrity l) {c : Command κ} {o : Outcome κ} (hd : Done e c o) :
    o.engine.Integrity (e.granted l c) := by
  have start : e.graph.Sound ∧ e.graph.Steady e.graph := ⟨h.sound, .refl _⟩
  cases hd with
  | created hg =>
    obtain ⟨sound, steady⟩ := steady_own _ (.create _ _) _ rfl start hg
    exact h.onGraph sound steady
  | requested hc hg =>
    obtain ⟨own, same⟩ := request?_spec (e := e) (l := l) hc
    obtain ⟨sound, steady⟩ := steady_own _ _ _ own start hg
    rw [same]
    exact h.onGraph sound steady
  | detached hg =>
    obtain ⟨sound, steady⟩ := steady_own _ (.detachView _ _) _ rfl start hg
    exact (h.onGraph sound steady).of_steady sound (.refl _) (fun _ => Or.inl)
      (fun x hx _ => Or.inl ⟨x, hx, .refl x⟩) (fun _ => Or.inl)
      fun _ ht => Or.inl (OrderedSet.mem_erase.1 ht).1
  | dropped hr => exact h.dropped hr
  | started hn hv _ =>
    refine h.of_steady h.sound (.refl _) (fun _ => Or.inl) (fun x hx _ => ?_) (fun _ => Or.inl)
      fun _ => Or.inl
    rcases Ledger.mem_atWork_start hx with hx | ⟨ht, -⟩
    · exact Or.inl ⟨x, hx, .refl x⟩
    · rw [ht]
      exact Or.inr (Graph.holds_of_node? hn hv)
  | stopped =>
    exact h.of_steady h.sound (.refl _) (fun _ => Or.inl)
      (fun x hx _ => Or.inl ⟨x, List.mem_of_mem_filter hx, .refl x⟩) (fun _ => Or.inl)
      fun _ => Or.inl
  | bound hb =>
    refine h.of_steady h.sound (.refl _) (fun t ht => ?_) (fun x hx _ => Or.inl ⟨x, hx, .refl x⟩)
      (fun _ => Or.inl) fun _ => Or.inl
    rcases Router.holds_add ht with ht | ⟨b, hmem, rfl⟩
    · exact Or.inl ht
    · exact Or.inr (holds_of_checked hb b hmem)
  | unbound =>
    exact h.of_steady h.sound (.refl _) (fun _ ht => Or.inl (Router.holds_remove ht))
      (fun x hx _ => Or.inl ⟨x, hx, .refl x⟩) (fun _ => Or.inl) fun _ => Or.inl
  | observed ht =>
    refine h.of_steady h.sound (.refl _) (fun _ => Or.inl) (fun x hx _ => Or.inl ⟨x, hx, .refl x⟩)
      (fun u hu => ?_) fun _ => Or.inl
    rcases Observers.contains_insert_iff.1 hu with rfl | hu
    · exact Or.inr ht
    · exact Or.inl hu
  | unobserved =>
    exact h.of_steady h.sound (.refl _) (fun _ => Or.inl) (fun x hx _ => Or.inl ⟨x, hx, .refl x⟩)
      (fun u hu => Or.inl (Observers.contains_erase_iff.1 hu).2) fun _ => Or.inl
  | restored hr =>
    obtain ⟨sound, steady⟩ := steady_own _ (.restoreDefaults _) _ rfl start
      (except_map_eq_ok.2 ⟨_, hr, rfl⟩)
    refine h.of_steady sound steady (fun _ => Or.inl) (fun x hx _ => Or.inl ⟨x, hx, .refl x⟩)
      (fun _ => Or.inl) fun t ht => Or.inl ?_
    dsimp only at ht
    split at ht
    · exact (OrderedSet.mem_erase.1 ht).1
    · exact ht
  | passed =>
    obtain ⟨sound, steady⟩ := graph_handle steady_own e.router _ _ _ start
    exact (h.onGraph sound steady).event e _ _ _
  | handed =>
    obtain ⟨sound, steady⟩ := graph_handle steady_own e.router _ _ _ start
    exact (h.onGraph sound steady).settle.event e _ _ _

/-- A command keeps the invariant. -/
theorem entered (h : e.Integrity l) (c : Command κ) :
    (e.after (.execute c)).Integrity (e.entered l c) := by
  unfold Engine.entered
  rw [after]
  cases hx : e.execute c with
  | ok e' =>
    obtain ⟨o, hd, rfl⟩ := done_of_execute hx
    exact (h.done hd).of_alike o.alike
  | error cause => exact h

/-- Carrying out the commands that wait keeps the invariant. -/
theorem drainUpTo (h : e.Integrity l) (limit : Nat) :
    (Engine.drainUpTo limit e).1.Integrity (enteredAll l (carriedOut limit e)) := by
  refine drainUpTo_fold (P := Integrity) (Q := fun _ => True) (fun e l c rest _ h _ => ?_) limit
    (fun _ _ => trivial) h
  have popped : Integrity { e with queue := rest } l :=
    ⟨h.sound, h.bound, h.driven, h.observed, h.noted⟩
  exact popped.entered c

/-- Every call keeps the invariant. -/
theorem after (h : e.Integrity l) (c : Call κ) : (e.after c).Integrity (e.booked l c) := by
  cases c with
  | execute c => exact h.entered c
  | send c => exact h.of_alike (.send e c)
  | settle => exact h.settle.trackAll _
  | drain => exact h.drainUpTo e.commandLimit
  | frame time =>
    have moved := (h.drainUpTo e.commandLimit).moved time
    have flushed := (moved.settle.flush (e.drain.1.loop.tick time).2.frame).trackAll
      (e.drain.1.moved time).settle.2.requests
    show (e.onFrame time).1.Integrity _
    rw [onFrame_eq]
    refine ((flushed.of_alike (.deliverAll _ _)).of_alike (.rest _)).of_atWork fun x hx _ => ?_
    exact ⟨x, hx, .refl x⟩

/-- An animation that a client has started is at work with its own driver, and is not stopped by the
next frame. -/
theorem not_stopped (h : e.Integrity l) (books : e.Keeps l) {x : Life κ} (hx : x ∈ l.atWork)
    (hr : x.requested = true) :
    ∃ d, e.drivers.get? x.id = some d ∧ d.target = x.target ∧
      ∀ now, (DriverSet.advance now e.graph d).1.state ≠ .stopped := by
  obtain ⟨p, hp, hxp⟩ := Books.exists_driver books hx
  have active : p.2.state.isActive = true := hxp.state ▸ books.active x hx
  refine ⟨p.2, ?_, hxp.target, fun now => ?_⟩
  · rw [← hxp.key]
    exact OrderedMap.get?_eq_some_iff.2 hp
  · obtain ⟨n, hn⟩ := Graph.exists_holder_of_holds (hxp.target ▸ h.driven x hx hr)
    rw [DriverSet.advance, if_pos active, hn]
    exact Driver.state_step_ne_stopped active now n.base

end Integrity

/-! ### Runs -/

/-- An engine with nothing in it refers to nothing. -/
theorem integrity_new (settings : Settings) (host : Host κ) :
    (Engine.new settings host).Integrity {} where
  sound := Graph.sound_empty
  bound t ht := by cases ht
  driven x hx := absurd hx List.not_mem_nil
  observed t ht := by cases ht
  noted t ht := absurd ht List.not_mem_nil

/-- Whatever has been called, what an engine refers to is there. -/
theorem integrity_kept (settings : Settings) (host : Host κ)
    (calls : List (Call κ)) :
    (kept settings host calls).1.Integrity (kept settings host calls).2 := by
  have new := integrity_new settings host
  unfold kept
  generalize Engine.new settings host = e at new ⊢
  generalize ({} : Ledger κ) = l at new ⊢
  induction calls generalizing e l with
  | nil => exact new
  | cons c calls ih => exact ih _ _ (new.after c)

end Engine

end MotionGraph
