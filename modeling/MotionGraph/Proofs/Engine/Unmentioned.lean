import MotionGraph.Proofs.Driver.Lookup
import MotionGraph.Proofs.Engine.Integrity
import MotionGraph.Proofs.Graph.Unmentioned

/-!
# Nothing is left of a removed node

`Engine.Unmentioned` says that nothing in an engine refers to a name: nothing in the graph, no
driver, no observer, no note of a props node and no binding. It is so right after a node was
removed (`Engine.unmentioned_dropNode`), and stays so until a command mentions the name
(`Engine.Aside.afterAll`). Until then a node that is made under the name is as it was made, and
no observer hears of it.
-/

namespace MotionGraph

/-- The nodes that a command is about or makes another one refer to. -/
def Command.mentions {κ : Type} : Command κ → List Tag
  | .createNode t config => Graph.referencesMade (Node.ofJson t config)
  | .connect parent child | .disconnect parent child => [parent, child]
  | .connectToView t _ | .disconnectFromView t _ | .dropNode t | .setValue t _ | .setOffset t _
  | .flattenOffset t | .extractOffset t | .startAnimation _ t _ _ | .removeEventBinding _ _ t
  | .startListening t _ | .stopListening t | .restoreDefaultValues t => [t]
  | .addEventBinding _ _ bs => bs.map EventBinding.target
  | .stopAnimation _ | .handleEvent _ _ _ => []

/-- The name under which a command makes a node, if it makes one. -/
def Command.made? {κ : Type} : Command κ → Option Tag
  | .createNode t _ => some t
  | _ => none

/-- What a command leaves of a node that it does not mention: one that is removed is forgotten. -/
def Command.leaves {κ : Type} : Command κ → Node → Node
  | .dropNode t, n => n.forget t
  | _, n => n

/-! ### Whom observers and drivers have to do with -/

/-- Who is told of a value observes its node. -/
theorem Observers.contains_of_mem_notify {κ : Type} {g : Graph} {os : Observers κ} {ts : List Tag}
    {o : Observation κ} (h : o ∈ (notify g os ts).2) : os.contains o.tag = true := by
  induction ts generalizing os with
  | nil => cases h
  | cons u ts ih =>
    unfold notify at h
    split at h
    · next told ho =>
      rcases List.mem_cons.1 h with rfl | h
      · simp only [observation?, Option.bind_eq_bind, Option.bind_eq_some_iff] at ho
        obtain ⟨observer, hu, x, -, ho⟩ := ho
        split at ho <;> cases ho
        rw [contains, OrderedMap.contains_eq_isSome, hu, Option.isSome_some]
      · have heard := ih h
        simp only [contains, OrderedMap.contains_eq_isSome, OrderedMap.get?_modify] at heard ⊢
        split at heard
        · rwa [Option.isSome_map] at heard
        · exact heard
    · exact ih h

namespace DriverSet

section Targets

variable {α κ : Type} {s : DriverSet α κ} {t : Tag} (h : ∀ d ∈ s.drivers.values, d.target ≠ t)

include h

/-- Stopping an animation brings no driver to a node. -/
theorem targets_stop (id : AnimationId) : ∀ d ∈ (s.stop id).1.drivers.values, d.target ≠ t :=
  fun d hd => h d (mem_values_stop hd)

/-- Stopping several animations brings no driver to a node. -/
theorem targets_stopAll (ids : List AnimationId) :
    ∀ d ∈ (s.stopAll ids).1.drivers.values, d.target ≠ t := by
  induction ids generalizing s with
  | nil => exact h
  | cons id ids ih => exact ih (targets_stop h id)

/-- Starting the animation of another node brings no driver to a node. -/
theorem targets_start {d : Driver α κ} (hd : d.target ≠ t) :
    ∀ d' ∈ (s.start d).1.drivers.values, d'.target ≠ t := by
  intro d' hd'
  rw [OrderedMap.values, toList_start] at hd'
  obtain ⟨p, hp, rfl⟩ := List.mem_map.1 hd'
  rcases List.mem_append.1 hp with hp | hp
  · exact h p.2 (List.mem_map_of_mem (List.mem_of_mem_filter hp))
  · rw [List.mem_singleton.1 hp]
    exact hd

/-- In a frame drivers stay at their own nodes, and write to no others. -/
theorem targets_step [Animation α] (now : Float) (g : Graph) :
    (∀ d ∈ (s.step now g).1.drivers.values, d.target ≠ t) ∧
      t ∉ (arbitrate s.arbitration ∅
        (s.drivers.values.filterMap fun d => (advance now g d).2)).1.keys := by
  refine ⟨fun d hd => ?_, notMem_keys_of_no_driver now g h⟩
  rw [OrderedMap.values, toList_step] at hd
  obtain ⟨p, hp, rfl⟩ := List.mem_map.1 hd
  obtain ⟨q, hq, rfl⟩ := List.mem_map.1 (List.mem_of_mem_filter hp)
  rw [target_advance]
  exact h q.2 (List.mem_map_of_mem hq)

end Targets

end DriverSet

namespace Engine

variable {κ : Type} {e e' : Engine κ} {t : Tag} {n : Option Node} {os : List (Observation κ)}

/-! ### Right after the removal -/

/-- Nothing in an engine refers to a name. -/
structure Unmentioned (e : Engine κ) (t : Tag) : Prop where
  graph : e.graph.Unmentioned t
  drivers : ∀ d ∈ e.drivers.drivers.values, d.target ≠ t
  observers : e.observers.contains t = false
  dirty : t ∉ e.dirty
  router : e.router.holds t = false

/-- **Nothing refers to a node that was removed.** -/
theorem unmentioned_dropNode {l : Ledger κ} (h : e.Integrity l) (books : e.Keeps l)
    (hx : e.dropNode t = .ok e') : e'.graph.contains t = false ∧ e'.Unmentioned t := by
  have stopped : ∀ d ∈ e'.drivers.drivers.values, d.target ≠ t := by
    intro d hd
    obtain ⟨p, hp, rfl⟩ := List.mem_map.1 hd
    have booked : e'.Keeps (l.stopTargeting t) := books.granted (c := .dropNode t) hx
    obtain ⟨x, hx, hxp⟩ := Books.exists_life booked hp
    rw [hxp.target]
    exact (Ledger.mem_atWork_stopTargeting hx).2
  obtain ⟨o, hd, rfl⟩ := done_of_execute (c := .dropNode t) hx
  have like := o.alike
  cases hd with
  | requested hc => cases hc
  | dropped hr =>
    obtain ⟨-, -, free, -, -⟩ := Graph.drop_eq_ok hr
    obtain ⟨gone, unmentioned⟩ := Graph.unmentioned_drop h.sound hr
    refine ⟨like.graph ▸ gone, like.graph ▸ unmentioned, stopped, ?_, fun ht => ?_, ?_⟩
    · rw [like.observers, Bool.eq_false_iff]
      exact fun ht => (Observers.contains_erase_iff.1 ht).1 rfl
    · rw [like.dirty, OrderedSet.mem_erase] at ht
      exact ht.2 rfl
    · rw [like.router]
      exact free _ List.mem_cons_self

/-! ### As long as no command mentions the name -/

/-- Nothing in an engine refers to a name; its node and what its observers were told are as
given. -/
structure Aside (e : Engine κ) (t : Tag) (n : Option Node) (os : List (Observation κ)) : Prop where
  graph : e.graph.Apart t n
  drivers : ∀ d ∈ e.drivers.drivers.values, d.target ≠ t
  observers : e.observers.contains t = false
  dirty : t ∉ e.dirty
  router : e.router.holds t = false
  heard : (e.observations.filter fun o => o.tag = t) = os

/-- Animations of other nodes that tracking nodes ask for bring no driver to a node. -/
theorem targets_tracked {rs : List TrackingRequest} (hr : ∀ r ∈ rs, r.target ≠ t)
    {s : DriverSet Motion κ} (h : ∀ d ∈ s.drivers.values, d.target ≠ t) :
    ∀ d ∈ (rs.foldl tracked s).drivers.values, d.target ≠ t := by
  induction rs generalizing s with
  | nil => exact h
  | cons r rs ih =>
    refine ih (fun r hr' => hr r (List.mem_cons_of_mem _ hr')) ?_
    unfold tracked
    split
    · exact DriverSet.targets_start h (hr r List.mem_cons_self)
    · exact h

namespace Aside

/-- Nothing refers to a node that is left aside. -/
theorem unmentioned (h : e.Aside t n os) : e.Unmentioned t :=
  ⟨h.graph.unmentioned, h.drivers, h.observers, h.dirty, h.router⟩

/-- Telling clients something leaves a node aside. -/
theorem of_alike (h : e.Aside t n os) (like : Alike e e') : e'.Aside t n os where
  graph := like.graph ▸ h.graph
  drivers := like.drivers ▸ h.drivers
  observers := like.observers ▸ h.observers
  dirty := like.dirty ▸ h.dirty
  router := like.router ▸ h.router
  heard := like.heard ▸ h.heard

/-! ### Settling and frames -/

/-- Settling once leaves a node aside. -/
theorem settleOnce (h : e.Aside t n os) : e.settleOnce.1.Aside t n os := by
  have spared := h.graph.unmentioned.spares_propagate h.graph.sound
  refine Aside.of_alike ?_ (alike_settleOnce e)
  refine ⟨h.graph.settled, targets_tracked spared.requests h.drivers, ?_, fun ht => ?_,
    h.router, ?_⟩
  · rw [Observers.contains_notify]
    exact h.observers
  · exact (OrderedSet.mem_insertAll.1 ht).elim h.dirty spared.sinks
  · -- only who observes a node is told of it
    have unheard : ((e.observers.notify e.graph.propagate.1 e.graph.propagate.2.recomputed).2.filter
        fun o => o.tag = t) = [] := by
      rw [List.filter_eq_nil_iff]
      intro o ho hot
      rw [decide_eq_true_eq] at hot
      have observed := Observers.contains_of_mem_notify ho
      rw [hot, h.observers] at observed
      cases observed
    have told : ∀ told : List (Observation κ),
        (told.map Notice.value).filterMap Notice.observation? = told := by
      intro told
      simp [List.filterMap_map, Function.comp_def, Notice.observation?]
    have heard := h.heard
    simp only [observations, List.filterMap_append, List.filter_append, told] at heard ⊢
    rw [heard, unheard, List.append_nil]

/-- Settling leaves a node aside. -/
theorem settleUpTo (h : e.Aside t n os) (passes : Nat) (done : Pass) :
    (Engine.settleUpTo passes e done).1.Aside t n os :=
  settleUpTo_induction (P := fun e _ => e.Aside t n os) (fun _ _ h => h.settleOnce) passes h

/-- Moving the drivers to a frame leaves a node aside. -/
theorem moved (h : e.Aside t n os) (time : Float) : (e.moved time).Aside t n os := by
  obtain ⟨hdrivers, hwritten⟩ :=
    DriverSet.targets_step h.drivers (e.loop.tick time).2.now e.graph
  refine ⟨?_, hdrivers, h.observers, h.dirty, h.router, h.heard⟩
  refine DriverSet.write_induction (P := fun g => g.Apart t n) (fun g u x r hw hg hr => ?_) h.graph
  refine hg.setBase ?_ hr
  rintro rfl
  exact hwritten (List.mem_map_of_mem hw)

/-- Handing all updates to the views leaves a node aside. -/
theorem flush (h : e.Aside t n os) (frame : Nat) : (e.flush frame).1.Aside t n os := by
  have taken : ∀ (ts : List Tag) (g : Graph),
      t ∉ ts → g.Apart t n → (takeUpdates g ts).1.Apart t n := by
    intro ts
    induction ts with
    | nil => exact fun g _ hg => hg
    | cons u us ih =>
      intro g ht hg
      rw [List.mem_cons, not_or] at ht
      have next : (g.takeUpdate u).1.Apart t n :=
        hg.own (r := .takeUpdate u) rfl (by simpa [Graph.Request.mentions] using ht.1)
          (by simp [Graph.Request.made?]) rfl
      exact ih _ ht.2 next
  have flushed : Aside
      { e with graph := (takeUpdates e.graph e.dirty.toList).1, dirty := ∅, resets := [] } t n os :=
    ⟨taken _ _ h.dirty h.graph, h.drivers, h.observers, List.not_mem_nil, h.router, h.heard⟩
  simp only [Engine.flush]
  split
  · exact flushed
  · exact flushed.of_alike (.notify _ rfl)

/-! ### Commands -/

/-- An event leaves a node aside that it is not bound to. -/
theorem handled (h : e.Aside t n os) (view : ViewId) (event : String) (payload : Json) :
    Aside { e with graph := (e.router.handle view event payload e.graph).1 } t n os := by
  refine ⟨?_, h.drivers, h.observers, h.dirty, h.router, h.heard⟩
  refine Router.deliver_induction (P := fun g => g.Apart t n)
    (fun g b x r hb hg hr => ?_) _ _ h.graph
  refine hg.setBase ?_ hr
  rintro rfl
  have bound := Router.holds_of_mem_lookup hb
  rw [h.router] at bound
  cases bound

/-- A command that consists of a request mentions what the request does, makes no node, and takes no
reference away. -/
theorem request?_same {c : Command κ} {r : Graph.Request} (hc : request? c = some r) :
    c.mentions = r.mentions ∧ c.made? = none ∧ r.made? = none ∧ c.leaves = id := by
  cases c <;> cases hc <;> exact ⟨rfl, rfl, rfl, rfl⟩

/-- **What a granted command leaves aside**: a name that it does not mention stays unmentioned, and
so does the node of that name, if the command does not make it. -/
theorem done (h : e.Aside t n os) {c : Command κ} (hm : t ∉ c.mentions) {o : Outcome κ}
    (hd : Done e c o) :
    o.engine.Aside t (if c.made? = some t then o.engine.graph.node? t else n.map c.leaves) os := by
  have idle : n.map id = n := by simp
  have unobserved := h.observers
  cases hd with
  | @created u config graph hg =>
    have made : graph.Sound ∧ graph.Unmentioned t :=
      ⟨h.graph.sound.perform (r := .create u config) hg,
        h.graph.unmentioned.perform (r := .create u config) h.graph.sound hm hg⟩
    refine ⟨?_, h.drivers, h.observers, h.dirty, h.router, h.heard⟩
    split
    · exact ⟨made.1, made.2, rfl⟩
    · next hmade => exact idle.symm ▸ h.graph.own (r := .create u config) rfl hm hmade hg
  | @requested _ r graph hc hg =>
    obtain ⟨mentions, none_made, hmade, leaves⟩ := request?_same hc
    rw [mentions] at hm
    obtain ⟨own, -⟩ := Integrity.request?_spec (e := e) (l := {}) hc
    have next := h.graph.own own hm (by simp [hmade]) hg
    refine ⟨?_, h.drivers, h.observers, h.dirty, h.router, h.heard⟩
    rw [none_made, leaves, idle]
    exact next
  | detached hg =>
    have next := h.graph.own (r := .detachView _ _) rfl hm (by simp [Graph.Request.made?]) hg
    exact ⟨idle.symm ▸ next, h.drivers, h.observers,
      fun ht => h.dirty (OrderedSet.mem_erase.1 ht).1, h.router, h.heard⟩
  | dropped hr =>
    have next := h.graph.perform (r := .drop _ _) hm (by simp [Graph.Request.made?])
      (except_map_eq_ok.2 ⟨_, hr, rfl⟩)
    refine ⟨next, DriverSet.targets_stopAll h.drivers _, ?_,
      fun ht => h.dirty (OrderedSet.mem_erase.1 ht).1, h.router, h.heard⟩
    rw [Bool.eq_false_iff] at unobserved ⊢
    exact fun ht => unobserved (Observers.contains_erase_iff.1 ht).2
  | started hn hv hd =>
    subst hd
    refine ⟨idle.symm ▸ h.graph, DriverSet.targets_start h.drivers ?_, h.observers, h.dirty,
      h.router, h.heard⟩
    exact (List.ne_of_not_mem_cons hm).symm
  | stopped =>
    exact ⟨idle.symm ▸ h.graph, DriverSet.targets_stop h.drivers _, h.observers, h.dirty, h.router,
      h.heard⟩
  | bound hb =>
    refine ⟨idle.symm ▸ h.graph, h.drivers, h.observers, h.dirty, ?_, h.heard⟩
    rw [Bool.eq_false_iff]
    intro ht
    rcases Router.holds_add ht with ht | ⟨b, hmem, rfl⟩
    · rw [h.router] at ht
      cases ht
    · exact hm (List.mem_map_of_mem hmem)
  | unbound =>
    refine ⟨idle.symm ▸ h.graph, h.drivers, h.observers, h.dirty, ?_, h.heard⟩
    rw [Bool.eq_false_iff]
    intro ht
    have bound := Router.holds_remove ht
    rw [h.router] at bound
    cases bound
  | observed ht =>
    refine ⟨idle.symm ▸ h.graph, h.drivers, ?_, h.dirty, h.router, h.heard⟩
    rw [Bool.eq_false_iff] at unobserved ⊢
    intro ht
    exact (Observers.contains_insert_iff.1 ht).elim (List.ne_of_not_mem_cons hm) unobserved
  | unobserved =>
    refine ⟨idle.symm ▸ h.graph, h.drivers, ?_, h.dirty, h.router, h.heard⟩
    rw [Bool.eq_false_iff] at unobserved ⊢
    exact fun ht => unobserved (Observers.contains_erase_iff.1 ht).2
  | restored hr =>
    have next := h.graph.own (r := .restoreDefaults _) rfl hm (by simp [Graph.Request.made?])
      (except_map_eq_ok.2 ⟨_, hr, rfl⟩)
    refine ⟨idle.symm ▸ next, h.drivers, h.observers, fun ht => h.dirty ?_, h.router, h.heard⟩
    dsimp only at ht
    split at ht
    · exact (OrderedSet.mem_erase.1 ht).1
    · exact ht
  | passed => exact idle.symm ▸ h.handled _ _ _
  | handed => exact idle.symm ▸ (h.handled _ _ _).settleUpTo _ _

end Aside

/-- The node of a name after a command that does not mention it: the one made, if the command makes
it, and else the one before, which forgets a node that is removed. -/
def asMade (t : Tag) (n : Option Node) (p : Engine κ × Command κ) : Option Node :=
  match p.1.execute p.2 with
  | .ok e => if p.2.made? = some t then e.graph.node? t else n.map p.2.leaves
  | .error _ => n

namespace Aside

/-- A command leaves aside what it does not mention. -/
theorem execute (h : e.Aside t n os) {c : Command κ} (hm : t ∉ c.mentions) :
    (e.after (.execute c)).Aside t (asMade t n (e, c)) os := by
  unfold asMade
  rw [after]
  cases hx : e.execute c with
  | ok e' =>
    obtain ⟨o, hd, rfl⟩ := done_of_execute hx
    have next := (h.done hm hd).of_alike o.alike
    rwa [← o.alike.graph] at next
  | error cause => exact h

/-- Carrying out the commands that wait leaves aside what they do not mention. -/
theorem drainUpTo (h : e.Aside t n os) (limit : Nat)
    (hm : ∀ p ∈ carriedOut limit e, t ∉ p.2.mentions) :
    (Engine.drainUpTo limit e).1.Aside t ((carriedOut limit e).foldl (asMade t) n) os := by
  refine drainUpTo_fold (P := fun e n => e.Aside t n os) (Q := fun p => t ∉ p.2.mentions)
    (fun e n c rest hm h _ => ?_) limit hm h
  have popped : Aside { e with queue := rest } t n os :=
    ⟨h.graph, h.drivers, h.observers, h.dirty, h.router, h.heard⟩
  exact popped.execute hm

/-- A call leaves aside what its commands do not mention. -/
theorem after (h : e.Aside t n os) (c : Call κ) (hm : ∀ p ∈ commandsOf e c, t ∉ p.2.mentions) :
    (e.after c).Aside t ((commandsOf e c).foldl (asMade t) n) os := by
  cases c with
  | execute c => exact h.execute (hm _ List.mem_cons_self)
  | send c => exact h.of_alike (.send e c)
  | settle => exact h.settleUpTo _ _
  | drain => exact h.drainUpTo e.commandLimit hm
  | frame time =>
    have settled := ((h.drainUpTo e.commandLimit hm).moved time).settleUpTo
      (e.drain.1.moved time).settings.maxSettlePasses {}
    have flushed := settled.flush (e.drain.1.loop.tick time).2.frame
    show (e.onFrame time).1.Aside _ _ _
    rw [onFrame_eq]
    exact (flushed.of_alike (.deliverAll _ _)).of_alike (.rest _)

end Aside

/-! ### Runs -/

/-- The commands that several calls carry out, each with the engine that carries it out. -/
def commandsOfAll (e : Engine κ) : List (Call κ) → List (Engine κ × Command κ)
  | [] => []
  | c :: cs => commandsOf e c ++ commandsOfAll (e.after c) cs

/-- Calls leave aside what their commands do not mention. -/
theorem Aside.afterAll (h : e.Aside t n os) (calls : List (Call κ))
    (hm : ∀ p ∈ commandsOfAll e calls, t ∉ p.2.mentions) :
    (calls.foldl Engine.after e).Aside t ((commandsOfAll e calls).foldl (asMade t) n) os := by
  induction calls generalizing e n with
  | nil => exact h
  | cons c calls ih =>
    rw [commandsOfAll, List.foldl_append]
    exact ih (h.after c fun p hp => hm p (List.mem_append_left _ hp))
      fun p hp => hm p (List.mem_append_right _ hp)

/-- The engine and its ledger when so many of the commands that wait have been carried out. -/
def keptWhile (k : Nat) (s : Engine κ × Ledger κ) : Engine κ × Ledger κ :=
  ((drainUpTo k s.1).1, enteredAll s.2 (carriedOut k s.1))

/-- **Referential integrity**: whatever has been called, and however many of the commands that wait
have been carried out, what the engine refers to is there and can do what is needed of it. So an
event hands over all numbers that its bindings find, and no animation that a client has started is
stopped in a frame because its node is gone. Right after a node was removed nothing refers to it.
This stays so until a command that is carried out later mentions the name; up to then a node that is
made under the name stays as it was made, except that it forgets nodes that are removed, and no
observer hears of it. -/
theorem referential_integrity (settings : Settings) (host : Host κ)
    (calls : List (Call κ)) (k : Nat) :
    let s := keptWhile k (kept settings host calls)
    s.1.Keeps s.2 ∧ s.1.Integrity s.2 ∧
      (∀ view event payload, (s.1.router.handle view event payload s.1.graph).2.written =
        (s.1.router.lookup view event).filterMap (EventBinding.number? payload)) ∧
      (∀ x ∈ s.2.atWork, x.requested = true →
        ∃ d, s.1.drivers.get? x.id = some d ∧ d.target = x.target ∧
          ∀ now, (DriverSet.advance now s.1.graph d).1.state ≠ .stopped) ∧
      ∀ t e', s.1.dropNode t = .ok e' →
        e'.Integrity (s.2.stopTargeting t) ∧ e'.graph.contains t = false ∧ e'.Unmentioned t ∧
        ∀ later, (∀ p ∈ commandsOfAll e' later, t ∉ p.2.mentions) →
          let e'' := later.foldl after e'
          e''.Unmentioned t ∧
            e''.graph.node? t = (commandsOfAll e' later).foldl (asMade t) none ∧
            (e''.observations.filter fun o => o.tag = t) =
              e'.observations.filter fun o => o.tag = t := by
  intro s
  have integrity : s.1.Integrity s.2 := (integrity_kept settings host calls).drainUpTo k
  have books : s.1.Keeps s.2 := (kept_books settings host calls).1.drainUpTo k
  refine ⟨books, integrity, Router.written_handle integrity.bound,
    fun x hx hr => integrity.not_stopped books hx hr, fun t e' hx => ?_⟩
  have dropped : e'.Integrity (s.2.stopTargeting t) := by
    obtain ⟨o, hd, rfl⟩ := done_of_execute (c := .dropNode t) hx
    exact (integrity.done hd).of_alike o.alike
  obtain ⟨gone, unmentioned⟩ := unmentioned_dropNode integrity books hx
  have absent : e'.graph.node? t = none := by
    rwa [Graph.contains_eq_isSome, Option.isSome_eq_false_iff, Option.isNone_iff_eq_none] at gone
  refine ⟨dropped, gone, unmentioned, fun later hm => ?_⟩
  have aside : e'.Aside t none (e'.observations.filter fun o => o.tag = t) :=
    ⟨⟨dropped.sound, unmentioned.graph, absent⟩, unmentioned.drivers, unmentioned.observers,
      unmentioned.dirty, unmentioned.router, rfl⟩
  have left := aside.afterAll later hm
  exact ⟨left.unmentioned, left.graph.node, left.heard⟩

/-- A value is made, observed and animated, and a frame passes. -/
def reuseStart : List (Call Unit) :=
  [.execute (.createNode ⟨1⟩ (.array [.string "value", .number (.real 1.0)])),
   .execute (.startListening ⟨1⟩ ()),
   .execute (.startAnimation ⟨5⟩ ⟨1⟩ (.array [.string "clock"]) none), .frame 16.0]

/-- Another value is made under the name, and a frame passes. -/
def reuseEnd : List (Call Unit) :=
  [.execute (.createNode ⟨1⟩ (.array [.string "value", .number (.real 7.0)])), .frame 32.0]

/-- When the first value is removed in between, the second one stays as it was made,
and nobody hears of it. -/
theorem reuse_leaves_nothing :
    let e := reached {} .silent reuseStart
    (e.drivers.size, e.observations.length) = (1, 1) ∧
      ∃ e', e.dropNode ⟨1⟩ = .ok e' ∧ (reuseEnd.foldl after e').Unmentioned ⟨1⟩ ∧
        (reuseEnd.foldl after e').graph.base? ⟨1⟩ = some 7.0 ∧
        ((reuseEnd.foldl after e').observations.filter fun o => o.tag = ⟨1⟩).length = 1 := by
  intro e
  have busy : (e.drivers.size, e.observations.length) = (1, 1) := by decide +kernel
  have run : (e.dropNode ⟨1⟩).toOption.map (fun e' =>
      ((commandsOfAll e' reuseEnd).all fun p => !p.2.mentions.contains ⟨1⟩,
        (reuseEnd.foldl after e').graph.base? ⟨1⟩,
        (e'.observations.filter fun o => o.tag = ⟨1⟩).length)) = some (true, some 7.0, 1) := by
    decide +kernel
  cases hx : e.dropNode ⟨1⟩ with
  | error cause =>
    rw [hx] at run
    cases run
  | ok e' =>
    rw [hx] at run
    obtain ⟨hm, hb, ho⟩ : _ ∧ _ ∧ _ := by simpa [Except.toOption] using run
    have start : (keptWhile 0 (kept {} .silent reuseStart)).1 = e := fst_kept _ _ _
    obtain ⟨-, -, -, -, removal⟩ := referential_integrity {} .silent reuseStart 0
    obtain ⟨-, -, -, later⟩ := removal ⟨1⟩ e' (start ▸ hx)
    obtain ⟨unmentioned, -, heard⟩ := later reuseEnd fun p hp ht => hm p.1 p.2 hp ht
    exact ⟨busy, e', rfl, unmentioned, hb, by rw [heard]; exact ho⟩

end Engine

end MotionGraph
