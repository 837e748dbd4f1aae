import MotionGraph.Proofs.Engine.History
import MotionGraph.Proofs.Graph.Sending
import MotionGraph.Proofs.Graph.Views

/-!
# What views have received is what they are to show

`Faithful` is the invariant that ties a graph, the props nodes noted for the next batch and the
updates that wait to the history. What a node keeps as sent is what was handed to its view last
(`Faithful.sent`). An attached props node that reads what it shows by edges is stale, or noted for
the next batch, or its view has received what it is to show, or its defaults were restored and it
was not computed since (`Faithful.shown`).

Four kinds of steps keep this: announced changes that leave alone what nodes keep about their views,
or forget it with good reason (`Faithful.of_announced`), a propagation (`Faithful.propagate`), the
end of waiting for updates that take back earlier ones (`Faithful.resetsDone`) and handing out an
update (`Faithful.takeUpdate`).
-/

namespace MotionGraph

/-! ### Histories -/

namespace History

/-- Moments written down one after the other. -/
theorem record_cons (h : History) (m : Moment) (ms : List Moment) :
    h.record (m :: ms) = record (m :: h) ms := rfl

/-- Moments written down in two parts. -/
theorem record_append (h : History) (ms ms' : List Moment) :
    h.record (ms ++ ms') = (h.record ms).record ms' := List.foldl_append

/-- Computing nodes hands out nothing. -/
@[simp] theorem lastHanded_computed (h : History) (ts : List Tag) (t : Tag) :
    (h.record (ts.map .computed)).lastHanded t = h.lastHanded t := by
  induction ts generalizing h with
  | nil => rfl
  | cons u ts ih => rw [List.map_cons, record_cons, ih]; rfl

/-- Computing nodes leaves the updates that wait. -/
@[simp] theorem owed_computed (h : History) (ts : List Tag) :
    (h.record (ts.map .computed)).owed = h.owed := by
  induction ts generalizing h with
  | nil => rfl
  | cons u ts ih => rw [List.map_cons, record_cons, ih]; rfl

/-- Defaults stay restored while a node is not computed. -/
theorem restoredSince_computed (h : History) {ts : List Tag} {t : Tag} (ht : t ∉ ts) :
    (h.record (ts.map .computed)).restoredSince t = h.restoredSince t := by
  induction ts generalizing h with
  | nil => rfl
  | cons u ts ih =>
    rw [List.mem_cons, not_or] at ht
    rw [List.map_cons, record_cons, ih _ ht.2, restoredSince, if_neg (Ne.symm ht.1)]

/-- Handing out updates does not undo that defaults were restored. -/
@[simp] theorem restoredSince_handed (h : History) (ws : List (Tag × ViewUpdate)) (t : Tag) :
    (h.record (ws.map fun w => .handed w.1 w.2)).restoredSince t = h.restoredSince t := by
  induction ws generalizing h with
  | nil => rfl
  | cons w ws ih => rw [List.map_cons, record_cons, ih]; rfl

/-- Handing out updates of other nodes does not matter to a node. -/
theorem lastHanded_handed (h : History) {ws : List (Tag × ViewUpdate)} {t : Tag}
    (ht : t ∉ ws.map Prod.fst) :
    (h.record (ws.map fun w => .handed w.1 w.2)).lastHanded t = h.lastHanded t := by
  induction ws generalizing h with
  | nil => rfl
  | cons w ws ih =>
    rw [List.map_cons, List.mem_cons, not_or] at ht
    rw [List.map_cons, record_cons, ih _ ht.2, lastHanded, if_neg (Ne.symm ht.1)]

end History

/-! ### The invariant -/

/-- Views have received what the history says, and what they are to show is on its way to them if
they have not received it. -/
structure Faithful (g : Graph) (dirty : List Tag) (resets : List ViewUpdate) (h : History) :
    Prop where
  sound : g.Sound
  callFree : g.CallFree
  /-- The updates that wait are those of the history. -/
  owed : h.owed.map Prod.snd = resets
  /-- What a node keeps as sent was handed to its view last, and is not to be taken back. -/
  sent : ∀ t n p m, g.node? t = some n → n.kind = .props p → p.lastSent = some m →
    (∃ view, p.view = some view ∧ h.lastHanded t = some ⟨view, m⟩) ∧ t ∉ h.owed.map Prod.fst
  /-- What an attached node is to show has been received, or is stale, or is noted for the next
  batch, or the defaults were restored. -/
  shown : ∀ t n p, g.node? t = some n → n.kind = .props p → p.view.isSome = true →
    g.PropsWired t p.sources →
      g.Stale t ∨ t ∈ dirty ∨ (∃ m, p.lastSent = some m ∧ m.Matches (g.propsOf p)) ∨
        h.restoredSince t = true

/-- Between two moments nothing has happened that matters to the view of a node. -/
structure Carries (dirty dirty' : List Tag) (h h' : History) (t : Tag) : Prop where
  dirty : t ∈ dirty → t ∈ dirty'
  handed : h'.lastHanded t = h.lastHanded t
  owed : t ∈ h'.owed.map Prod.fst → t ∈ h.owed.map Prod.fst
  restored : h.restoredSince t = true → h'.restoredSince t = true

/-- Nothing has happened. -/
theorem Carries.refl (dirty : List Tag) (h : History) (t : Tag) : Carries dirty dirty h h t :=
  ⟨id, rfl, id, id⟩

namespace Faithful

variable {g g' : Graph} {dirty dirty' : List Tag} {resets resets' : List ViewUpdate}
  {h h' : History}

/-- Before anything has happened. -/
theorem empty : Faithful Graph.empty [] [] [] where
  sound := Graph.sound_empty
  callFree _ _ hn := by cases hn
  owed := rfl
  sent _ _ _ _ hn := by cases hn
  shown _ _ _ hn := by cases hn

/-- What an attached node is to show, in a graph that is the same below it. -/
theorem shown_of_sameBelow (hf : Faithful g dirty resets h) {t : Tag} {n : Node} {p p' : Props}
    (hn : g.node? t = some n) (hp : n.kind = .props p) (hv : p.view.isSome = true)
    (hs : p'.sources = p.sources) (hb : Graph.SameBelow g g' t)
    (hw : g'.PropsWired t p'.sources) :
    g.Stale t ∨ t ∈ dirty ∨ (∃ m, p.lastSent = some m ∧ m.Matches (g'.propsOf p')) ∨
      h.restoredSince t = true := by
  rw [hs] at hw
  rw [hb.propsOf hw rfl hs]
  exact hf.shown t n p hn hp hv (hb.propsWired hw)

/-! ### Announced changes -/

/-- Announced changes keep the invariant if of every props node it holds that nothing has happened
to it that matters to its view, or that it has forgotten what was sent, and is marked, or attached
to no view, or had its defaults restored. -/
theorem of_announced (hf : Faithful g dirty resets h) (hs' : g'.Sound)
    (ha : Graph.Announced g g') (ho : h'.owed.map Prod.snd = resets')
    (hstep : ∀ t n n' p', g.node? t = some n → g'.node? t = some n' → n'.kind = .props p' →
      (n'.kind.sending = n.kind.sending ∧ Carries dirty dirty' h h' t) ∨
      (p'.lastSent = none ∧
        (t ∈ g'.marked ∨ p'.view = none ∨ h'.restoredSince t = true))) :
    Faithful g' dirty' resets' h' := by
  refine ⟨hs', hf.callFree.of_announced ha, ho, fun t n' p' m hn' hp' hm => ?_,
    fun t n' p' hn' hp' hv hw => ?_⟩
  · rcases ha.node t n' hn' with ⟨n, hn, -, -⟩ | ⟨-, hfresh⟩
    · rcases hstep t n n' p' hn hn' hp' with ⟨hsend, hc⟩ | ⟨hnone, -⟩
      · rw [hp', eq_comm] at hsend
        obtain ⟨p, hp, hview, hlast⟩ := Kind.exists_props_of_sending hsend
        obtain ⟨⟨view, hv, hh⟩, hno⟩ := hf.sent t n p m hn hp (hlast.trans hm)
        exact ⟨⟨view, hview.symm.trans hv, hc.handed.trans hh⟩, fun hin => hno (hc.owed hin)⟩
      · rw [hnone] at hm
        cases hm
    · rw [(hfresh.detached p' hp').2] at hm
      cases hm
  · by_cases hst : g'.Stale t
    · exact Or.inl hst
    rcases ha.node t n' hn' with ⟨n, hn, -, hmark | hout⟩ | ⟨-, hfresh⟩
    · exact Or.inl ⟨t, hmark, .refl⟩
    · rcases hstep t n n' p' hn hn' hp' with ⟨hsend, hc⟩ | ⟨-, hmark | hnone | hrest⟩
      · have hk : n'.kind.outline = n.kind.outline := Node.kind_of_outline hout
        rw [hp', eq_comm] at hsend
        obtain ⟨p, hp, hview, hlast⟩ := Kind.exists_props_of_sending hsend
        have hsrc : p'.sources = p.sources := by
          rw [hp, hp'] at hk
          simpa [Kind.outline] using hk
        have hb := ha.sameBelow hf.sound hs' (Graph.contains_of_node? hn)
          (Graph.contains_of_node? hn') hst
        rw [← hview] at hv
        rcases hf.shown_of_sameBelow hn hp hv hsrc hb hw with hs | hd | ⟨m, hm, hmm⟩ | hr
        · exact absurd (ha.stale hs' hs (Graph.contains_of_node? hn')) hst
        · exact Or.inr (Or.inl (hc.dirty hd))
        · exact Or.inr (Or.inr (Or.inl ⟨m, hlast.symm.trans hm, hmm⟩))
        · exact Or.inr (Or.inr (Or.inr (hc.restored hr)))
      · exact Or.inl ⟨t, hmark, .refl⟩
      · rw [hnone] at hv
        cases hv
      · exact Or.inr (Or.inr (Or.inr hrest))
    · rw [(hfresh.detached p' hp').1] at hv
      cases hv

/-- A request keeps the invariant if nothing has happened that matters to the views of other nodes
than the one it is about, and if that one has forgotten what was sent for it, and is marked, or
attached to no view, or had its defaults restored. -/
theorem perform (hf : Faithful g dirty resets h) {r : Graph.Request} (hp : g.Permits r)
    (hr : r.isCompound = false) (hg : g.perform r = .ok g') (ho : h'.owed.map Prod.snd = resets')
    (hc : ∀ u, g.contains u = true → g'.contains u = true → r.onView ≠ some u →
      Carries dirty dirty' h h' u)
    (hv : ∀ t, r.onView = some t → ∀ n' p', g'.node? t = some n' → n'.kind = .props p' →
      p'.lastSent = none ∧ (t ∈ g'.marked ∨ p'.view = none ∨ h'.restoredSince t = true)) :
    Faithful g' dirty' resets' h' := by
  refine hf.of_announced (hf.sound.perform hg) (.perform hf.sound hp hr hg) ho
    fun u n n' p' hn hn' hp' => ?_
  by_cases hu : r.onView = some u
  · exact Or.inr (hv u hu n' p' hn' hp')
  · exact Or.inl ⟨Graph.sending_perform_eq hg hu hn hn',
      hc u (Graph.contains_of_node? hn) (Graph.contains_of_node? hn') hu⟩

/-- A request that is about no view keeps the invariant. -/
theorem request (hf : Faithful g dirty resets h) {r : Graph.Request} (hp : g.Permits r)
    (hr : r.isCompound = false) (hv : r.onView = none) (hg : g.perform r = .ok g') :
    Faithful g' dirty resets h := by
  refine hf.perform hp hr hg hf.owed (fun u _ _ _ => Carries.refl dirty h u) fun t ht => ?_
  rw [hv] at ht
  cases ht

/-- Setting a base value keeps the invariant. -/
theorem setBase (hf : Faithful g dirty resets h) {t : Tag} {x : Float} {r : Graph × Bool}
    (hr : g.setBase t x = .ok r) : Faithful r.1 dirty resets h :=
  hf.request (r := .setBase t x) trivial rfl rfl (except_map_eq_ok.2 ⟨r, hr, rfl⟩)

/-- Making a node keeps the invariant: the node was not there before. -/
theorem create (hf : Faithful g dirty resets h) {t : Tag} {config : Json}
    (hp : g.Permits (.create t config)) (hg : g.create t config = .ok g') :
    Faithful g' dirty resets (.made t :: h) := by
  obtain ⟨c, -, hmake⟩ := Graph.create_eq_ok.1 hg
  obtain ⟨hfree, -⟩ := Graph.make_eq_ok.1 hmake
  refine hf.perform hp rfl hg hf.owed (fun u hu _ _ => ?_) fun u hu => by cases hu
  have hne : t ≠ u := by
    rintro rfl
    rw [hfree] at hu
    cases hu
  refine ⟨id, by rw [History.lastHanded, if_neg hne], id, fun hr => ?_⟩
  rw [History.restoredSince, if_neg hne]
  exact hr

/-- Removing a node keeps the invariant, also if it was noted for the next batch. -/
theorem drop (hf : Faithful g dirty resets h) {t : Tag} {holders : List Holder} {r : Graph × Node}
    (hp : g.Permits (.drop t holders)) (hg : g.drop t holders = .ok r)
    (hd : ∀ u ≠ t, u ∈ dirty → u ∈ dirty') : Faithful r.1 dirty' resets h := by
  refine hf.perform hp rfl (except_map_eq_ok.2 ⟨r, hg, rfl⟩) hf.owed (fun u _ hu _ => ?_)
    fun u hu => by cases hu
  exact ⟨hd u (Graph.ne_of_contains_drop hg hu), rfl, id, id⟩

/-! ### Requests about views -/

/-- The node whose settings were replaced has the new ones. -/
theorem props_of_setProps {t : Tag} {n n' : Node} {q p' : Props} (hn : g.node? t = some n)
    (hn' : (g.setProps t q).node? t = some n') (hp' : n'.kind = .props p') : p' = q := by
  rw [Graph.setProps, Graph.node?_update, if_pos rfl, hn, Option.map_some, Option.some.injEq] at hn'
  subst hn'
  cases hp'
  rfl

/-- Attaching a node marks it. -/
theorem attachView (hf : Faithful g dirty resets h) {t : Tag} {view : ViewId}
    (hg : g.attachView t view = .ok g') :
    Faithful g' dirty resets (if g.isAttached t then h else .attached t :: h) := by
  have hgr : g.perform (.attachView t view) = .ok g' := hg
  obtain ⟨n, p, hn, hp, hcases⟩ := Graph.attachView_eq_ok hg
  have hatt : g.isAttached t = p.view.isSome := by
    rw [Graph.isAttached, Graph.props_eq_ok.2 ⟨hn, hp⟩]
  rcases hcases with ⟨hv, rfl⟩ | ⟨hv, hg'⟩
  · rwa [hatt, hv, Option.isSome_some, if_pos rfl]
  · rw [hatt, hv, Option.isSome_none, if_neg Bool.false_ne_true]
    refine hf.perform (r := .attachView t view) trivial rfl hgr hf.owed (fun u _ _ hu => ?_)
      fun u hu n' p' hn' hp' => ?_
    · have hne : t ≠ u := fun he => hu (congrArg some he)
      exact ⟨id, by rw [History.lastHanded, if_neg hne], id, id⟩
    · cases hu
      rw [hg', Graph.node?_touch] at hn'
      cases props_of_setProps hn hn' hp'
      refine ⟨rfl, Or.inl ?_⟩
      rw [hg']
      exact Graph.mem_marked_touch.2 (Or.inr rfl)

/-- Detaching a node forgets what was sent for it. -/
theorem detachView (hf : Faithful g dirty resets h) {t : Tag} {view : ViewId}
    (hg : g.detachView t view = .ok g') (hd : ∀ u ≠ t, u ∈ dirty → u ∈ dirty') :
    Faithful g' dirty' resets h := by
  obtain ⟨n, p, hn, hp, -, hg'⟩ := Graph.detachView_eq_ok hg
  refine hf.perform (r := .detachView t view) trivial rfl hg hf.owed (fun u _ _ hu => ?_)
    fun u hu n' p' hn' hp' => ?_
  · have hne : u ≠ t := fun he => hu (congrArg some he.symm)
    exact ⟨hd u hne, rfl, id, id⟩
  · cases hu
    rw [hg'] at hn'
    cases props_of_setProps hn hn' hp'
    exact ⟨rfl, Or.inr (Or.inl rfl)⟩

/-- Restoring defaults forgets what was sent, and is remembered. -/
theorem restoreDefaults (hf : Faithful g dirty resets h) {t : Tag} {r : Graph × Option ViewUpdate}
    (hg : g.restoreDefaults t = .ok r) (hd : ∀ u ≠ t, u ∈ dirty → u ∈ dirty') :
    Faithful r.1 dirty' (resets ++ r.2.toList) (.restored t r.2 :: h) := by
  have hgr : g.perform (.restoreDefaults t) = .ok r.1 := except_map_eq_ok.2 ⟨r, hg, rfl⟩
  obtain ⟨n, p, hn, hp, hg', -⟩ := Graph.restoreDefaults_eq_ok hg
  have howed : (History.owed (.restored t r.2 :: h)).map Prod.snd = resets ++ r.2.toList := by
    rw [History.owed, List.map_append, hf.owed]
    cases r.2 <;> rfl
  refine hf.perform (r := .restoreDefaults t) trivial rfl hgr howed (fun u _ _ hu => ?_)
    fun u hu n' p' hn' hp' => ?_
  · have hne : u ≠ t := fun he => hu (congrArg some he.symm)
    refine ⟨hd u hne, rfl, fun hin => ?_, fun hr => ?_⟩
    · rw [History.owed, List.map_append, List.mem_append] at hin
      refine hin.resolve_right fun hin => hne ?_
      obtain ⟨w, hw, rfl⟩ := List.mem_map.1 hin
      obtain ⟨-, -, rfl⟩ := List.mem_map.1 hw
      rfl
    · rw [History.restoredSince, if_neg (Ne.symm hne)]
      exact hr
  · cases hu
    rw [hg'] at hn'
    cases props_of_setProps hn hn' hp'
    refine ⟨rfl, Or.inr (Or.inr ?_)⟩
    rw [History.restoredSince, if_pos rfl]

/-! ### A propagation -/

/-- A propagation keeps the invariant: it notes the props nodes that it computes, and below the
others nothing changes. -/
theorem propagate (hf : Faithful g dirty resets h) (hd : ∀ t ∈ dirty, t ∈ dirty')
    (hsinks : ∀ t ∈ g.propagate.2.sinks, t ∈ dirty') :
    Faithful g.propagate.1 dirty' resets (h.record (g.propagate.2.recomputed.map .computed)) := by
  have hdes : Graph.SameDesign { g with marked := ∅ } g.propagate.1 := Graph.sameDesign_propagate g
  -- a props node has been one, and has kept what concerns its view
  have hnode : ∀ t n' p', g.propagate.1.node? t = some n' → n'.kind = .props p' →
      ∃ n, g.node? t = some n ∧ n.kind = .props p' := by
    intro t n' p' hn' hp'
    obtain ⟨n, hn, hnd⟩ := hdes.exists_node? hn'
    have hk : n'.kind.plan = n.kind.plan := congrArg Node.kind hnd
    rw [hp'] at hk
    refine ⟨n, hn, ?_⟩
    cases hc : n.kind <;> simp_all [Kind.plan]
  refine ⟨hf.sound.perform (r := .propagate) rfl,
    Graph.CallFree.of_sameDesign (g := { g with marked := ∅ }) hf.callFree hdes,
    by rw [History.owed_computed]; exact hf.owed, fun t n' p' m hn' hp' hm => ?_,
    fun t n' p' hn' hp' hv hw => ?_⟩
  · obtain ⟨n, hn, hp⟩ := hnode t n' p' hn' hp'
    rw [History.lastHanded_computed, History.owed_computed]
    exact hf.sent t n p' m hn hp hm
  · obtain ⟨n, hn, hp⟩ := hnode t n' p' hn' hp'
    by_cases ht : t ∈ g.affected
    · refine Or.inr (Or.inl (hsinks t ?_))
      have hsink : n.isSink = true := by rw [Node.isSink, hp]; rfl
      exact Graph.mem_sinks_evaluateAll (g := { g with marked := ∅ }) ht hn hsink
    · have hb := Graph.sameBelow_propagate hf.sound hf.callFree ht
      rw [History.restoredSince_computed h (by rwa [Graph.recomputed_propagate])]
      rcases hf.shown_of_sameBelow hn hp hv rfl hb hw with hs | hin | hm | hr
      · exact absurd ((Graph.mem_affected_iff hf.sound).2 hs) ht
      · exact Or.inr (Or.inl (hd t hin))
      · exact Or.inr (Or.inr (Or.inl hm))
      · exact Or.inr (Or.inr (Or.inr hr))

/-! ### A batch -/

/-- Handing out the updates that take back earlier ones keeps the invariant: of their nodes
nothing is kept as sent. -/
theorem resetsDone (hf : Faithful g dirty resets h) :
    Faithful g dirty []
      ((h.record (h.owed.map fun w => .handed w.1 w.2)).record [.resetsDone]) := by
  refine ⟨hf.sound, hf.callFree, rfl, fun t n p m hn hp hm => ?_, fun t n p hn hp hv hw => ?_⟩
  · obtain ⟨⟨view, hv, hh⟩, hno⟩ := hf.sent t n p m hn hp hm
    exact ⟨⟨view, hv, (History.lastHanded_handed h hno).trans hh⟩, List.not_mem_nil⟩
  · rcases hf.shown t n p hn hp hv hw with hs | hin | hm | hr
    · exact Or.inl hs
    · exact Or.inr (Or.inl hin)
    · exact Or.inr (Or.inr (Or.inl hm))
    · exact Or.inr (Or.inr (Or.inr ((History.restoredSince_handed h _ t).trans hr)))

/-- Handing out what an attached node is to show, and remembering it, keeps the invariant: its view
has received what the node is worth now, and the node need not be noted any longer. -/
theorem handOut {t : Tag} {ts : List Tag} (hf : Faithful g (t :: ts) [] h) {n : Node} {p : Props}
    {view : ViewId} (hn : g.node? t = some n) (hp : n.kind = .props p) (hv : p.view = some view) :
    Faithful (g.setProps t { p with lastSent := some (g.propsOf p) }) ts []
      (.handed t ⟨view, g.propsOf p⟩ :: h) := by
  let q : Props := { p with lastSent := some (g.propsOf p) }
  have howed : h.owed = [] := List.map_eq_nil_iff.1 hf.owed
  have ha : Graph.Announced g (g.setProps t q) := .setProps hn hp rfl
  have hsame := Graph.sameBelow_setProps hn hp (q := q)
  have hother : ∀ u ≠ t, (g.setProps t q).node? u = g.node? u := fun u hu => by
    rw [Graph.setProps, Graph.node?_update, if_neg hu]
  refine ⟨hf.sound.setProps hn hp q, hf.callFree.of_announced ha, hf.owed,
    fun u n' p' m hn' hp' hm => ?_, fun u n' p' hn' hp' hv' hw => ?_⟩
  · by_cases hu : u = t
    · subst hu
      cases props_of_setProps hn hn' hp'
      cases hm
      refine ⟨⟨view, hv, by rw [History.lastHanded, if_pos rfl]⟩, ?_⟩
      show u ∉ h.owed.map Prod.fst
      rw [howed]
      exact List.not_mem_nil
    · rw [hother u hu] at hn'
      obtain ⟨⟨view', hv', hh⟩, hno⟩ := hf.sent u n' p' m hn' hp' hm
      refine ⟨⟨view', hv', ?_⟩, hno⟩
      rw [History.lastHanded, if_neg (Ne.symm hu)]
      exact hh
  · by_cases hu : u = t
    · subst hu
      cases props_of_setProps hn hn' hp'
      have hnow : (g.setProps u q).propsOf q = g.propsOf p := (hsame u).propsOf hw rfl rfl
      refine Or.inr (Or.inr (Or.inl ⟨g.propsOf p, rfl, ?_⟩))
      rw [hnow]
      exact PropMap.Matches.refl _
    · rw [hother u hu] at hn'
      rcases hf.shown_of_sameBelow hn' hp' hv' rfl (hsame u) hw with hs | hin | hm | hr
      · exact Or.inl hs
      · exact Or.inr (Or.inl ((List.mem_cons.1 hin).resolve_left hu))
      · exact Or.inr (Or.inr (Or.inl hm))
      · exact Or.inr (Or.inr (Or.inr hr))

/-- Taking the update of a node keeps the invariant: it is handed out, or else the view of the node
had received the same before. -/
theorem takeUpdate {t : Tag} {ts : List Tag} (hf : Faithful g (t :: ts) [] h) :
    Faithful (g.takeUpdate t).1 ts []
      (h.record
        (((g.takeUpdate t).2.toList.map fun u => (t, u)).map fun w => .handed w.1 w.2)) := by
  rcases Graph.takeUpdate_cases g t with ⟨he, hkept⟩ | ⟨n, p, view, hn, hp, hv, -, he⟩
  · rw [he]
    refine ⟨hf.sound, hf.callFree, hf.owed, hf.sent, fun u n p hn hp hv hw => ?_⟩
    rcases hf.shown u n p hn hp hv hw with hs | hin | hm
    · exact Or.inl hs
    · rcases List.mem_cons.1 hin with rfl | hin
      · obtain ⟨m, hm, ha⟩ := hkept n p hn hp hv
        exact Or.inr (Or.inr (Or.inl ⟨m, hm, PropMap.matches_of_agrees ha⟩))
      · exact Or.inr (Or.inl hin)
    · exact Or.inr (Or.inr hm)
  · rw [he]
    exact hf.handOut hn hp hv

/-- Handing out the updates of all nodes noted keeps the invariant, and none is left. -/
theorem takeUpdates {ts : List Tag} (hf : Faithful g ts [] h) :
    Faithful (Engine.takeUpdates g ts).1 [] []
      (h.record ((g.handouts ts).map fun w => .handed w.1 w.2)) := by
  induction ts generalizing g h with
  | nil => exact hf
  | cons t ts ih =>
    have hrest := ih hf.takeUpdate
    rw [Graph.handouts, List.map_append, History.record_append]
    exact hrest

end Faithful

end MotionGraph
