import MotionGraph.Proofs.Engine.Batches

/-!
# Views are never stale

An engine is faithful to a history if its graph, the props nodes it has noted and the updates that
wait are (`Engine.IsFaithful`). Settling keeps this, since it consists of propagations and of writes
(`IsFaithful.settle`), and so do all commands (`IsFaithful.execute`), the commands that wait
(`IsFaithful.drain`) and frames (`IsFaithful.frame`). After a frame nothing is noted any more, so
that every view has received what it is to show unless something is still marked
(`Engine.views_not_stale`). What views have received is what the batches of the journal hold
(`Engine.updates_afterAll`).
-/

namespace MotionGraph

/-- The update of a node that was handed out last is one of those handed out. -/
theorem History.mem_handed_of_lastHanded {h : History} {t : Tag} {u : ViewUpdate}
    (hl : h.lastHanded t = some u) : u ∈ h.handed := by
  induction h with
  | nil => cases hl
  | cons m h ih =>
    cases m with
    | handed u' update =>
      rw [lastHanded] at hl
      split at hl
      · cases hl
        exact List.mem_append_right _ List.mem_cons_self
      · exact List.mem_append_left _ (ih hl)
    | made u' | attached u' =>
      rw [lastHanded] at hl
      split at hl
      · cases hl
      · exact ih hl
    | _ => exact ih hl

namespace Engine

variable {κ : Type} {e e' : Engine κ} {h : History}

/-- The views of an engine have received what the history says. -/
def IsFaithful (e : Engine κ) (h : History) : Prop :=
  Faithful e.content.1 e.content.2.1.toList e.content.2.2 h

namespace IsFaithful

/-- Whether an engine is faithful depends on its content. -/
theorem of_content (hf : e.IsFaithful h) (hc : e'.content = e.content) : e'.IsFaithful h := by
  unfold IsFaithful
  rw [hc]
  exact hf

/-- An engine of which the content is known. -/
theorem of_faithful {c : Graph × OrderedSet Tag × List ViewUpdate}
    (hf : Faithful c.1 c.2.1.toList c.2.2 h) (hc : e.content = c) : e.IsFaithful h := by
  unfold IsFaithful
  rw [hc]
  exact hf

/-! ### Settling -/

/-- Settling once keeps an engine faithful. -/
theorem settleOnce (hf : e.IsFaithful h) :
    e.settleOnce.1.IsFaithful (h.record (e.settleOnce.2.recomputed.map .computed)) := by
  refine of_faithful ?_ (content_settleOnce e)
  have hd : ∀ t, t ∈ e.dirty ∨ t ∈ e.graph.propagate.2.sinks →
      t ∈ e.dirty.insertAll e.graph.propagate.2.sinks.toList := fun t =>
    OrderedSet.mem_insertAll.2
  refine Graph.applyWrites_induction (P := fun g => Faithful g _ _ _)
    (fun _ _ _ _ _ hf hs => Faithful.setBase hf hs) ?_
  exact Faithful.propagate hf (fun t ht => hd t (Or.inl ht)) fun t ht => hd t (Or.inr ht)

/-- Settling keeps an engine faithful; what was computed before is not written down twice. -/
theorem settleUpTo {done : Pass} (hf : e.IsFaithful (h.record (done.recomputed.map .computed)))
    (passes : Nat) :
    (Engine.settleUpTo passes e done).1.IsFaithful
      (h.record ((Engine.settleUpTo passes e done).2.recomputed.map .computed)) := by
  refine settleUpTo_induction
    (P := fun e done => e.IsFaithful (h.record (done.recomputed.map .computed)))
    (fun e done hf => ?_) passes hf
  rw [Pass.append, List.map_append, History.record_append]
  exact hf.settleOnce

/-- Settling keeps an engine faithful. -/
theorem settle (hf : e.IsFaithful h) : e.settle.1.IsFaithful (e.settled h) :=
  have hstart : e.IsFaithful (h.record ((({} : Pass).recomputed).map .computed)) := hf
  hstart.settleUpTo e.settings.maxSettlePasses

/-! ### Commands -/

/-- A command that is not refused keeps an engine faithful. -/
theorem noted (hf : e.IsFaithful h) {c : Command κ} (hp : e.Permits c)
    (hx : e.execute c = .ok e') : e'.IsFaithful (e.noted h c) := by
  have hp := hp (by rw [hx]; rfl)
  obtain ⟨o, hd, rfl⟩ := done_of_execute hx
  refine of_content ?_ (content_closed o)
  have handed : ∀ view event payload,
      IsFaithful { e with graph := (e.router.handle view event payload e.graph).1 } h :=
    fun view event payload =>
      Router.deliver_induction (P := fun g => Faithful g e.dirty.toList e.resets h)
        (fun _ _ _ _ _ hf hs => Faithful.setBase hf hs) _ payload hf
  cases hd with
  | created hg => exact Faithful.create hf hp hg
  | requested hc hg =>
    obtain ⟨simple, permitted⟩ := request?_simple hc e.graph
    cases c with
    | connectToView t view =>
      cases hc
      exact Faithful.attachView hf hg
    | _ => cases hc <;> exact Faithful.request hf permitted simple rfl hg
  | detached hg =>
    exact Faithful.detachView hf hg fun u hu hin => OrderedSet.mem_erase.2 ⟨hin, hu⟩
  | @dropped t r hg =>
    have hp : e.graph.Permits (.drop t [e.router.toHolder]) := hp
    exact Faithful.drop hf hp hg fun u hu hin => OrderedSet.mem_erase.2 ⟨hin, hu⟩
  | restored hr =>
    rw [Engine.noted, hr]
    refine Faithful.restoreDefaults hf hr fun u hu hin => ?_
    split
    · exact OrderedSet.mem_erase.2 ⟨hin, hu⟩
    · exact hin
  | @passed view event payload hw =>
    unfold Engine.noted
    dsimp only
    rw [if_pos hw]
    exact handed view event payload
  | @handed view event payload hw =>
    unfold Engine.noted
    dsimp only
    rw [if_neg (Bool.eq_false_iff.1 hw)]
    exact (handed view event payload).settle
  | _ => exact hf

/-- A command keeps an engine faithful. -/
theorem execute (hf : e.IsFaithful h) {c : Command κ} (hp : e.Permits c) :
    (e.after (.execute c)).IsFaithful (e.executed h c) := by
  unfold executed
  cases hx : e.execute c with
  | ok e' =>
    rw [Engine.after, hx]
    exact hf.noted hp hx
  | error cause =>
    rw [Engine.after, hx]
    exact hf

/-- Carrying out the commands that wait keeps an engine faithful. -/
theorem drainUpTo (hf : e.IsFaithful h) (limit : Nat) (hp : PermitsQueue limit e) :
    (Engine.drainUpTo limit e).1.IsFaithful (drained limit e h) := by
  induction limit generalizing e h with
  | zero => exact hf
  | succ limit ih =>
    cases hq : e.queue with
    | nil =>
      rw [Engine.drainUpTo, drained, hq]
      exact hf
    | cons c rest =>
      rw [PermitsQueue, hq] at hp
      rw [fst_drainUpTo_cons hq, drained, hq]
      exact ih (execute (e := { e with queue := rest }) hf hp.1) hp.2

/-- Carrying out the commands that wait keeps an engine faithful. -/
theorem drain (hf : e.IsFaithful h) (hp : PermitsQueue e.commandLimit e) :
    e.drain.1.IsFaithful (drained e.commandLimit e h) := hf.drainUpTo e.commandLimit hp

/-! ### Frames -/

/-- Moving the drivers keeps an engine faithful. -/
theorem moved (hf : e.IsFaithful h) (time : Float) : (e.moved time).IsFaithful h :=
  DriverSet.write_induction (P := fun g => Faithful g e.dirty.toList e.resets h)
    (fun _ _ _ _ _ hf hs => Faithful.setBase hf hs) hf

/-- Handing all updates to the views keeps an engine faithful. -/
theorem flush (hf : e.IsFaithful h) :
    Faithful (takeUpdates e.graph e.dirty.toList).1 [] [] (e.flushed h) :=
  (Faithful.resetsDone hf).takeUpdates

/-- A frame keeps an engine faithful. -/
theorem frame (hf : e.IsFaithful h) (time : Float) (hp : PermitsQueue e.commandLimit e) :
    (e.onFrame time).1.IsFaithful (e.framed time h) := by
  have hmoved := (hf.drain hp).moved time
  have hflushed := hmoved.settle.flush
  unfold IsFaithful
  rw [content_onFrame]
  exact hflushed

/-! ### Runs -/

/-- Every call keeps an engine faithful. -/
theorem after (hf : e.IsFaithful h) {c : Call κ} (hp : e.PermitsCall c) :
    (e.after c).IsFaithful (e.recorded h c) := by
  cases c with
  | execute c => exact hf.execute hp
  | send c => exact hf
  | settle => exact hf.settle
  | drain => exact hf.drain hp
  | frame time => exact hf.frame time hp

/-- Runs keep engines faithful. -/
theorem afterAll (hf : e.IsFaithful h) {cs : List (Call κ)} (hp : e.PermitsAll cs) :
    (e.afterAll h cs).1.IsFaithful (e.afterAll h cs).2 := by
  induction cs generalizing e h with
  | nil => exact hf
  | cons c cs ih => exact ih (hf.after hp.1) hp.2

end IsFaithful

/-- A run in two parts. -/
theorem afterAll_append (e : Engine κ) (h : History) (cs cs' : List (Call κ)) :
    e.afterAll h (cs ++ cs') = (e.afterAll h cs).1.afterAll (e.afterAll h cs).2 cs' := by
  induction cs generalizing e h with
  | nil => rfl
  | cons c cs ih => exact ih _ _

/-- After a frame no node is noted for the next batch. -/
theorem dirty_onFrame (e : Engine κ) (time : Float) : (e.onFrame time).1.dirty = ∅ :=
  congrArg (fun c => c.2.1) (content_onFrame e time)

/-- **Views are never stale**: after a frame in a permitted run something is still marked, or else
of every props node that is attached to a view and reads what it shows by edges, the update handed
out last since it was attached went to that view and holds the values that the node's properties
have now, or its defaults were restored and it was not computed since. What was handed out, first to
last, is what the batches hold that the views were told of. -/
theorem views_not_stale (settings : Settings) (host : Host κ)
    {calls : List (Call κ)} {time : Float}
    (hp : (Engine.new settings host).PermitsAll (calls ++ [.frame time]))
    {e : Engine κ} {h : History}
    (hrun : (Engine.new settings host).afterAll [] (calls ++ [.frame time]) = (e, h)) :
    e.batches.flatMap FrameBatch.updates = h.handed ∧
      (e.graph.isPending = true ∨
        ∀ t n p view, e.graph.node? t = some n → n.kind = .props p → p.view = some view →
          e.graph.PropsWired t p.sources →
            (∃ sent now, h.lastHanded t = some ⟨view, sent⟩ ∧ e.graph.propsMap t = .ok now ∧
              sent.Matches now) ∨
            h.restoredSince t = true) := by
  have hbatches : e.batches.flatMap FrameBatch.updates = h.handed := by
    have hall := updates_afterAll settings host (calls ++ [.frame time])
    rwa [hrun] at hall
  have hf : Faithful e.graph e.dirty.toList e.resets h := by
    have hall := IsFaithful.afterAll (e := Engine.new settings host) Faithful.empty hp
    rwa [hrun] at hall
  have hdirty : e.dirty = ∅ := by
    rw [afterAll_append, afterAll, afterAll, after, Prod.mk.injEq] at hrun
    rw [← hrun.1]
    exact dirty_onFrame _ time
  refine ⟨hbatches, ?_⟩
  by_cases hpending : e.graph.isPending = true
  · exact Or.inl hpending
  refine Or.inr fun t n p view hn hk hv hw => ?_
  rcases hf.shown t n p hn hk (by rw [hv]; rfl) hw with ⟨m, hm, -⟩ | hin | ⟨m, hm, hmm⟩ | hr
  · refine absurd ?_ hpending
    rw [Graph.isPending, Bool.not_eq_true', OrderedSet.isEmpty, List.isEmpty_eq_false_iff]
    exact List.ne_nil_of_mem hm
  · rw [hdirty] at hin
    cases hin
  · obtain ⟨⟨view', hv', hh⟩, -⟩ := hf.sent t n p m hn hk hm
    obtain rfl : view' = view := Option.some.inj (hv'.symm.trans hv)
    refine Or.inl ⟨m, e.graph.propsOf p, hh, ?_, hmm⟩
    rw [Graph.propsMap, Graph.props_eq_ok.2 ⟨hn, hk⟩]
    rfl
  · exact Or.inr hr

/-- A node with one property is attached to a view by a command that waits for a frame. -/
def opacityRun : List (Call Unit) :=
  [.execute (.createNode ⟨1⟩ (.array [.string "value", .number (.real 1.0)])),
   .execute (.createNode ⟨2⟩ (.array [.string "props", .object [("opacity", .ofNat 1)]])),
   .execute (.connect ⟨2⟩ ⟨1⟩), .send (.connectToView ⟨2⟩ ⟨7⟩)]

/-- The engine after that run and a frame, and its history. -/
def opacityEnd : Engine Unit × History :=
  (Engine.new {} .silent).afterAll [] (opacityRun ++ [.frame 16.0])

/-- The view has received the property, with the only update that the batches hold. -/
theorem opacityRun_not_stale :
    (Engine.new {} .silent).PermitsAll (opacityRun ++ [.frame 16.0]) ∧
      ∃ sent now, opacityEnd.1.batches.flatMap FrameBatch.updates = [⟨⟨7⟩, sent⟩] ∧
        opacityEnd.2.lastHanded ⟨2⟩ = some ⟨⟨7⟩, sent⟩ ∧
        opacityEnd.1.graph.propsMap ⟨2⟩ = .ok now ∧ sent.Matches now := by
  have hp : (Engine.new {} .silent).PermitsAll (opacityRun ++ [.frame 16.0]) := by
    decide +kernel
  have hpending : opacityEnd.1.graph.isPending = false := by decide +kernel
  have hrestored : opacityEnd.2.restoredSince ⟨2⟩ = false := by decide +kernel
  have hread : opacityEnd.1.graph.edges.Reads ⟨2⟩ ⟨1⟩ := by decide +kernel
  have hone : (opacityEnd.1.graph.node? ⟨1⟩).map Node.kind = some .value := by
    with_unfolding_all rfl
  have htwo : ∃ p, (opacityEnd.1.graph.node? ⟨2⟩).map Node.kind = some (.props p) ∧
      p.view = some ⟨7⟩ ∧ p.sources.values = [⟨1⟩] := ⟨_, by with_unfolding_all rfl, rfl, rfl⟩
  obtain ⟨m, hm, hmk⟩ := Option.map_eq_some_iff.1 hone
  obtain ⟨p, hn, hv, hsrc⟩ := htwo
  obtain ⟨n, hn, hk⟩ := Option.map_eq_some_iff.1 hn
  -- the one source is a value, which refers to nothing
  have hshown : ∀ u, opacityEnd.1.graph.Shows p.sources u → u = ⟨1⟩ := by
    rintro u (hu | ⟨s, hs, n', entries, hn', hk', -⟩)
    · rwa [hsrc, List.mem_singleton] at hu
    · rw [hsrc, List.mem_singleton] at hs
      rw [hs, hm, Option.some.injEq] at hn'
      rw [← hn', hmk] at hk'
      cases hk'
  have hplain : ∀ u, opacityEnd.1.graph.Shows p.sources u →
      ∀ n', opacityEnd.1.graph.node? u = some n' → n'.kind = .value := by
    intro u hu n' hn'
    rw [hshown u hu, hm, Option.some.injEq] at hn'
    rw [← hn', hmk]
  have hw : opacityEnd.1.graph.PropsWired ⟨2⟩ p.sources := by
    refine ⟨fun s hs => ?_, fun s hs n' entries hn' hk' => ?_, fun u hu n' entries hn' hk' => ?_⟩
    · rw [hshown s (Or.inl hs)]
      exact hread
    · rw [hplain s (Or.inl hs) n' hn'] at hk'
      cases hk'
    · rw [hplain u hu n' hn'] at hk'
      cases hk'
  have hone : opacityEnd.2.handed.length = 1 := by decide +kernel
  obtain ⟨hbatches, h | h⟩ :=
    views_not_stale (e := opacityEnd.1) (h := opacityEnd.2) {} .silent hp rfl
  · exact absurd (h.symm.trans hpending) Bool.true_eq_false.mp
  obtain ⟨sent, now, hlast, hnow, hsame⟩ :=
    (h ⟨2⟩ n p ⟨7⟩ hn hk hv hw).resolve_right (Bool.eq_false_iff.1 hrestored)
  obtain ⟨u, hu⟩ := List.length_eq_one_iff.1 hone
  have hmem := History.mem_handed_of_lastHanded hlast
  rw [hu, List.mem_singleton] at hmem
  refine ⟨hp, sent, now, ?_, hlast, hnow, hsame⟩
  rw [hmem, ← hu]
  exact hbatches

end Engine

end MotionGraph
