import MotionGraph.Proofs.Engine.Remembered

/-!
# What views are handed in a frame

A frame hands the views one batch at most (`Engine.batches_onFrame`), and no other call hands them
any (`Engine.batches_after`). So what the history of a run says was handed out is what the batches
hold (`Engine.updates_afterAll`).

The batch holds the updates that wait to take back earlier ones, one for each restoring of defaults
since the last batch, and then one at most for every node noted (`Engine.frame_hands_one_batch`). So
a node has at most one entry more than updates wait for it. It need not have one at most: defaults
that are restored twice are taken back twice (`Engine.restoredTwice_handed`).
-/

namespace MotionGraph

namespace History

/-- The updates that were handed out, first to last. -/
def handed : History → List ViewUpdate
  | [] => []
  | .handed _ update :: h => handed h ++ [update]
  | _ :: h => handed h

/-- Computing nodes hands out nothing. -/
@[simp] theorem handed_computed (h : History) (ts : List Tag) :
    (h.record (ts.map .computed)).handed = h.handed := by
  induction ts generalizing h with
  | nil => rfl
  | cons t ts ih => rw [List.map_cons, record_cons, ih]; rfl

/-- Updates are handed out in order. -/
@[simp] theorem handed_handedAll (h : History) (ws : List (Tag × ViewUpdate)) :
    (h.record (ws.map fun w => .handed w.1 w.2)).handed = h.handed ++ ws.map Prod.snd := by
  induction ws generalizing h with
  | nil => exact (List.append_nil _).symm
  | cons w ws ih =>
    rw [List.map_cons, record_cons, ih, handed, List.append_assoc]
    rfl

end History

/-- The batch that a notice hands to the views. -/
def Notice.batch? {κ : Type} : Notice κ → Option FrameBatch
  | .batch b => some b
  | .ended _ _ => none
  | .value _ => none

namespace Graph

/-- Only the update of the node that is named is taken. -/
theorem mem_of_mem_handouts {g : Graph} {ts : List Tag} {w : Tag × ViewUpdate}
    (hw : w ∈ g.handouts ts) : w.1 ∈ ts := by
  induction ts generalizing g with
  | nil => exact absurd hw List.not_mem_nil
  | cons t ts ih =>
    rcases List.mem_append.1 hw with hw | hw
    · obtain ⟨update, -, rfl⟩ := List.mem_map.1 hw
      exact List.mem_cons_self
    · exact List.mem_cons_of_mem _ (ih hw)

/-- Of different nodes no two updates are of one node. -/
theorem nodup_handouts (g : Graph) {ts : List Tag} (hd : ts.Nodup) :
    ((g.handouts ts).map Prod.fst).Nodup := by
  induction ts generalizing g with
  | nil => exact List.nodup_nil
  | cons t ts ih =>
    rw [List.nodup_cons] at hd
    rw [handouts, List.map_append, List.nodup_append]
    refine ⟨?_, ih _ hd.2, ?_⟩
    · cases (g.takeUpdate t).2 <;> simp
    · rintro u hu v hv rfl
      obtain ⟨w, hw, rfl⟩ := List.mem_map.1 hu
      obtain ⟨update, -, rfl⟩ := List.mem_map.1 hw
      obtain ⟨w', hw', he⟩ := List.mem_map.1 hv
      have ht := mem_of_mem_handouts hw'
      rw [he] at ht
      exact hd.1 ht

end Graph

namespace Engine

variable {κ : Type} {e e' : Engine κ}

/-- The batches that the views were handed, first to last. -/
def batches (e : Engine κ) : List FrameBatch := e.journal.filterMap Notice.batch?

/-! ### What hands out no batch -/

/-- Telling clients something hands out what is told. -/
theorem batches_notify (e : Engine κ) (n : Notice κ) :
    (e.notify n).batches = e.batches ++ n.batch?.toList := by
  rw [batches, notify, journal_sendAll, List.filterMap_append, batches]
  cases hn : n.batch? <;> simp [hn]

/-- No batch is handed out whatever is told else, and whatever changes that is not told. -/
theorem batches_stepwise : Stepwise fun e e' : Engine κ => e'.batches = e.batches where
  trans h h' := h'.trans h
  quiet _ _ _ _ _ _ _ := rfl
  wake _ := rfl
  told e o := (batches_notify e (.value o)).trans (List.append_nil _)
  ended e callback report :=
    (batches_notify e (.ended callback report)).trans (List.append_nil _)

/-- Declining ticks hands out no batch. -/
theorem batches_rest (e : Engine κ) : e.rest.batches = e.batches :=
  batches_stepwise.rest (fun _ => rfl) e

/-- Carrying out the commands that wait hands out no batch. -/
theorem batches_drain (e : Engine κ) : e.drain.1.batches = e.batches :=
  drainUpTo_induction (P := fun e' => e'.batches = e.batches)
    (fun e' c rest h _ => (batches_stepwise.after_execute { e' with queue := rest } c).trans h)
    _ rfl

/-- No call but a frame hands out a batch. -/
theorem batches_after (e : Engine κ) {c : Call κ} (hc : ∀ time, c ≠ .frame time) :
    (e.after c).batches = e.batches := by
  cases c with
  | execute c => exact batches_stepwise.after_execute e c
  | send c => rfl
  | settle => exact batches_stepwise.settle e
  | drain => exact batches_drain e
  | frame time => exact absurd rfl (hc time)

/-! ### Frames -/

/-- The updates that a frame hands out, each with its node. -/
def entries (e : Engine κ) (h : History) (time : Float) : List (Tag × ViewUpdate) :=
  let settled := (e.drain.1.moved time).settle.1
  (drained e.commandLimit e h).owed ++ settled.graph.handouts settled.dirty.toList

/-- What a frame is to hand out, if nodes remember what their views were given: all that waits, and
the updates of the nodes noted, in one batch. -/
theorem batches_flush {h : History} (hm : e.Recalls h) (frame : Nat) :
    (e.flush frame).1.batches = e.batches ++
      if (h.owed ++ e.graph.handouts e.dirty.toList).isEmpty then []
      else [⟨frame, (h.owed ++ e.graph.handouts e.dirty.toList).map Prod.snd⟩] := by
  split
  · next hempty =>
    obtain ⟨howed, hhanded⟩ := List.append_eq_nil_iff.1 (List.isEmpty_iff.1 hempty)
    have hresets : e.resets = [] := by rw [← hm.owed, howed, List.map_nil]
    have htaken : (takeUpdates e.graph e.dirty.toList).2 = [] := by
      rw [← map_snd_handouts, hhanded, List.map_nil]
    simp only [flush, hresets, htaken, List.append_nil, List.isEmpty_nil, if_true]
    rfl
  · next hne =>
    have hjournal := journal_flush e hm.owed frame (mt List.isEmpty_iff.2 hne)
    rw [batches, hjournal, List.filterMap_append]
    rfl

/-- A frame hands out its updates in one batch, or none if there are none. -/
theorem batches_onFrame {h : History} (hm : e.Recalls h) (time : Float) :
    (e.onFrame time).1.batches = e.batches ++
      if (e.entries h time).isEmpty then []
      else [⟨(e.drain.1.loop.tick time).2.frame, (e.entries h time).map Prod.snd⟩] := by
  have hflush := batches_flush (hm.settled_moved time) (e.drain.1.loop.tick time).2.frame
  have howed : ((e.drain.1.moved time).settled (drained e.commandLimit e h)).owed =
      (drained e.commandLimit e h).owed := History.owed_computed _ _
  have hbefore : (e.drain.1.moved time).settle.1.batches = e.batches := by
    have hmoved : (e.drain.1.moved time).batches = e.drain.1.batches := rfl
    rw [batches_stepwise.settle, hmoved, batches_drain]
  rw [howed, hbefore] at hflush
  rw [onFrame_eq, batches_rest, batches_stepwise.deliverAll]
  exact hflush

/-- **A frame hands the views one batch at most**, and no other call hands them any. The batch holds
the updates that wait to take back earlier ones, each with the node whose defaults were restored,
and then the updates of the nodes that were computed, one for each node at most: a node has at most
one entry more than updates wait for it. -/
theorem frame_hands_one_batch (settings : Settings) (host : Host κ)
    (calls : List (Call κ)) (time : Float) :
    let s := (Engine.new settings host).afterAll [] calls
    let settled := (s.1.drain.1.moved time).settle.1
    let owed := (drained s.1.commandLimit s.1 s.2).owed
    let entries := owed ++ settled.graph.handouts settled.dirty.toList
    (s.1.after (.frame time)).batches = s.1.batches ++
        (if entries.isEmpty then []
          else [⟨(s.1.drain.1.loop.tick time).2.frame, entries.map Prod.snd⟩]) ∧
      (∀ t, (entries.map Prod.fst).count t ≤ (owed.map Prod.fst).count t + 1) ∧
      ∀ c, (∀ time, c ≠ .frame time) → (s.1.after c).batches = s.1.batches := by
  intro s settled owed entries
  have hm : s.1.Recalls s.2 := recalls_afterAll settings host calls
  refine ⟨batches_onFrame hm time, fun t => ?_, fun c hc => batches_after s.1 hc⟩
  have hone := List.nodup_iff_count_le_one.1 (settled.graph.nodup_handouts settled.dirty.nodup) t
  rw [List.map_append, List.count_append]
  exact Nat.add_le_add_left hone _

/-! ### Histories and batches -/

/-- A command hands out nothing. -/
theorem handed_executed (e : Engine κ) (h : History) (c : Command κ) :
    (e.executed h c).handed = h.handed := by
  unfold executed
  split
  · cases c with
    | connectToView t view =>
      rw [noted]
      split <;> rfl
    | restoreDefaultValues t =>
      rw [noted]
      split <;> rfl
    | handleEvent view event payload =>
      unfold noted
      dsimp only
      split
      · rfl
      · exact History.handed_computed h _
    | _ => rfl
  · rfl

/-- Carrying out the commands that wait hands out nothing. -/
theorem handed_drained (limit : Nat) (e : Engine κ) (h : History) :
    (drained limit e h).handed = h.handed := by
  induction limit generalizing e h with
  | zero => rfl
  | succ limit ih =>
    rw [drained]
    split
    · rfl
    · exact (ih _ _).trans (handed_executed _ _ _)

/-- A batch hands out what waits, and then the updates of the nodes noted. -/
theorem handed_flushed (e : Engine κ) (h : History) :
    (e.flushed h).handed =
      h.handed ++ (h.owed ++ e.graph.handouts e.dirty.toList).map Prod.snd := by
  have done : ∀ h : History, (h.record [.resetsDone]).handed = h.handed := fun _ => rfl
  rw [flushed, History.handed_handedAll, done, History.handed_handedAll, List.append_assoc,
    List.map_append]

/-- A frame hands out its updates in order. -/
theorem handed_framed (e : Engine κ) (time : Float) (h : History) :
    (e.framed time h).handed = h.handed ++ (e.entries h time).map Prod.snd := by
  let moved := e.drain.1.moved time
  let before := drained e.commandLimit e h
  have computed : (moved.settled before).handed = h.handed :=
    (History.handed_computed _ _).trans (handed_drained _ _ _)
  have owed : (moved.settled before).owed = before.owed := History.owed_computed _ _
  show (moved.settle.1.flushed (moved.settled before)).handed = _
  rw [handed_flushed, computed, owed]
  rfl

/-- If the batches hold what was handed out, they do so after a further call. -/
theorem updates_after {h : History} (hm : e.Recalls h)
    (hu : e.batches.flatMap FrameBatch.updates = h.handed) (c : Call κ) :
    (e.after c).batches.flatMap FrameBatch.updates = (e.recorded h c).handed := by
  have quiet : (∀ time, c ≠ .frame time) → (e.recorded h c).handed = h.handed →
      (e.after c).batches.flatMap FrameBatch.updates = (e.recorded h c).handed := by
    intro hc hr
    rw [batches_after e hc, hu, hr]
  cases c with
  | execute c => exact quiet (fun _ hc => by cases hc) (handed_executed e h c)
  | send c => exact quiet (fun _ hc => by cases hc) rfl
  | settle => exact quiet (fun _ hc => by cases hc) (History.handed_computed h _)
  | drain => exact quiet (fun _ hc => by cases hc) (handed_drained _ e h)
  | frame time =>
    rw [recorded, handed_framed, after, batches_onFrame hm, List.flatMap_append, hu]
    split
    · next hnone => rw [List.isEmpty_iff.1 hnone, List.flatMap_nil, List.map_nil]
    · rw [List.flatMap_singleton]

/-- **What the history of a run says was handed to views is what the batches of the journal hold**,
update by update and in order. -/
theorem updates_afterAll (settings : Settings) (host : Host κ) (calls : List (Call κ)) :
    ((Engine.new settings host).afterAll [] calls).1.batches.flatMap FrameBatch.updates =
      ((Engine.new settings host).afterAll [] calls).2.handed := by
  have new : (Engine.new settings host).Recalls [] ∧
      (Engine.new settings host).batches.flatMap FrameBatch.updates = History.handed [] :=
    ⟨recalls_afterAll settings host [], rfl⟩
  generalize Engine.new settings host = e at new ⊢
  generalize ([] : History) = h at new ⊢
  induction calls generalizing e h with
  | nil => exact new.2
  | cons c calls ih => exact ih _ _ ⟨new.1.after c, updates_after new.1 new.2 c⟩

/-! ### Defaults that are restored twice -/

/-- The defaults of a node that shows a value are restored twice after a frame. -/
def restoredTwice : List (Call Unit) :=
  [.execute (.createNode ⟨1⟩ (.array [.string "value"])),
   .execute (.createNode ⟨2⟩ (.array [.string "props", .object [("opacity", .ofNat 1)]])),
   .execute (.connect ⟨2⟩ ⟨1⟩), .execute (.connectToView ⟨2⟩ ⟨7⟩), .frame 16.0,
   .execute (.restoreDefaultValues ⟨2⟩), .execute (.restoreDefaultValues ⟨2⟩)]

/-- Two updates wait for the node, so that a frame hands out three of it at most; carrying out
commands hands out none. -/
theorem restoredTwice_bounded :
    let s := (Engine.new {} .silent).afterAll [] restoredTwice
    let settled := (s.1.drain.1.moved 32.0).settle.1
    let owed := (drained s.1.commandLimit s.1 s.2).owed
    owed.map Prod.fst = [⟨2⟩, ⟨2⟩] ∧
      ((owed ++ settled.graph.handouts settled.dirty.toList).map Prod.fst).count ⟨2⟩ ≤ 3 ∧
      (s.1.after .drain).batches = s.1.batches := by
  intro s settled owed
  have howed : owed.map Prod.fst = [⟨2⟩, ⟨2⟩] := by decide +kernel
  obtain ⟨-, hcount, hother⟩ := frame_hands_one_batch {} .silent restoredTwice 32.0
  have htwo := hcount ⟨2⟩
  rw [show (drained s.1.commandLimit s.1 s.2).owed.map Prod.fst = _ from howed] at htwo
  exact ⟨howed, htwo, hother .drain nofun⟩

/-- The next batch holds two updates for the one view, both of the one node. -/
theorem restoredTwice_handed :
    let s := (Engine.new {} .silent).afterAll [] (restoredTwice ++ [.frame 32.0])
    s.1.batches.map (fun b => b.updates.map fun u => (u.view, u.props.keys)) =
        [[(⟨7⟩, ["opacity"])], [(⟨7⟩, ["opacity"]), (⟨7⟩, ["opacity"])]] ∧
      s.1.graph.nodes.keys.filter s.1.graph.isAttached = [⟨2⟩] := by
  decide +kernel

end Engine

end MotionGraph
