import MotionGraph.Proofs.Engine.Run
import MotionGraph.Settings.Reader

/-!
# Queued commands are carried out in order

Whatever an engine does but take commands from its queue only adds to it, and what it adds is what
its clients answer to the notices that they are told meanwhile (`Engine.Answered`), each notice in
the light of all those before it (`Host.answers`). So the queue after a call is the queue before it
and what the call sent, less what the call took from the front (`Engine.queue_after`), and over a
whole run the commands sent are those taken, in order, and those that still wait (`Engine.sent_eq`).

A frame takes one command after the other, carried out or refused, until the limit of the settings
is reached or none is left (`Engine.drainUpTo_eq_foldl`, `Engine.queue_drainUpTo_of_lt`). Settings
may have a limit of zero, with which no frame takes any (`Engine.zeroLimit_starves`); with any other
limit every frame makes progress (`Engine.commands_in_order`).
-/

namespace MotionGraph

namespace Host

variable {κ : Type}

/-- What is answered to notices that come one after the other. -/
def answers (host : Host κ) : List (Notice κ) → List (Notice κ) → List (Command κ)
  | _, [] => []
  | heard, n :: ns => host.answer heard n ++ answers host (heard ++ [n]) ns

/-- What is answered to later notices depends on those before, too. -/
theorem answers_append (host : Host κ) (heard ns ns' : List (Notice κ)) :
    host.answers heard (ns ++ ns') = host.answers heard ns ++ host.answers (heard ++ ns) ns' := by
  induction ns generalizing heard with
  | nil => rw [List.nil_append, List.append_nil]; rfl
  | cons n ns ih =>
    rw [List.cons_append, answers, answers, ih, List.append_assoc, List.append_assoc]
    rfl

/-- A host that answers no notice answers nothing to several. -/
theorem answers_eq_nil {host : Host κ} (h : ∀ heard n, host.answer heard n = [])
    (heard ns : List (Notice κ)) : host.answers heard ns = [] := by
  induction ns generalizing heard with
  | nil => rfl
  | cons n ns ih => rw [answers, h, ih, List.nil_append]

end Host

namespace Engine

variable {κ : Type} {e e' e'' : Engine κ}

/-! ### Steps that only add to the queue -/

/-- What an engine is made with has stayed: its settings, the limit that the loop keeps of them,
and what clients answer. -/
structure SameSetup (e e' : Engine κ) : Prop where
  settings : e'.settings = e.settings
  maxDelta : e'.loop.maxDelta = e.loop.maxDelta
  host : e'.host = e.host

namespace SameSetup

/-- An engine that stays as it is. -/
theorem refl (e : Engine κ) : SameSetup e e := ⟨rfl, rfl, rfl⟩

/-- What stays from step to step. -/
theorem trans (h : SameSetup e e') (h' : SameSetup e' e'') : SameSetup e e'' :=
  ⟨h'.settings.trans h.settings, h'.maxDelta.trans h.maxDelta, h'.host.trans h.host⟩

/-- A call for ticks. -/
theorem wake (e : Engine κ) : SameSetup e e.wake := by
  refine ⟨rfl, ?_, rfl⟩
  unfold Engine.wake FrameLoop.start
  split <;> rfl

end SameSetup

/-- The queue has grown by what clients answer to what they were told meanwhile. -/
structure Answered (e e' : Engine κ) : Prop extends SameSetup e e' where
  grown : ∃ told, e'.journal = e.journal ++ told ∧
    e'.queue = e.queue ++ e.host.answers e.journal told

namespace Answered

/-- A step that tells nothing. -/
theorem of_eq (hs : SameSetup e e') (hj : e'.journal = e.journal) (hq : e'.queue = e.queue) :
    Answered e e' :=
  ⟨hs, [], by simp [hj], by simp [hq, Host.answers]⟩

/-- A step that tells nothing and leaves the loop. -/
theorem of_loop_eq (hl : e'.loop = e.loop) (hs : e'.settings = e.settings) (hh : e'.host = e.host)
    (hj : e'.journal = e.journal) (hq : e'.queue = e.queue) : Answered e e' :=
  of_eq ⟨hs, congrArg FrameLoop.maxDelta hl, hh⟩ hj hq

/-- The queue grows from step to step. -/
theorem trans (h : Answered e e') (h' : Answered e' e'') : Answered e e'' := by
  obtain ⟨told, hj, hq⟩ := h.grown
  obtain ⟨told', hj', hq'⟩ := h'.grown
  refine ⟨h.toSameSetup.trans h'.toSameSetup, told ++ told', ?_, ?_⟩
  · rw [hj', hj, List.append_assoc]
  · rw [hq', hq, h.host, hj, Host.answers_append, List.append_assoc]

/-- A call for ticks. -/
theorem wake (e : Engine κ) : Answered e e.wake := of_eq (.wake e) rfl rfl

/-- Commands that are sent together join the queue in their order. -/
theorem sendAll_eq (cs : List (Command κ)) (e : Engine κ) :
    SameSetup e (e.sendAll cs) ∧ (e.sendAll cs).queue = e.queue ++ cs := by
  unfold sendAll
  induction cs generalizing e with
  | nil => exact ⟨.refl e, (List.append_nil _).symm⟩
  | cons c cs ih =>
    obtain ⟨hs, hq⟩ := ih (e.send c)
    have queued : SameSetup e { e with queue := e.queue ++ [c] } := ⟨rfl, rfl, rfl⟩
    exact ⟨(queued.trans (.wake _)).trans hs, hq.trans (by simp [send, Engine.wake])⟩

/-- Clients answer a notice. -/
theorem notify (e : Engine κ) (n : Notice κ) : Answered e (e.notify n) := by
  obtain ⟨hs, hq⟩ := sendAll_eq (e.host.answer e.journal n) { e with journal := e.journal ++ [n] }
  have told : SameSetup e { e with journal := e.journal ++ [n] } := ⟨rfl, rfl, rfl⟩
  have one : e.host.answers e.journal [n] = e.host.answer e.journal n := List.append_nil _
  exact ⟨told.trans hs, [n], journal_sendAll _ _, by rw [one]; exact hq⟩

/-- **No step but taking a command takes any from the queue**, a command that is carried out
included. -/
theorem stepwise : Stepwise (Answered (κ := κ)) where
  trans := trans
  quiet _ _ _ _ _ _ _ := of_loop_eq rfl rfl rfl rfl rfl
  wake := wake
  told e o := notify e (.value o)
  ended e callback report := notify e (.ended callback report)

/-- What a frame does after it has carried out the commands. -/
theorem afterDrain (e : Engine κ) (time : Float) : Answered e.drain.1 (e.onFrame time).1 := by
  rw [onFrame_eq]
  have moved : Answered e.drain.1 (e.drain.1.moved time) := of_eq ⟨rfl, rfl, rfl⟩ rfl rfl
  have flushed : ∀ (e : Engine κ) frame, Answered e (e.flush frame).1 := by
    intro e frame
    have taken : Answered e
        { e with graph := (takeUpdates e.graph e.dirty.toList).1, dirty := ∅, resets := [] } :=
      of_loop_eq rfl rfl rfl rfl rfl
    unfold flush
    dsimp only
    split
    · exact taken
    · exact taken.trans (notify _ _)
  have stopped : ∀ e : Engine κ, Answered e { e with loop := e.loop.stop.1 } := by
    intro e
    refine of_eq ⟨rfl, ?_, rfl⟩ rfl rfl
    unfold FrameLoop.stop
    split <;> rfl
  have settled := moved.trans (stepwise.settle _)
  have rested := fun e cs => (stepwise.deliverAll e cs).trans (stepwise.rest stopped _)
  exact (settled.trans (flushed _ _)).trans (rested _ _)

end Answered

/-! ### Taking commands from the queue -/

/-- The first command that waits is taken and carried out. -/
def takeOne (e : Engine κ) (c : Command κ) : Engine κ :=
  { e with queue := e.queue.tail }.after (.execute c)

/-- The commands that a call takes from the queue, in order. -/
def taken (e : Engine κ) : Call κ → List (Command κ)
  | .drain | .frame _ => (carriedOut e.commandLimit e).map Prod.snd
  | .execute _ | .send _ | .settle => []

/-- The commands that are sent in the course of a call, in order: the one that the call sends, or
what clients answer to what the call tells them. -/
def sent (e : Engine κ) : Call κ → List (Command κ)
  | .send c => [c]
  | c => e.host.answers e.journal ((e.after c).journal.drop e.journal.length)

/-- Carrying out commands that wait is taking them one after the other, those that are refused,
too. -/
theorem drainUpTo_eq_foldl (limit : Nat) (e : Engine κ) :
    (drainUpTo limit e).1 = ((carriedOut limit e).map Prod.snd).foldl takeOne e := by
  induction limit generalizing e with
  | zero => rfl
  | succ limit ih =>
    cases hq : e.queue with
    | nil => rw [drainUpTo, carriedOut, hq]; rfl
    | cons c rest =>
      rw [fst_drainUpTo_cons hq, ih, carriedOut, hq]
      simp only [List.map_cons, List.foldl_cons, takeOne, hq, List.tail_cons]

/-- No more commands are taken than the limit allows. -/
theorem length_carriedOut_le (limit : Nat) (e : Engine κ) :
    (carriedOut limit e).length ≤ limit := by
  induction limit generalizing e with
  | zero => exact Nat.le_refl 0
  | succ limit ih =>
    rw [carriedOut]
    split
    · exact Nat.zero_le _
    · exact Nat.succ_le_succ (ih _)

/-- Fewer commands are taken only if none is left. -/
theorem queue_drainUpTo_of_lt (limit : Nat) (e : Engine κ)
    (h : (carriedOut limit e).length < limit) : (drainUpTo limit e).1.queue = [] := by
  induction limit generalizing e with
  | zero => exact absurd h (Nat.not_lt_zero _)
  | succ limit ih =>
    cases hq : e.queue with
    | nil =>
      rw [drainUpTo, hq]
      exact hq
    | cons c rest =>
      rw [fst_drainUpTo_cons hq]
      rw [carriedOut, hq] at h
      exact ih _ (Nat.lt_of_succ_lt_succ h)

/-- Carrying out the commands that wait takes from the front of the queue, and clients'
answers join its end. -/
theorem queue_drainUpTo (limit : Nat) (e : Engine κ) :
    SameSetup e (drainUpTo limit e).1 ∧
      ∃ told, (drainUpTo limit e).1.journal = e.journal ++ told ∧
        e.queue ++ e.host.answers e.journal told =
          (carriedOut limit e).map Prod.snd ++ (drainUpTo limit e).1.queue := by
  induction limit generalizing e with
  | zero => exact ⟨.refl e, [], by simp [drainUpTo], by simp [drainUpTo, carriedOut, Host.answers]⟩
  | succ limit ih =>
    cases hq : e.queue with
    | nil =>
      rw [drainUpTo, carriedOut, hq]
      exact ⟨.refl e, [], by simp, by simp [hq, Host.answers]⟩
    | cons c rest =>
      have answered := Answered.stepwise.after_execute { e with queue := rest } c
      obtain ⟨told, hj, hgrown⟩ := answered.grown
      obtain ⟨hs, told', hj', hrest⟩ := ih ({ e with queue := rest }.after (.execute c))
      rw [fst_drainUpTo_cons hq, carriedOut, hq]
      have popped : SameSetup e { e with queue := rest } := ⟨rfl, rfl, rfl⟩
      refine ⟨(popped.trans answered.toSameSetup).trans hs, told ++ told', ?_, ?_⟩
      · rw [hj', hj, List.append_assoc]
      · rw [answered.host, hgrown, hj] at hrest
        rw [List.map_cons, List.cons_append, List.cons_append, ← hrest, Host.answers_append,
          List.append_assoc]

/-- What a call sends that is not a single command is what clients answer. -/
theorem sent_eq_answers {call : Call κ} (hc : ∀ c, call ≠ .send c) {told : List (Notice κ)}
    (hj : (e.after call).journal = e.journal ++ told) :
    e.sent call = e.host.answers e.journal told := by
  cases call with
  | send c => exact absurd rfl (hc c)
  | _ => simp only [sent, hj, List.drop_left]

/-- **The queue after a call**: it has what was in it and what the call sent, less what the call
took. -/
theorem queue_after (e : Engine κ) (call : Call κ) :
    SameSetup e (e.after call) ∧
      e.queue ++ e.sent call = e.taken call ++ (e.after call).queue := by
  have added : ∀ c, (∀ d, c ≠ .send d) → e.taken c = [] → Answered e (e.after c) →
      SameSetup e (e.after c) ∧
        e.queue ++ e.sent c = e.taken c ++ (e.after c).queue := by
    intro c hc ht answered
    obtain ⟨told, hj, hq⟩ := answered.grown
    rw [sent_eq_answers hc hj, ht, hq]
    exact ⟨answered.toSameSetup, rfl⟩
  cases call with
  | execute c => exact added _ (fun _ h => by cases h) rfl (Answered.stepwise.after_execute e c)
  | settle => exact added _ (fun _ h => by cases h) rfl (Answered.stepwise.settle e)
  | send c =>
    have queued : SameSetup e { e with queue := e.queue ++ [c] } := ⟨rfl, rfl, rfl⟩
    exact ⟨queued.trans (.wake _), rfl⟩
  | drain =>
    obtain ⟨hs, told, hj, hq⟩ := queue_drainUpTo e.commandLimit e
    have hj : (e.after .drain).journal = e.journal ++ told := hj
    refine ⟨hs, ?_⟩
    rw [sent_eq_answers (fun _ h => by cases h) hj]
    exact hq
  | frame time =>
    obtain ⟨hs, told, hj, hq⟩ := queue_drainUpTo e.commandLimit e
    have answered : Answered (drainUpTo e.commandLimit e).1 (e.after (.frame time)) :=
      .afterDrain e time
    obtain ⟨told', hj', hgrown⟩ := answered.grown
    rw [hj] at hj' hgrown
    rw [List.append_assoc] at hj'
    refine ⟨hs.trans answered.toSameSetup, ?_⟩
    rw [sent_eq_answers (fun _ h => by cases h) hj', hgrown, Host.answers_append, hs.host,
      ← List.append_assoc, hq, List.append_assoc]
    rfl

/-! ### Runs -/

/-- The commands that are sent in the course of several calls, in order. -/
def sentIn : Engine κ → List (Call κ) → List (Command κ)
  | _, [] => []
  | e, c :: calls => e.sent c ++ sentIn (e.after c) calls

/-- The commands that several calls take from the queue, in order. -/
def takenIn : Engine κ → List (Call κ) → List (Command κ)
  | _, [] => []
  | e, c :: calls => e.taken c ++ takenIn (e.after c) calls

/-- **Every command that was sent has been taken once, in the order of sending, or still waits.** -/
theorem sent_eq (calls : List (Call κ)) (e : Engine κ) :
    e.queue ++ e.sentIn calls = e.takenIn calls ++ (calls.foldl after e).queue := by
  induction calls generalizing e with
  | nil => exact List.append_nil _
  | cons c calls ih =>
    have step := (queue_after e c).2
    rw [sentIn, takenIn, List.foldl_cons, ← List.append_assoc, step, List.append_assoc, ih,
      List.append_assoc]

/-- Calls change nothing that an engine is made with. -/
theorem sameSetup_reached (settings : Settings) (host : Host κ)
    (calls : List (Call κ)) : SameSetup (Engine.new settings host) (reached settings host calls) :=
  reached_induction (P := SameSetup (Engine.new settings host)) (.refl _)
    (fun e c h => h.trans (queue_after e c).1) calls

/-- A frame takes a command if one waits, and if it may take any. -/
theorem taken_frame_ne_nil_iff (time : Float) (hq : e.queue ≠ []) :
    e.taken (.frame time) ≠ [] ↔ e.settings.maxCommands ≠ some 0 := by
  have limit : e.commandLimit = 0 ↔ e.settings.maxCommands = some 0 := by
    unfold commandLimit
    cases e.settings.maxCommands <;> simp [Word.size]
  rw [not_iff_not, ← limit, taken, List.map_eq_nil_iff]
  obtain ⟨c, rest, hq⟩ := List.exists_cons_of_ne_nil hq
  cases e.commandLimit with
  | zero => simp [carriedOut]
  | succ limit => simp [carriedOut, hq]

/-- Frames in the course of which nothing is sent empty the queue, if each may take a command. -/
theorem queue_eq_nil_of_frames (hl : e.settings.maxCommands ≠ some 0) (times : List Float)
    (hn : e.queue.length ≤ times.length) (hs : e.sentIn (times.map .frame) = []) :
    ((times.map .frame).foldl after e).queue = [] := by
  induction times generalizing e with
  | nil => exact List.eq_nil_of_length_eq_zero (Nat.le_zero.1 hn)
  | cons time times ih =>
    rw [List.map_cons, sentIn, List.append_eq_nil_iff] at hs
    obtain ⟨setup, hqueue⟩ := queue_after e (.frame time)
    rw [hs.1, List.append_nil] at hqueue
    refine ih (setup.settings ▸ hl) ?_ hs.2
    have hlength := congrArg List.length hqueue
    rw [List.length_append] at hlength
    rw [List.length_cons] at hn
    by_cases hq : e.queue = []
    · rw [hq, List.length_nil] at hlength
      omega
    · have htaken := List.length_pos_of_ne_nil ((taken_frame_ne_nil_iff time hq).2 hl)
      omega

/-- With a limit of zero and clients that answer nothing, frames leave the queue as it is. -/
theorem queue_of_frames_of_zero (hl : e.settings.maxCommands = some 0)
    (hh : ∀ heard n, e.host.answer heard n = []) (times : List Float) :
    e.sentIn (times.map .frame) = [] ∧ ((times.map .frame).foldl after e).queue = e.queue := by
  induction times generalizing e with
  | nil => exact ⟨rfl, rfl⟩
  | cons time times ih =>
    obtain ⟨setup, hqueue⟩ := queue_after e (.frame time)
    have htaken : e.taken (.frame time) = [] := by
      rw [taken, commandLimit, hl]
      rfl
    have hsent : e.sent (.frame time) = [] := Host.answers_eq_nil hh _ _
    rw [htaken, hsent, List.append_nil, List.nil_append] at hqueue
    obtain ⟨hrest, hleft⟩ := ih (setup.settings ▸ hl) (setup.host ▸ hh)
    rw [List.map_cons, sentIn, hsent, List.foldl_cons, hleft, hqueue]
    exact ⟨hrest, rfl⟩

/-- **Queued commands are carried out in order, and frames make progress.** In every run the
commands sent are those taken from the queue, in order, and those that still wait. A frame carries
out what it takes one after the other, refused or not, no more than the limit and less only if none
is left. It takes any, when some wait, exactly if the limit is not zero; and then as many frames as
commands wait empty the queue, if nothing more is sent. -/
theorem commands_in_order (settings : Settings) (host : Host κ)
    (calls : List (Call κ)) :
    let start := Engine.new settings host
    let e := reached settings host calls
    let limit := settings.maxCommands.getD (Word.size 64 - 1)
    start.sentIn calls = start.takenIn calls ++ e.queue ∧
    (∀ time,
      e.drain.1 = (e.taken (.frame time)).foldl takeOne e ∧
      (e.taken (.frame time)).length ≤ limit ∧
      ((e.taken (.frame time)).length < limit → e.drain.1.queue = []) ∧
      (e.queue ≠ [] → (e.taken (.frame time) ≠ [] ↔ settings.maxCommands ≠ some 0))) ∧
    (settings.maxCommands ≠ some 0 → ∀ times : List Float, e.queue.length ≤ times.length →
      e.sentIn (times.map .frame) = [] → ((times.map .frame).foldl after e).queue = []) := by
  intro start e limit
  have hsettings : e.settings = settings := (sameSetup_reached settings host calls).settings
  have hlimit : e.commandLimit = limit := by rw [commandLimit, hsettings]
  refine ⟨sent_eq calls start, fun time => ⟨drainUpTo_eq_foldl _ e, ?_, fun h => ?_, fun hq => ?_⟩,
    fun hl times => queue_eq_nil_of_frames (hsettings ▸ hl) times⟩
  · rw [taken, List.length_map, ← hlimit]
    exact length_carriedOut_le _ e
  · rw [taken, List.length_map, ← hlimit] at h
    exact queue_drainUpTo_of_lt _ e h
  · rw [← hsettings]
    exact taken_frame_ne_nil_iff time hq

/-- Three commands wait, of which the first is refused. -/
def threeSent : List (Call Unit) :=
  [.send (.setValue ⟨1⟩ 2.0), .send (.createNode ⟨1⟩ (.array [.string "value"])),
   .send (.setValue ⟨1⟩ 3.0)]

/-- At two commands a frame, the first frame takes two of them, and the second leaves none. -/
theorem threeSent_in_order :
    let settings : Settings := { maxCommands := some 2 }
    let e : Engine Unit := reached settings .silent threeSent
    let first := e.after (.frame 16.0)
    e.queue.length = 3 ∧ (e.taken (.frame 16.0)).length = 2 ∧
      (e.drain.2.map CommandFailure.command) = ["setValue"] ∧
      first.graph.value? ⟨1⟩ = some 0.0 ∧ first.queue.length = 1 ∧
      (first.after (.frame 32.0)).graph.value? ⟨1⟩ = some 3.0 ∧
      e.sentIn ([16.0, 32.0, 48.0].map .frame) = [] ∧
      (([16.0, 32.0, 48.0].map .frame).foldl after e).queue = [] := by
  obtain ⟨-, -, ends⟩ :=
    commands_in_order (κ := Unit) { maxCommands := some 2 } .silent threeSent
  have hsent : (reached { maxCommands := some 2 } .silent threeSent).sentIn
      ([16.0, 32.0, 48.0].map .frame) = [] := List.isEmpty_iff.1 (by decide +kernel)
  exact ⟨by decide +kernel, by decide +kernel, by decide +kernel, by decide +kernel,
    by decide +kernel, by decide +kernel, hsent, ends (by simp) _ (by decide +kernel) hsent⟩

/-- A limit of zero is accepted, and a command that is sent then waits for good: no frame takes
it. -/
theorem zeroLimit_starves :
    ∃ settings, Settings.parse "(max_commands_per_frame: Some(0))" = .ok settings ∧
      let e : Engine Unit :=
        reached settings .silent [.send (.createNode ⟨1⟩ (.array [.string "value"]))]
      e.queue.length = 1 ∧ e.taken (.frame 16.0) = [] ∧
        ∀ times : List Float, e.sentIn (times.map .frame) = [] ∧
          ((times.map .frame).foldl after e).queue.length = 1 := by
  have hread : ∃ settings, Settings.parse "(max_commands_per_frame: Some(0))" = .ok settings ∧
      settings.maxCommands = some 0 := by
    have h : (Settings.parse "(max_commands_per_frame: Some(0))").toOption.map
        Settings.maxCommands = some (some 0) := by decide +kernel
    obtain ⟨settings, hs, hl⟩ := Option.map_eq_some_iff.1 h
    cases hp : Settings.parse "(max_commands_per_frame: Some(0))" with
    | error cause =>
      rw [hp] at hs
      cases hs
    | ok s =>
      rw [hp] at hs
      cases hs
      exact ⟨settings, rfl, hl⟩
  obtain ⟨settings, hp, hl⟩ := hread
  refine ⟨settings, hp, ?_⟩
  intro e
  have hsettings : e.settings = settings := rfl
  have hstarved := queue_of_frames_of_zero (e := e) (by rw [hsettings, hl]) (fun _ _ => rfl)
  refine ⟨rfl, ?_, fun times => ⟨(hstarved times).1, by rw [(hstarved times).2]; rfl⟩⟩
  rw [taken, commandLimit, hsettings, hl]
  rfl

end Engine

end MotionGraph
