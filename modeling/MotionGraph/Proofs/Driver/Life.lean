import MotionGraph.Motion.Timing
import MotionGraph.Proofs.Driver.Recording
import MotionGraph.Proofs.Number.Doubles

/-!
# The life of a driver

A driver that was called in any way has had some runs that are over and perhaps one that is not
(`Driver.Lived`). Each run is one beginning, always from the same value, and the frames behind it; a
run is over with the first value that ends it. Calls keep this (`Lived.after`), so what a driver did
in its whole life is read off: `life_of_new` says how its state moves, how often its animation
begins, from when time counts, and what its steps give.
-/

namespace MotionGraph

namespace Driver

/-! ### Runs -/

/-- What is recorded of one run from a value: it begins, and goes through its frames. -/
def recordOfRun (current : Float) (run : List RecordedFrame) : List AnimationCall :=
  .reset current :: run.map .step

/-- No frame of a run ends it. -/
def OpenRun (run : List RecordedFrame) : Prop := ∀ f ∈ run, f.sample.finished = false

/-- The last frame of a run ends it, and no other does. -/
def EndedRun (run : List RecordedFrame) : Prop :=
  ∃ (earlier : List RecordedFrame) (last : RecordedFrame),
    run = earlier ++ [last] ∧ OpenRun earlier ∧ last.sample.finished = true

/-- When the run began that goes on after some frames: with the last of them that ended a run, or
with the first frame of all. -/
def beganAfter (first : Float) (before : List RecordedFrame) : Float :=
  ((before.filter fun f => f.sample.finished).getLast?.map fun f => f.time.now).getD first

/-- Nothing ends a run that is open. -/
theorem OpenRun.filter_eq_nil {run : List RecordedFrame} (h : OpenRun run) :
    run.filter (fun f => f.sample.finished) = [] := by
  simpa [OpenRun, List.filter_eq_nil_iff] using h

/-- One frame ends a run that is over. -/
theorem EndedRun.countP_eq_one {run : List RecordedFrame} (h : EndedRun run) :
    run.countP (fun f => f.sample.finished) = 1 := by
  obtain ⟨earlier, last, rfl, ho, hl⟩ := h
  simp [List.countP_eq_length_filter, ho.filter_eq_nil, hl]

/-- What is recorded from a frame on: that it was gone through, and that the animation began
again if it ended a run. -/
def asked (current : Float) (f : RecordedFrame) : List AnimationCall :=
  .step f :: if f.sample.finished then [.reset current] else []

/-- From a run that is open, its frames are recorded. -/
theorem OpenRun.flatMap_asked {run : List RecordedFrame} (h : OpenRun run) (current : Float) :
    run.flatMap (asked current) = run.map .step := by
  induction run with
  | nil => rfl
  | cons f run ih =>
    have hf := h f List.mem_cons_self
    rw [List.flatMap_cons, ih fun g hg => h g (List.mem_cons_of_mem f hg), asked, hf]
    rfl

/-- From a run that is over, its frames are recorded and that the animation began again. -/
theorem EndedRun.flatMap_asked {run : List RecordedFrame} (h : EndedRun run) (current : Float) :
    run.flatMap (asked current) = run.map .step ++ [.reset current] := by
  obtain ⟨earlier, last, rfl, ho, hl⟩ := h
  simp [ho.flatMap_asked, asked, hl]

/-- From runs that are over, each is recorded, and that the animation began again. -/
theorem flatMap_asked_flatten {past : List (List RecordedFrame)} (h : ∀ run ∈ past, EndedRun run)
    (current : Float) :
    .reset current :: past.flatten.flatMap (asked current) =
      past.flatMap (recordOfRun current) ++ [.reset current] := by
  induction past with
  | nil => rfl
  | cons run past ih =>
    have rest := ih fun run hm => h run (List.mem_cons_of_mem _ hm)
    rw [List.flatten_cons, List.flatMap_append, (h run List.mem_cons_self).flatMap_asked,
      List.flatMap_cons, List.append_assoc, List.append_assoc, List.singleton_append, rest]
    rfl

/-! ### Times -/

/-- A frame that ends a run lets the next one begin; any other leaves the beginning. -/
theorem beganAfter_concat (first : Float) (before : List RecordedFrame) (f : RecordedFrame) :
    beganAfter first (before ++ [f]) =
      if f.sample.finished then f.time.now else beganAfter first before := by
  cases hf : f.sample.finished <;> simp [beganAfter, List.filter_append, hf]

/-- A frame whose time counts from where the run began may follow frames whose times do. -/
theorem inTime_concat {first : Float} {frames : List RecordedFrame} {f : RecordedFrame}
    (h : ∀ (before : List RecordedFrame) (g) (after : List RecordedFrame),
      frames = before ++ g :: after →
        g.time.elapsed = g.time.now - beganAfter first before ∧ 0.0 ≤ g.time.delta)
    (hf : f.time.elapsed = f.time.now - beganAfter first frames ∧ 0.0 ≤ f.time.delta) :
    ∀ (before : List RecordedFrame) (g) (after : List RecordedFrame),
      frames ++ [f] = before ++ g :: after →
        g.time.elapsed = g.time.now - beganAfter first before ∧ 0.0 ≤ g.time.delta := by
  intro before g after hs
  rcases List.eq_nil_or_concat after with rfl | ⟨rest, x, rfl⟩
  · obtain ⟨rfl, hg⟩ := List.append_inj' hs rfl
    exact List.singleton_inj.1 hg ▸ hf
  · rw [List.concat_eq_append, ← List.cons_append, ← List.append_assoc] at hs
    exact h before g rest (List.append_inj' hs rfl).1

/-! ### A life up to now -/

variable {α κ : Type} {r : Driver (Recorded α) κ} {i : Iterations} {first current : Float}
  {past : List (List RecordedFrame)} {present : List RecordedFrame}

/-- A driver has begun at a time from a value, and has had some runs since: several that are over,
after each of which another one followed, and the present one. -/
structure Lived (r : Driver (Recorded α) κ) (i : Iterations) (first current : Float)
    (past : List (List RecordedFrame)) (present : List RecordedFrame) : Prop where
  record : r.animation.record = (past ++ [present]).flatMap (recordOfRun current)
  allEnded : ∀ run ∈ past, EndedRun run
  again : past = [] ∨ i.continuesAfter (Word.saturate 32 past.length) = true
  stillOpen : r.state ≠ .finished → OpenRun present
  /-- The driver is over with a run after which no other follows. -/
  last : r.state = .finished →
    EndedRun present ∧ i.continuesAfter (Word.saturate 32 (past.length + 1)) = false
  begun : r.state ≠ .pending
  iterations : r.iterations = i
  start : r.start = current
  completed : r.state ≠ .finished → r.completed = Word.saturate 32 past.length
  runStart : r.state ≠ .finished → r.runStart = beganAfter first r.frames
  lastValue : r.lastValue = r.frames.getLast?.map fun f => f.sample.value
  /-- Time counts from where the run began, and does not go back from one frame to the next. -/
  inTime : ∀ (before : List RecordedFrame) (f) (after : List RecordedFrame),
    r.frames = before ++ f :: after →
      f.time.elapsed = f.time.now - beganAfter first before ∧ 0.0 ≤ f.time.delta

namespace Lived

/-- The frames are those of the runs. -/
theorem frames_eq (h : Lived r i first current past present) :
    r.frames = past.flatten ++ present := by
  have ofRun : ∀ run, (recordOfRun current run).filterMap AnimationCall.frame? = run := by
    intro run
    rw [recordOfRun, List.filterMap_cons_none rfl, List.filterMap_map]
    exact List.filterMap_some
  rw [frames, h.record, List.filterMap_flatMap]
  simp [ofRun, List.flatMap_id']

/-- One frame more of the present run. -/
theorem record_concat (h : Lived r i first current past present) (f : RecordedFrame) :
    r.animation.record ++ [.step f] = (past ++ [present ++ [f]]).flatMap (recordOfRun current) := by
  rw [h.record]
  simp [recordOfRun]

/-- How many runs are over after one more. -/
theorem oneMore_eq (h : Lived r i first current past present) (going : r.state ≠ .finished) :
    r.oneMore = Word.saturate 32 (past.length + 1) := by
  rw [oneMore, h.completed going, Word.saturate_succ]

/-- A driver that was stopped has lived as long as before. -/
theorem stop (h : Lived r i first current past present) (active : r.state.isActive = true) :
    Lived r.stop i first current past present := by
  have going : r.state ≠ .finished := fun hf => by simp [hf, DriverState.isActive] at active
  rw [stop_of_isActive active]
  exact
    { record := h.record
      allEnded := h.allEnded
      again := h.again
      stillOpen := fun _ => h.stillOpen going
      last := fun hl => by cases hl
      begun := by simp
      iterations := h.iterations
      start := h.start
      completed := fun _ => h.completed going
      runStart := fun _ => h.runStart going
      lastValue := h.lastValue
      inTime := h.inTime }

variable [Animation α]

/-- A driver that is under way goes through its next frame in time. -/
theorem frameAt_inTime (h : Lived r i first current past present) (going : r.state ≠ .finished)
    (now : Float) :
    (r.frameAt now).time.elapsed = (r.frameAt now).time.now - beganAfter first r.frames ∧
      0.0 ≤ (r.frameAt now).time.delta := by
  rw [← h.runStart going]
  exact ⟨rfl, Double.zero_le_maxNum _⟩

/-- A frame that leaves the run open lengthens it. -/
theorem advance_open (h : Lived r i first current past present) (running : r.state = .running)
    {now : Float} (hs : (r.sampleAt now).finished = false) :
    Lived (r.advance now).1 i first current past (present ++ [r.frameAt now]) := by
  have going : r.state ≠ .finished := running ▸ by decide
  have frames := frames_advance r now
  rw [advance_of_open hs] at frames ⊢
  have hf : (r.frameAt now).sample.finished = false := hs
  exact
    { record := h.record_concat _
      allEnded := h.allEnded
      again := h.again
      stillOpen := fun _ f hm => (List.mem_append.1 hm).elim (h.stillOpen going f)
        fun hm => List.mem_singleton.1 hm ▸ hf
      last := fun hl => absurd hl going
      begun := h.begun
      iterations := h.iterations
      start := h.start
      completed := fun _ => h.completed going
      runStart := fun _ => by
        rw [frames, beganAfter_concat, hf, if_neg Bool.false_ne_true]
        exact h.runStart going
      lastValue := by
        rw [frames, List.getLast?_concat]
        rfl
      inTime := frames ▸ inTime_concat h.inTime (h.frameAt_inTime going now) }

/-- A frame that ends the run lets the next one begin, if another follows. -/
theorem advance_again (h : Lived r i first current past present) (running : r.state = .running)
    {now : Float} (hs : (r.sampleAt now).finished = true)
    (again : r.iterations.continuesAfter r.oneMore = true) :
    Lived (r.advance now).1 i first current (past ++ [present ++ [r.frameAt now]]) [] := by
  have going : r.state ≠ .finished := running ▸ by decide
  have frames := frames_advance r now
  have length : (past ++ [present ++ [r.frameAt now]]).length = past.length + 1 := by simp
  rw [advance_of_again hs again] at frames ⊢
  -- the run joins those that are over, and the next one has no frames yet
  have hf : (r.frameAt now).sample.finished = true := hs
  exact
    { record := by
        rw [List.flatMap_append, ← h.record_concat]
        show r.animation.record ++ [AnimationCall.step (r.frameAt now)] ++
          [AnimationCall.reset r.start] = _
        rw [h.start]
        rfl
      allEnded := fun run hm => (List.mem_append.1 hm).elim (h.allEnded run)
        fun hm => List.mem_singleton.1 hm ▸ ⟨present, r.frameAt now, rfl, h.stillOpen going, hf⟩
      again := .inr (by rw [length, ← h.oneMore_eq going, ← h.iterations, again])
      stillOpen := fun _ f hm => absurd hm List.not_mem_nil
      last := fun hl => absurd hl going
      begun := h.begun
      iterations := h.iterations
      start := h.start
      completed := fun _ => by rw [length, ← h.oneMore_eq going]
      runStart := fun _ => by
        rw [frames, beganAfter_concat, hf, if_pos rfl]
        rfl
      lastValue := by
        rw [frames, List.getLast?_concat]
        rfl
      inTime := frames ▸ inTime_concat h.inTime (h.frameAt_inTime going now) }

/-- A frame that ends the run is the last of all, if no other run follows. -/
theorem advance_last (h : Lived r i first current past present) (running : r.state = .running)
    {now : Float} (hs : (r.sampleAt now).finished = true)
    (last : r.iterations.continuesAfter r.oneMore = false) :
    Lived (r.advance now).1 i first current past (present ++ [r.frameAt now]) := by
  have going : r.state ≠ .finished := running ▸ by decide
  have frames := frames_advance r now
  rw [advance_of_last hs last] at frames ⊢
  exact
    { record := h.record_concat _
      allEnded := h.allEnded
      again := h.again
      stillOpen := fun hne => absurd rfl hne
      last := fun _ => ⟨⟨present, r.frameAt now, rfl, h.stillOpen going, hs⟩, by
        rw [← h.oneMore_eq going, ← h.iterations, last]⟩
      begun := by simp
      iterations := h.iterations
      start := h.start
      completed := fun hne => absurd rfl hne
      runStart := fun hne => absurd rfl hne
      lastValue := by
        rw [frames, List.getLast?_concat]
        rfl
      inTime := frames ▸ inTime_concat h.inTime (h.frameAt_inTime going now) }

/-- A driver that is under way has lived one frame longer after a step. -/
theorem advance (h : Lived r i first current past present) (running : r.state = .running)
    (now : Float) : ∃ past present, Lived (r.advance now).1 i first current past present := by
  obtain ⟨hs, -⟩ | ⟨hs, again, -⟩ | ⟨hs, last, -⟩ := advance_cases r now
  · exact ⟨_, _, h.advance_open running hs⟩
  · exact ⟨_, _, h.advance_again running hs again⟩
  · exact ⟨_, _, h.advance_last running hs last⟩

/-- A call keeps what a driver has lived, or adds to it. -/
theorem after (h : Lived r i first current past present) (c : Call) :
    ∃ past present, Lived (r.after c) i first current past present := by
  cases active : r.state.isActive with
  | false => exact ⟨past, present, (after_of_over active c).symm ▸ h⟩
  | true =>
    cases c with
    | stop => exact ⟨past, present, h.stop active⟩
    | step now x =>
      have running : r.state = .running := by
        cases hr : r.state with
        | pending => exact absurd hr h.begun
        | running => rfl
        | _ => simp [hr, DriverState.isActive] at active
      have ready : r.ready now x = r := if_neg h.begun
      rw [Driver.after, step_of_isActive active, ready]
      exact h.advance running now

/-- Calls keep what a driver has lived, or add to it. -/
theorem afterAll (h : Lived r i first current past present) (calls : List Call) :
    ∃ past present, Lived (r.afterAll calls) i first current past present := by
  induction calls generalizing r past present with
  | nil => exact ⟨past, present, h⟩
  | cons c calls ih =>
    obtain ⟨_, _, next⟩ := h.after c
    exact ih next

end Lived

/-! ### What a life shows -/

namespace Lived

/-- As many frames ended a run as there are runs that are over. -/
theorem countP_frames (h : Lived r i first current past present) :
    r.frames.countP (fun f => f.sample.finished) =
      past.length + if r.state = .finished then 1 else 0 := by
  have before : past.flatten.countP (fun f => f.sample.finished) = past.length := by
    rw [List.countP_flatten, List.map_congr_left fun run hm => (h.allEnded run hm).countP_eq_one]
    simp
  rw [h.frames_eq, List.countP_append, before]
  split
  · next hf => rw [(h.last hf).1.countP_eq_one]
  · next hf => rw [List.countP_eq_length_filter, (h.stillOpen hf).filter_eq_nil, List.length_nil]

/-- A driver that is over by itself has gone through a last frame, which ended a run,
and remembers its value. -/
theorem exists_last_frame (h : Lived r i first current past present) (ended : r.state = .finished) :
    ∃ f ∈ r.frames, f.sample.finished = true ∧ r.lastValue = some f.sample.value := by
  obtain ⟨earlier, last, rfl, -, hlast⟩ := (h.last ended).1
  have frames : r.frames = past.flatten ++ earlier ++ [last] := by
    rw [h.frames_eq, List.append_assoc]
  refine ⟨last, by simp [frames], hlast, ?_⟩
  rw [h.lastValue, frames, List.getLast?_concat]
  rfl

/-- The animation begins once, and again behind every frame that ends a run but the last of all. -/
theorem record_told (h : Lived r i first current past present) :
    r.animation.record ++ (if r.state = .finished then [AnimationCall.reset current] else []) =
      .reset current :: r.frames.flatMap (asked current) := by
  have told : .reset current :: r.frames.flatMap (asked current) =
      past.flatMap (recordOfRun current) ++ .reset current :: present.flatMap (asked current) := by
    rw [h.frames_eq, List.flatMap_append, ← List.cons_append, flatMap_asked_flatten h.allEnded,
      List.append_assoc, List.singleton_append]
  rw [told, h.record, List.flatMap_append, List.flatMap_singleton, List.append_assoc]
  congr 1
  split
  · next hf =>
    rw [(h.last hf).1.flatMap_asked]
    rfl
  · next hf =>
    rw [(h.stillOpen hf).flatMap_asked, List.append_nil]
    rfl

/-- A driver is over when it has had the runs it is to have. -/
theorem finished_iff (h : Lived r i first current past present) {n : Nat} (hi : i = .count n)
    (hn : n < Word.size 32) :
    r.frames.countP (fun f => f.sample.finished) ≤ max n 1 ∧
      (r.state = .finished ↔ r.frames.countP (fun f => f.sample.finished) = max n 1) := by
  have counts : ∀ k, i.continuesAfter (Word.saturate 32 k) = true ↔ k < n := fun k => by
    rw [hi, Iterations.continuesAfter, decide_eq_true_eq, Word.saturate_lt_iff hn]
  have before : past.length = 0 ∨ past.length < n :=
    h.again.imp List.length_eq_zero_iff.2 (counts _).1
  rw [h.countP_frames]
  by_cases hf : r.state = .finished
  · have behind : ¬past.length + 1 < n := fun hlt => by
      rw [← counts, (h.last hf).2] at hlt
      cases hlt
    simp only [hf, if_true, true_iff]
    omega
  · simp only [hf, if_false, false_iff]
    omega

/-- A driver without a number of runs is never over by itself. -/
theorem not_finished (h : Lived r i first current past present) (hi : i = .infinite) :
    r.state ≠ .finished := by
  intro hf
  have last := (h.last hf).2
  rw [hi] at last
  cases last

end Lived

variable [Animation α]

/-! ### From the first call on -/

/-- The first call is no step, or it is one. -/
theorem step_first_or_not (calls : List Call) :
    (∀ now current, calls.head? ≠ some (.step now current)) ∨
      ∃ first current, calls.head? = some (.step first current) := by
  by_cases h : ∃ first current, calls.head? = some (.step first current)
  · exact .inr h
  · exact .inl fun now current hc => h ⟨now, current, hc⟩

/-- How a call moves the state of a driver. -/
inductive Moves : DriverState → Call → DriverState → Prop
  /-- A step takes a driver that is not over on. -/
  | goesOn {s : DriverState} (active : s.isActive = true) (now current : Float) :
      Moves s (.step now current) .running
  /-- A step may also be the last. -/
  | ends {s : DriverState} (active : s.isActive = true) (now current : Float) :
      Moves s (.step now current) .finished
  | stops {s : DriverState} (active : s.isActive = true) : Moves s .stop .stopped
  /-- A driver that is over stays so. -/
  | stays {s : DriverState} (ended : s.isActive = false) (c : Call) : Moves s c s

/-- A driver that is ready is running. -/
theorem state_ready {d : Driver α κ} (active : d.state.isActive = true) (now current : Float) :
    (d.ready now current).state = .running := by
  cases hd : d.state with
  | pending => rw [ready, if_pos hd]; rfl
  | running => rw [ready, if_neg (by simp [hd]), hd]
  | _ => simp [hd, DriverState.isActive] at active

/-- A running driver goes on, or is over. -/
theorem state_advance {d : Driver α κ} (running : d.state = .running) (now : Float) :
    (d.advance now).1.state = .running ∨ (d.advance now).1.state = .finished := by
  obtain ⟨-, ha⟩ | ⟨-, -, ha⟩ | ⟨-, -, ha⟩ := advance_cases d now
  · exact .inl (ha ▸ running)
  · exact .inl (ha ▸ running)
  · exact .inr (ha ▸ rfl)

/-- Every call moves the state as it may. -/
theorem moves_after (d : Driver α κ) (c : Call) : Moves d.state c (d.after c).state := by
  cases active : d.state.isActive with
  | false =>
    rw [after_of_over active]
    exact .stays active c
  | true =>
    cases c with
    | stop =>
      rw [after, stop_of_isActive active]
      exact .stops active
    | step now current =>
      rw [after, step_of_isActive active]
      rcases state_advance (state_ready active now current) now with hs | hs
      · exact hs ▸ .goesOn active now current
      · exact hs ▸ .ends active now current

variable (id : AnimationId) (target : Tag) (animation : α) (i : Iterations) (callback : Option κ)

/-- A driver whose first call is a step has lived from then on. -/
theorem exists_lived_new {first current : Float} {calls : List Call}
    (h : calls.head? = some (.step first current)) :
    ∃ past present, Lived ((new id target animation i callback).recorded.afterAll calls)
      i first current past present := by
  obtain ⟨rest, rfl⟩ := List.head?_eq_some_iff.1 h
  have begun : Lived ((new id target animation i callback).recorded.begin first current)
      i first current [] [] :=
    { record := rfl
      allEnded := fun run hm => absurd hm List.not_mem_nil
      again := .inl rfl
      stillOpen := fun _ f hm => absurd hm List.not_mem_nil
      last := fun hl => by cases hl
      begun := by simp [begin]
      iterations := rfl
      start := rfl
      completed := fun _ => rfl
      runStart := fun _ => rfl
      lastValue := rfl
      inTime := fun before f after hs => absurd (show [] = before ++ f :: after from hs) (by simp) }
  obtain ⟨past, present, once⟩ := begun.advance rfl first
  exact once.afterAll rest

/-- A driver whose first call is no step asks nothing of its animation. -/
theorem afterAll_new_of_no_step {calls : List Call}
    (h : ∀ now current, calls.head? ≠ some (.step now current)) :
    let r := (new id target animation i callback).recorded.afterAll calls
    r.animation.record = [] ∧ r.state ≠ .finished := by
  cases calls with
  | nil => exact ⟨rfl, by simp [afterAll, recorded, new]⟩
  | cons c calls =>
    cases c with
    | step now current => exact absurd rfl (h now current)
    | stop =>
      have stopped : ((new id target animation i callback).recorded.afterAll (.stop :: calls)) =
          { (new id target animation i callback).recorded with state := .stopped } :=
        afterAll_of_over rfl calls
      rw [stopped]
      exact ⟨rfl, by simp⟩

/-- **The life of a driver.** Take a driver of any animation before its first frame and call it
in any way; keep a record of what it asks of its animation, which it does not notice. Then
every further call moves its state as it may (`Moves`). One that is to run `n` times is over
with the `n`-th frame that ends a run, or with the first if `n` is zero; one without a number
of runs is never over by itself.

If the first call was no step, the animation was asked nothing. If it was a step at a time from a
value, the animation began from that value, and again from that value after each frame that ended a
run, except the last of all. The time of every frame counts from the latest of these, and the time
since the frame before is never negative.

A step of a driver that is not over is one frame more, at its time; it gives the value of that
frame, and the driver remembers it. A stop changes nothing but the state. A driver that is over
gives nothing, and no call changes it. -/
theorem life_of_new (calls : List Call) :
    let r := (new id target animation i callback).recorded.afterAll calls
    let ended := r.frames.countP fun f => f.sample.finished
    r.plain = (new id target animation i callback).afterAll calls ∧
      (∀ now current,
        r.plain.step now current = ((r.step now current).1.plain, (r.step now current).2)) ∧
      (∀ c, Moves r.state c (r.after c).state) ∧
      (∀ n, i = .count n → n < Word.size 32 →
        ended ≤ max n 1 ∧ (r.state = .finished ↔ ended = max n 1)) ∧
      (i = .infinite → r.state ≠ .finished) ∧
      ((∀ now current, calls.head? ≠ some (.step now current)) → r.animation.record = []) ∧
      (∀ first current, calls.head? = some (.step first current) →
        r.animation.record ++ (if r.state = .finished then [AnimationCall.reset current] else []) =
            .reset current :: r.frames.flatMap (asked current) ∧
          ∀ (before : List RecordedFrame) (f) (after : List RecordedFrame),
            r.frames = before ++ f :: after →
              f.time.elapsed = f.time.now - beganAfter first before ∧ 0.0 ≤ f.time.delta) ∧
      (r.state.isActive = true → ∀ now current, ∃ f,
        (r.step now current).1.frames = r.frames ++ [f] ∧ f.time.now = now ∧
          (r.step now current).2 = some f.sample.value ∧
          (r.step now current).1.lastValue = some f.sample.value) ∧
      (r.state.isActive = true → r.stop = { r with state := .stopped }) ∧
      (r.state.isActive = false →
        (∀ now current, r.step now current = (r, none)) ∧ ∀ c, r.after c = r) := by
  intro r ended
  have idle : (∀ now current, calls.head? ≠ some (.step now current)) →
      r.animation.record = [] ∧ r.state ≠ .finished :=
    afterAll_new_of_no_step id target animation i callback
  -- a driver that has not begun by its first call never does
  have whole := step_first_or_not calls
  refine ⟨plain_afterAll _ calls, plain_step r, moves_after r, fun n hi hn => ?_, fun hi => ?_,
    fun h => (idle h).1, fun first current hc => ?_, fun active => exists_frame_step active,
    stop_of_isActive, fun h => ⟨step_of_over h, after_of_over h⟩⟩
  · rcases whole with h | ⟨first, current, hc⟩
    · have none : ended = 0 := by simp [ended, frames, (idle h).1]
      rw [none]
      have going := (idle h).2
      refine ⟨Nat.zero_le _, fun hf => absurd hf going, fun hz => ?_⟩
      omega
    · obtain ⟨past, present, hl⟩ := exists_lived_new id target animation i callback hc
      exact hl.finished_iff hi hn
  · rcases whole with h | ⟨first, current, hc⟩
    · exact (idle h).2
    · obtain ⟨past, present, hl⟩ := exists_lived_new id target animation i callback hc
      exact hl.not_finished hi
  · obtain ⟨past, present, hl⟩ := exists_lived_new id target animation i callback hc
    exact ⟨hl.record_told, hl.inTime⟩

/-- A motion that is where it is to be after four milliseconds, twice, beginning at one. -/
def twice : Driver (Recorded Timing) Unit :=
  (new ⟨1⟩ ⟨2⟩ { goal := 10.0, curve := .eased 4.0 .linear, delay := 0.0 } (.count 2) none).recorded

/-- The first run ends late, the second begins from the same value although the node has another one
by then, and the driver is over with it. -/
theorem twice_life :
    let r := twice.afterAll [.step 5.0 1.0, .step 10.0 7.0, .step 12.0 8.0, .step 14.0 9.0, .stop]
    r.state = .finished ∧ r.frames.length = 4 ∧
      r.animation.record ++ [.reset 1.0] = .reset 1.0 :: r.frames.flatMap (asked 1.0) ∧
      r.frames.map (fun f => f.time.elapsed) = [0.0, 5.0, 2.0, 4.0] ∧
      (r.step 16.0 2.0).2 = none := by
  intro r
  obtain ⟨-, -, -, count, -, -, told, -, -, silent⟩ :=
    life_of_new ⟨1⟩ ⟨2⟩ ({ goal := 10.0, curve := .eased 4.0 .linear, delay := 0.0 } : Timing)
      (.count 2) (none : Option Unit)
      [.step 5.0 1.0, .step 10.0 7.0, .step 12.0 8.0, .step 14.0 9.0, .stop]
  have finished : r.state = .finished := (count 2 rfl (by decide)).2.2 (by decide +kernel)
  have record : r.animation.record ++ (if r.state = .finished then [.reset 1.0] else []) =
      .reset 1.0 :: r.frames.flatMap (asked 1.0) := (told 5.0 1.0 rfl).1
  rw [if_pos finished] at record
  have ended : r.state.isActive = false := by
    rw [finished]
    rfl
  exact ⟨finished, by decide +kernel, record, by decide +kernel,
    congrArg Prod.snd ((silent ended).1 16.0 2.0)⟩

end Driver

end MotionGraph
