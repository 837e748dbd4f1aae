import MotionGraph.Proofs.Driver.Ledger

/-!
# Drivers that keep a record

An animation can be kept together with a record of all it was asked and gave (`Recorded`): from
which values it began, and through which frames it went. The driver of such an animation does what
the driver of the bare animation does (`Driver.plain_afterAll`), so that the record shows how any
driver treats any animation.

What a call makes of a driver is said here once. A driver that is over is left as it is
(`Driver.after_of_over`). Any other is got ready for a frame and goes through it
(`Driver.step_of_isActive`): the frame leaves the run open, is followed by another run, or is the
last of all (`Driver.advance_cases`).
-/

namespace MotionGraph

/-! ### Records -/

/-- A frame that an animation went through, with the value that it gave. -/
structure RecordedFrame where
  time : FrameTime
  sample : Sample

/-- What an animation was asked. -/
inductive AnimationCall where
  /-- To begin from a value. -/
  | reset (start : Float)
  /-- To go on to a frame. -/
  | step (frame : RecordedFrame)

/-- The frame that an animation went on to, if it was asked for one. -/
def AnimationCall.frame? : AnimationCall → Option RecordedFrame
  | .reset _ => none
  | .step f => some f

/-- An animation with the record of what it was asked, oldest first. -/
structure Recorded (α : Type) where
  animation : α
  record : List AnimationCall := []

instance {α : Type} [Animation α] : Animation (Recorded α) where
  reset m start := ⟨Animation.reset m.animation start, m.record ++ [.reset start]⟩
  step m time :=
    let (animation, sample) := Animation.step m.animation time
    (⟨animation, m.record ++ [.step ⟨time, sample⟩]⟩, sample)

namespace Driver

variable {α κ : Type}

/-! ### Calls -/

/-- A driver before its first frame. -/
def new (id : AnimationId) (target : Tag) (animation : α) (iterations : Iterations)
    (callback : Option κ) : Driver α κ := { id, target, animation, iterations, callback }

/-- What is asked of a driver. -/
inductive Call where
  /-- To go on to a frame at a time, in which the node has a base value. -/
  | step (now current : Float)
  | stop

variable [Animation α]

/-- The driver after a call. -/
def after (d : Driver α κ) : Call → Driver α κ
  | .step now current => (d.step now current).1
  | .stop => d.stop

/-- The driver after several calls. -/
def afterAll (d : Driver α κ) (calls : List Call) : Driver α κ := calls.foldl after d

/-! ### Going through a frame -/

variable {d : Driver α κ}

/-- What the animation of a driver gives at a time. -/
def sampleAt (d : Driver α κ) (now : Float) : Sample :=
  (Animation.step d.animation (d.frameTime now)).2

/-- A driver as its next frame finds it: it begins if it has not begun. -/
def ready (d : Driver α κ) (now current : Float) : Driver α κ :=
  if d.state = .pending then d.begin now current else d

/-- A driver behind a frame, whatever follows from the end of a run. -/
def through (d : Driver α κ) (now : Float) : Driver α κ :=
  { d with
    animation := (Animation.step d.animation (d.frameTime now)).1
    lastStep := now
    lastValue := some (d.sampleAt now).value }

/-- How many runs are over after one more. -/
def oneMore (d : Driver α κ) : Nat := Word.saturate 32 (d.completed + 1)

/-- A driver that is not over goes through a frame and gives its value. -/
theorem step_of_isActive (active : d.state.isActive = true) (now current : Float) :
    d.step now current =
      (((d.ready now current).advance now).1, some ((d.ready now current).sampleAt now).value) := by
  cases hd : d.state with
  | pending => simp only [step, ready, hd, if_true]; rfl
  | running => simp only [step, ready, hd, reduceCtorEq, if_false]; rfl
  | finished =>
    rw [hd] at active
    cases active
  | stopped =>
    rw [hd] at active
    cases active

/-- A frame may leave the run open. -/
theorem advance_of_open {now : Float} (h : (d.sampleAt now).finished = false) :
    (d.advance now).1 = d.through now := by
  have h : (Animation.step d.animation (d.frameTime now)).2.finished = false := h
  simp only [advance, h, Bool.false_eq_true, if_false]
  rfl

/-- A frame that ends a run may be followed by another run. -/
theorem advance_of_again {now : Float} (h : (d.sampleAt now).finished = true)
    (again : d.iterations.continuesAfter d.oneMore = true) :
    (d.advance now).1 =
      { d.through now with
        completed := d.oneMore
        animation := Animation.reset (d.through now).animation d.start
        runStart := now } := by
  have h : (Animation.step d.animation (d.frameTime now)).2.finished = true := h
  have again : d.iterations.continuesAfter (Word.saturate 32 (d.completed + 1)) = true := again
  simp only [advance, h, if_true, endRun, again]
  rfl

/-- A frame that ends a run may be the last of all. -/
theorem advance_of_last {now : Float} (h : (d.sampleAt now).finished = true)
    (last : d.iterations.continuesAfter d.oneMore = false) :
    (d.advance now).1 = { d.through now with completed := d.oneMore, state := .finished } := by
  have h : (Animation.step d.animation (d.frameTime now)).2.finished = true := h
  have last : d.iterations.continuesAfter (Word.saturate 32 (d.completed + 1)) = false := last
  simp only [advance, h, if_true, endRun, last, Bool.false_eq_true, if_false]
  rfl

/-- **What a frame can do**: it leaves the run open, ends it and lets another follow,
or is the last of all. -/
theorem advance_cases (d : Driver α κ) (now : Float) :
    ((d.sampleAt now).finished = false ∧ (d.advance now).1 = d.through now) ∨
      ((d.sampleAt now).finished = true ∧ d.iterations.continuesAfter d.oneMore = true ∧
        (d.advance now).1 =
          { d.through now with
            completed := d.oneMore
            animation := Animation.reset (d.through now).animation d.start
            runStart := now }) ∨
      ((d.sampleAt now).finished = true ∧ d.iterations.continuesAfter d.oneMore = false ∧
        (d.advance now).1 = { d.through now with completed := d.oneMore, state := .finished }) := by
  cases h : (d.sampleAt now).finished with
  | false => exact .inl ⟨rfl, advance_of_open h⟩
  | true =>
    cases again : d.iterations.continuesAfter d.oneMore with
    | true => exact .inr (.inl ⟨rfl, rfl, advance_of_again h again⟩)
    | false => exact .inr (.inr ⟨rfl, rfl, advance_of_last h again⟩)

/-! ### Drivers that are over -/

omit [Animation α] in
/-- A driver that is not over is stopped by a stop, and nothing else. -/
theorem stop_of_isActive (active : d.state.isActive = true) :
    d.stop = { d with state := .stopped } :=
  if_pos active

/-- A driver that is over gives nothing and stays as it is. -/
theorem step_of_over (ended : d.state.isActive = false) (now current : Float) :
    d.step now current = (d, none) := by
  cases hd : d.state with
  | pending =>
    rw [hd] at ended
    cases ended
  | running =>
    rw [hd] at ended
    cases ended
  | finished => simp only [step, hd]
  | stopped => simp only [step, hd]

/-- A driver that is over is left by every call. -/
theorem after_of_over (ended : d.state.isActive = false) (c : Call) : d.after c = d := by
  cases c with
  | step now current => exact congrArg Prod.fst (step_of_over ended now current)
  | stop => simp [after, stop, ended]

/-- A driver that is over is left by all calls. -/
theorem afterAll_of_over (ended : d.state.isActive = false) (calls : List Call) :
    d.afterAll calls = d := by
  induction calls with
  | nil => rfl
  | cons c calls ih => exact (congrArg (afterAll · calls) (after_of_over ended c)).trans ih

/-- A call leaves the owner of a driver. -/
theorem owner_after (d : Driver α κ) (c : Call) : (d.after c).owner = d.owner := by
  cases c with
  | step now current => exact (step_spec d now current).1
  | stop =>
    rw [after, stop]
    split <;> rfl

/-- Calls leave the owner of a driver. -/
theorem owner_afterAll (d : Driver α κ) (calls : List Call) :
    (d.afterAll calls).owner = d.owner := by
  induction calls generalizing d with
  | nil => rfl
  | cons c calls ih => exact (ih (d.after c)).trans (owner_after d c)

/-! ### Drivers of recorded animations -/

omit [Animation α] in
/-- The driver with a record of what it asks of its animation from now on. -/
def recorded (d : Driver α κ) : Driver (Recorded α) κ :=
  { d with animation := { animation := d.animation } }

omit [Animation α] in
/-- The driver without the record. -/
def plain (d : Driver (Recorded α) κ) : Driver α κ := { d with animation := d.animation.animation }

omit [Animation α] in
/-- The frames recorded, oldest first. -/
def frames (d : Driver (Recorded α) κ) : List RecordedFrame :=
  d.animation.record.filterMap AnimationCall.frame?

variable {r : Driver (Recorded α) κ}

omit [Animation α] in
/-- The driver without the record is as far. -/
@[simp] theorem state_plain (r : Driver (Recorded α) κ) : r.plain.state = r.state := rfl

/-- The record is not noticed while a driver goes through a frame. -/
theorem plain_advance (r : Driver (Recorded α) κ) (now : Float) :
    (r.advance now).1.plain = (r.plain.advance now).1 := by
  have given : r.plain.sampleAt now = r.sampleAt now := rfl
  have counted : r.plain.oneMore = r.oneMore := rfl
  obtain ⟨h, ha⟩ | ⟨h, again, ha⟩ | ⟨h, last, ha⟩ := advance_cases r now
  · rw [ha, advance_of_open (given ▸ h)]
    rfl
  · rw [ha, advance_of_again (given ▸ h) (counted ▸ again)]
    rfl
  · rw [ha, advance_of_last (given ▸ h) (counted ▸ last)]
    rfl

/-- **The record is not noticed by a step**: the driver is the same without it, and gives the
same. -/
theorem plain_step (r : Driver (Recorded α) κ) (now current : Float) :
    r.plain.step now current = ((r.step now current).1.plain, (r.step now current).2) := by
  have ready : r.plain.ready now current = (r.ready now current).plain := by
    rw [ready, ready, state_plain]
    split <;> rfl
  cases active : r.state.isActive with
  | true =>
    rw [step_of_isActive active, step_of_isActive (r.state_plain ▸ active), ready, plain_advance]
    rfl
  | false => rw [step_of_over active, step_of_over (r.state_plain ▸ active)]

/-- The record is not noticed by a call. -/
theorem plain_after (r : Driver (Recorded α) κ) (c : Call) :
    (r.after c).plain = r.plain.after c := by
  cases c with
  | step now current => exact (congrArg Prod.fst (plain_step r now current)).symm
  | stop =>
    cases active : r.state.isActive with
    | true =>
      rw [after, after, stop_of_isActive active, stop_of_isActive (r.state_plain ▸ active)]
      rfl
    | false => rw [after_of_over active, after_of_over (r.state_plain ▸ active)]

/-- The record is not noticed by calls. -/
theorem plain_afterAll (d : Driver α κ) (calls : List Call) :
    (d.recorded.afterAll calls).plain = d.afterAll calls := by
  have noticed :
      ∀ (r : Driver (Recorded α) κ), (r.afterAll calls).plain = r.plain.afterAll calls := by
    induction calls with
    | nil => exact fun r => rfl
    | cons c calls ih =>
      exact fun r => (ih (r.after c)).trans (congrArg (afterAll · calls) (plain_after r c))
  exact noticed d.recorded

/-! ### What is recorded -/

/-- The frame that a recorded animation goes through at a time. -/
def frameAt (r : Driver (Recorded α) κ) (now : Float) : RecordedFrame :=
  ⟨r.frameTime now, r.sampleAt now⟩

/-- One frame more is recorded. -/
theorem record_through (r : Driver (Recorded α) κ) (now : Float) :
    (r.through now).animation.record = r.animation.record ++ [.step (r.frameAt now)] := rfl

/-- One frame more is listed, whatever follows from the end of a run. -/
theorem frames_advance (r : Driver (Recorded α) κ) (now : Float) :
    (r.advance now).1.frames = r.frames ++ [r.frameAt now] := by
  have one : (r.through now).frames = r.frames ++ [r.frameAt now] := by
    rw [frames, record_through, List.filterMap_append]
    rfl
  obtain ⟨-, ha⟩ | ⟨-, -, ha⟩ | ⟨-, -, ha⟩ := advance_cases r now
  · rw [ha, one]
  · rw [ha, ← one]
    exact List.filterMap_append.trans (List.append_nil _)
  · rw [ha, ← one]
    rfl

/-- No frame is listed when a driver begins. -/
theorem frames_ready (r : Driver (Recorded α) κ) (now current : Float) :
    (r.ready now current).frames = r.frames := by
  unfold ready
  split
  · exact List.filterMap_append.trans (List.append_nil _)
  · rfl

/-- **A step of a driver that is not over is one frame more.** Its time is that of the step, and its
value is the one that the step gives and the driver remembers. -/
theorem exists_frame_step (active : r.state.isActive = true) (now current : Float) :
    ∃ f, (r.step now current).1.frames = r.frames ++ [f] ∧ f.time.now = now ∧
      (r.step now current).2 = some f.sample.value ∧
      (r.step now current).1.lastValue = some f.sample.value := by
  have step := step_of_isActive active now current
  refine ⟨(r.ready now current).frameAt now, ?_, rfl, ?_, ?_⟩
  · rw [step, frames_advance, frames_ready]
  · rw [step]
    rfl
  · rw [(step_spec r now current).2, step]
    rfl

/-- A call is one frame more, or none. -/
theorem frames_after (r : Driver (Recorded α) κ) (c : Call) :
    (r.after c).frames = r.frames ∨
      ∃ now current f, c = .step now current ∧ f.time.now = now ∧
        (r.after c).frames = r.frames ++ [f] := by
  cases active : r.state.isActive with
  | false => exact .inl (congrArg frames (after_of_over active c))
  | true =>
    cases c with
    | stop =>
      rw [after, stop_of_isActive active]
      exact .inl rfl
    | step now current =>
      obtain ⟨f, hf, ht, -⟩ := exists_frame_step active now current
      exact .inr ⟨now, current, f, rfl, ht, hf⟩

/-- The frames recorded are at times of steps. -/
theorem exists_step_of_mem_frames {d : Driver α κ} {calls : List Call} {f : RecordedFrame}
    (h : f ∈ (d.recorded.afterAll calls).frames) : ∃ current, .step f.time.now current ∈ calls := by
  have known : ∀ (calls : List Call) (r : Driver (Recorded α) κ), f ∈ (r.afterAll calls).frames →
      f ∈ r.frames ∨ ∃ current, .step f.time.now current ∈ calls := by
    intro calls
    induction calls with
    | nil => exact fun r hf => .inl hf
    | cons c calls ih =>
      intro r hf
      rcases ih (r.after c) hf with hf | ⟨current, hc⟩
      · rcases frames_after r c with hsame | ⟨now, current, g, rfl, rfl, hmore⟩
        · exact .inl (hsame ▸ hf)
        · rw [hmore, List.mem_append, List.mem_singleton] at hf
          rcases hf with hf | rfl
          · exact .inl hf
          · exact .inr ⟨current, List.mem_cons_self⟩
      · exact .inr ⟨current, List.mem_cons_of_mem c hc⟩
  exact (known calls d.recorded h).resolve_left List.not_mem_nil

/-! ### What all frames have in common -/

omit [Animation α] in
/-- The animation is of some kind, and all frames recorded are good. -/
structure Keeps (kind : α → Prop) (good : RecordedFrame → Prop) (r : Driver (Recorded α) κ) :
    Prop where
  animation : kind r.animation.animation
  frames : ∀ f ∈ r.frames, good f

section Keeps

variable {kind : α → Prop} {good : RecordedFrame → Prop}
  (reset : ∀ a x, kind a → kind (Animation.reset a x))
  (step : ∀ a time, kind a →
    kind (Animation.step a time).1 ∧ good ⟨time, (Animation.step a time).2⟩)

include reset

/-- Getting ready keeps the kind and the frames. -/
theorem Keeps.ready (h : Keeps kind good r) (now current : Float) :
    Keeps kind good (r.ready now current) := by
  refine ⟨?_, frames_ready r now current ▸ h.frames⟩
  unfold Driver.ready
  split
  · exact reset _ _ h.animation
  · exact h.animation

include step

/-- Going through a frame keeps the kind and adds a good frame. -/
theorem Keeps.advance (h : Keeps kind good r) (now : Float) :
    Keeps kind good (r.advance now).1 := by
  obtain ⟨kept, fresh⟩ := step _ (r.frameTime now) h.animation
  refine ⟨?_, fun f hf => ?_⟩
  · obtain ⟨-, ha⟩ | ⟨-, -, ha⟩ | ⟨-, -, ha⟩ := advance_cases r now
    · exact ha ▸ kept
    · exact ha ▸ reset _ _ kept
    · exact ha ▸ kept
  · rw [frames_advance] at hf
    rcases List.mem_append.1 hf with hf | hf
    · exact h.frames f hf
    · exact List.mem_singleton.1 hf ▸ fresh

/-- A call keeps the kind, and good frames. -/
theorem Keeps.after (h : Keeps kind good r) (c : Call) : Keeps kind good (r.after c) := by
  cases active : r.state.isActive with
  | false => exact (after_of_over active c).symm ▸ h
  | true =>
    cases c with
    | step now current =>
      have moved := (h.ready reset now current).advance reset step now
      rw [Driver.after, step_of_isActive active]
      exact moved
    | stop =>
      rw [Driver.after, stop_of_isActive active]
      exact ⟨h.animation, h.frames⟩

/-- **All frames are good** if whatever an animation of some kind gives is good, and beginning and
going on keep the kind. -/
theorem keeps_afterAll {d : Driver α κ} (hd : kind d.animation) (calls : List Call) :
    Keeps kind good (d.recorded.afterAll calls) := by
  have kept : ∀ {r : Driver (Recorded α) κ}, Keeps kind good r →
      Keeps kind good (r.afterAll calls) := by
    induction calls with
    | nil => exact fun h => h
    | cons c calls ih => exact fun h => ih (h.after reset step c)
  exact kept ⟨hd, fun f hf => absurd hf List.not_mem_nil⟩

end Keeps

end Driver

end MotionGraph
