import MotionGraph.Proofs.Driver.Life
import MotionGraph.Proofs.Motion.Arrival
import MotionGraph.Proofs.Number.Nearest

/-!
# Motions that land on their goal

A description that names a goal and is accepted (`MotionConfig.aim?`) makes a motion that has this
goal and keeps it. So whatever a driver of it is called, every value that ends one of its runs is
the goal itself, and the driver is over with the goal (`MotionConfig.lands_on_goal`).

A timed motion ends a run as soon as its time has come (`MotionConfig.IsDue`): it has waited, and
its duration is over or the last entry of its table is reached.
-/

namespace MotionGraph

/-! ### When the time of a motion has come -/

namespace Timing

/-- Whether some time after its first entry a table has reached its last one, or is beyond it.
Entries are one frame apart, and the nearest one counts; a time of more frames than any double has a
value for is beyond every table. -/
def IsPast (frames : List Float) (waited : Float) : Prop :=
  ∀ b, Binary64.ofFloat? (waited / frameLength) = some b → frames.length ≤ (round b.value).toNat + 1

variable {m : Timing}

/-- A table ends a motion at its last entry and beyond. -/
theorem finished_tableSample {frames : List Float} {index : Option Nat} :
    (m.tableSample frames index).finished = true ↔ ∀ i, index = some i → frames.length ≤ i + 1 := by
  cases index with
  | none => simp [tableSample]
  | some i =>
    simp only [tableSample, Option.some.injEq, forall_eq']
    by_cases hi : i < frames.length
    · rw [List.getElem?_eq_getElem hi]
      dsimp only
      split
      · next h => exact iff_of_false Bool.false_ne_true (by omega)
      · next h => exact iff_of_true rfl (by omega)
    · rw [List.getElem?_eq_none (by omega)]
      exact iff_of_true rfl (by omega)

/-- The nearest entry to a time is the last one or beyond if the table is past. -/
theorem isPast_iff {frames : List Float} {waited : Float} (hw : 0.0 ≤ waited) :
    (∀ i, Double.nearestNat? (waited / frameLength) = some i → frames.length ≤ i + 1) ↔
      IsPast frames waited := by
  cases hb : Binary64.ofFloat? (waited / frameLength) with
  | none =>
    have beyond : 0.0 ≤ waited / frameLength :=
      Double.zero_le_div hw (by decide +kernel) (by decide +kernel)
    simp [IsPast, hb, Double.nearestNat?_eq_none hb beyond]
  | some b => simp [IsPast, hb, Double.nearestNat?_eq hb]

/-- **A timed motion is at its end when it has waited and its curve is over.** -/
theorem finished_sample {elapsed : Float} (hn : (elapsed - m.delay).isNaN = false) :
    (m.sample elapsed).finished = true ↔
      0.0 ≤ elapsed - m.delay ∧
        match m.curve with
        | .eased duration _ => duration ≤ elapsed - m.delay
        | .table frames => IsPast frames (elapsed - m.delay) := by
  unfold sample
  dsimp only
  split
  · next h =>
    exact iff_of_false Bool.false_ne_true fun hd => Double.not_lt_of_le hd.1 h
  · next h =>
    have waited : 0.0 ≤ elapsed - m.delay := Double.le_of_not_lt (by decide +kernel) hn h
    rw [and_iff_right waited]
    cases m.curve with
    | eased duration easing =>
      dsimp only
      split
      · next hd => exact iff_of_true rfl hd
      · next hd => exact iff_of_false Bool.false_ne_true hd
    | table frames => exact finished_tableSample.trans (isPast_iff waited)

end Timing

namespace MotionConfig

/-! ### Descriptions -/

/-- Whether the time of a timed motion has come so long after it began: it has waited, and it is at
the last entry of its table or has moved for its duration. -/
def IsDue (duration : Option Float) (frames : Option (List Float)) (delay : Option Float)
    (elapsed : Float) : Prop :=
  let waited := elapsed - delay.getD 0.0
  0.0 ≤ waited ∧
    match frames with
    | some frames => Timing.IsPast frames waited
    | none => duration.getD Timing.defaultDuration ≤ waited

/-- The curve of a timed motion whose description is accepted. -/
theorem curve_eq_ok {duration : Option Float} {frames : Option (List Float)}
    {easing : Option Easing} {c : ProgressCurve} (h : curve duration frames easing = .ok c) :
    c = frames.elim (.eased (duration.getD Timing.defaultDuration) (easing.getD .easeInOut))
      .table := by
  cases frames with
  | some frames =>
    simp only [curve] at h
    split at h
    · cases h
    · exact (Except.ok.inj h).symm
  | none =>
    simp only [curve, except_bind_eq_ok] at h
    obtain ⟨_, _, _, _, h⟩ := h
    exact (Except.ok.inj h).symm

variable {m : Motion} {i : Iterations}

/-- **A timed motion that is made from a description ends when its time has come**, wherever it
began. -/
theorem finished_iff_isDue {goal : Float} {duration : Option Float} {frames : Option (List Float)}
    {easing : Option Easing} {iterations : Option Int} {delay : Option Float}
    (built : (timing goal duration frames easing iterations delay).build = .ok (m, i)) :
    ∃ t : Timing, m = .timing t ∧ ∀ start elapsed, elapsed.isNaN = false →
      (({ t with start }.sample elapsed).finished = true ↔
        IsDue duration frames delay elapsed) := by
  simp only [build, except_bind_eq_ok] at built
  obtain ⟨_, _, _, hdelay, curve, hcurve, _, _, h⟩ := built
  cases h
  have finite : (delay.getD 0.0).isFinite = true := by
    unfold nonNegative at hdelay
    split at hdelay
    · next h => exact (Bool.and_eq_true_iff.1 h).1
    · cases hdelay
  obtain rfl := curve_eq_ok hcurve
  refine ⟨_, rfl, fun start elapsed he => ?_⟩
  have number : (elapsed - delay.getD 0.0).isNaN = false := Double.isNaN_sub_finite he finite
  refine Iff.trans (Timing.finished_sample number) ?_
  cases frames <;> exact Iff.rfl

end MotionConfig

/-! ### Times -/

namespace Driver

/-- A run begins with the first frame of all, or with one that was gone through. -/
theorem beganAfter_eq (first : Float) (before : List RecordedFrame) :
    beganAfter first before = first ∨ ∃ f ∈ before, beganAfter first before = f.time.now := by
  unfold beganAfter
  cases hl : (before.filter fun f => f.sample.finished).getLast? with
  | none => exact .inl rfl
  | some f => exact .inr ⟨f, (List.mem_filter.1 (List.mem_of_getLast? hl)).1, rfl⟩

variable {α κ : Type} [Animation α]

/-- If all steps are at finite times, then the time since a run began is a number. -/
theorem isNaN_sub_beganAfter {d : Driver α κ} {calls : List Call} {first current : Float}
    (begins : .step first current ∈ calls)
    (finite : ∀ now current, .step now current ∈ calls → now.isFinite = true)
    {before after : List RecordedFrame} {f : RecordedFrame}
    (h : (d.recorded.afterAll calls).frames = before ++ f :: after) :
    (f.time.now - beganAfter first before).isNaN = false := by
  have known : ∀ g ∈ before ++ f :: after, g.time.now.isFinite = true := fun g hg => by
    obtain ⟨x, hx⟩ := exists_step_of_mem_frames (h ▸ hg)
    exact finite _ x hx
  refine Double.isNaN_sub (known f (by simp)) ?_
  rcases beganAfter_eq first before with hb | ⟨g, hg, hb⟩
  · rw [hb]
    exact finite first current begins
  · rw [hb]
    exact known g (List.mem_append_left _ hg)

end Driver

/-! ### Drivers -/

namespace MotionConfig

open Driver

variable {c : MotionConfig} {m : Motion} {i : Iterations} {κ : Type}

/-- A driver keeps the goal, and every value that ends a run is the goal. -/
theorem keeps_goal {goal : Float} (aims : c.aim? = some goal) (built : c.build = .ok (m, i))
    (id : AnimationId) (target : Tag) (callback : Option κ) (calls : List Call) :
    Keeps (fun m => m.goal? = some goal) (fun f => f.sample.finished = true → f.sample.value = goal)
      ((new id target m i callback).recorded.afterAll calls) :=
  keeps_afterAll (fun m x h => (Motion.goal?_reset m x).trans h)
    (fun m time h => ⟨(Motion.goal?_step m time).trans h, Motion.value_of_finished h⟩)
    ((goal?_of_build built).trans aims) calls

/-- A driver of a timed motion ends a run when its time has come. -/
theorem keeps_due {goal : Float} {duration : Option Float} {frames : Option (List Float)}
    {easing : Option Easing} {iterations : Option Int} {delay : Option Float}
    (built : (timing goal duration frames easing iterations delay).build = .ok (m, i))
    (id : AnimationId) (target : Tag) (callback : Option κ) (calls : List Call) :
    ∀ f ∈ ((new id target m i callback).recorded.afterAll calls).frames,
      f.time.elapsed.isNaN = false →
      (f.sample.finished = true ↔ IsDue duration frames delay f.time.elapsed) := by
  obtain ⟨t, rfl, due⟩ := finished_iff_isDue built
  have kept : Keeps (fun m => ∃ start, m = Motion.timing { t with start })
      (fun f => f.time.elapsed.isNaN = false →
        (f.sample.finished = true ↔ IsDue duration frames delay f.time.elapsed))
      ((new id target (Motion.timing t) i callback).recorded.afterAll calls) := by
    refine keeps_afterAll ?_ ?_ ⟨t.start, rfl⟩ calls
    · rintro _ x ⟨_, rfl⟩
      exact ⟨x, rfl⟩
    · rintro _ time ⟨start, rfl⟩
      exact ⟨⟨start, rfl⟩, due start time.elapsed⟩
  exact kept.frames

/-- The step with which a driver is over gives the goal. -/
theorem step_ends_with_goal {goal : Float} (aims : c.aim? = some goal)
    (built : c.build = .ok (m, i)) (id : AnimationId) (target : Tag) (callback : Option κ)
    (calls : List Call) {now current : Float}
    (going : ((new id target m i callback).afterAll calls).state ≠ .finished)
    (ended : (((new id target m i callback).afterAll calls).step now current).1.state = .finished) :
    (((new id target m i callback).afterAll calls).step now current).2 = some goal := by
  have plain := plain_afterAll (new id target m i callback) calls
  have kept := (keeps_goal aims built id target callback calls).animation
  have keeps : ((new id target m i callback).afterAll calls).animation.goal? = some goal :=
    plain ▸ kept
  have active : ((new id target m i callback).afterAll calls).state.isActive = true := by
    by_contra h
    rw [step_of_over (Bool.eq_false_of_not_eq_true h)] at ended
    exact going ended
  obtain ⟨x, given, -, goes | rfl⟩ := step_goal keeps active now current
  · rw [ended] at goes
    cases goes
  · exact given

/-- A driver that is over by itself remembers the goal. -/
theorem lastValue_of_finished {goal : Float} (aims : c.aim? = some goal)
    (built : c.build = .ok (m, i)) (id : AnimationId) (target : Tag) (callback : Option κ)
    (calls : List Call)
    (ended : ((new id target m i callback).recorded.afterAll calls).state = .finished) :
    ((new id target m i callback).recorded.afterAll calls).lastValue = some goal := by
  rcases step_first_or_not calls with idle | ⟨first, current, hc⟩
  · exact absurd ended (afterAll_new_of_no_step id target m i callback idle).2
  · obtain ⟨past, present, lived⟩ := exists_lived_new id target m i callback hc
    obtain ⟨f, recorded, hf, lastValue⟩ := lived.exists_last_frame ended
    have lands := (keeps_goal aims built id target callback calls).frames f recorded hf
    rw [lastValue, lands]

/-- **Motions land on their goal.** Take a description that names a goal and is accepted, and call a
driver of its motion in any way. The step with which the driver is over gives the goal; the driver
remembers the goal and reports it. Its animation has gone through runs that are over and one that is
over if the driver is: each ended with its last frame and no other, and with the goal.

If the motion is timed and all steps are at finite times, the frames that end a run are those at
which its time has come, counted from where the run began. -/
theorem lands_on_goal {goal : Float} (aims : c.aim? = some goal) (built : c.build = .ok (m, i))
    (id : AnimationId) (target : Tag) (callback : Option κ) (calls : List Call) :
    let d := (new id target m i callback).afterAll calls
    let r := (new id target m i callback).recorded.afterAll calls
    r.plain = d ∧
      (∀ now current, d.state ≠ .finished → (d.step now current).1.state = .finished →
        (d.step now current).2 = some goal) ∧
      (d.state = .finished →
        d.lastValue = some goal ∧ d.completion.report = ⟨id, true, some goal⟩) ∧
      ∀ first current, calls.head? = some (.step first current) →
        (∃ past present,
          r.animation.record = (past ++ [present]).flatMap (recordOfRun current) ∧
            (∀ run ∈ past, EndedRun run) ∧
            if d.state = .finished then EndedRun present else OpenRun present) ∧
          (∀ f ∈ r.frames, f.sample.finished = true → f.sample.value = goal) ∧
          ∀ duration frames easing iterations delay,
            c = .timing goal duration frames easing iterations delay →
            (∀ now current, .step now current ∈ calls → now.isFinite = true) →
            ∀ (before : List RecordedFrame) (f) (after : List RecordedFrame),
              r.frames = before ++ f :: after →
                (f.sample.finished = true ↔
                  IsDue duration frames delay (f.time.now - beganAfter first before)) := by
  intro d r
  have plain : r.plain = d := plain_afterAll _ calls
  have state : r.state = d.state := congrArg Driver.state plain
  refine ⟨plain, fun now current => step_ends_with_goal aims built id target callback calls,
    fun ended => ?_, fun first current hc => ?_⟩
  · have lands : d.lastValue = some goal :=
      (congrArg Driver.lastValue plain).symm.trans
        (lastValue_of_finished aims built id target callback calls (state.trans ended))
    have name : d.id = id := congrArg Prod.fst (owner_afterAll (new id target m i callback) calls)
    refine ⟨lands, ?_⟩
    rw [completion, name, lands]
    simp [ended]
  · obtain ⟨past, present, lived⟩ := exists_lived_new id target m i callback hc
    refine ⟨⟨past, present, lived.record, lived.allEnded, ?_⟩,
      (keeps_goal aims built id target callback calls).frames, ?_⟩
    · split
      · next h => exact (lived.last (state.trans h)).1
      · next h => exact lived.stillOpen fun hs => h (state.symm.trans hs)
    · rintro duration frames easing iterations delay rfl finite before f after hf
      have number := isNaN_sub_beganAfter (List.mem_of_head? hc) finite hf
      have elapsed := (lived.inTime before f after hf).1
      have recorded : f ∈ r.frames := by simp [hf]
      rw [← elapsed] at number ⊢
      exact keeps_due built id target callback calls f recorded number

/-- A motion to zero from below that waits for ten milliseconds and then goes along a table,
twice. -/
def rising : MotionConfig := .timing (-0.0) none (some [0.0, 0.5, 1.0]) none (some 2) (some 10.0)

/-- The motion that is made from this description. -/
def risen : Timing := { goal := -0.0, curve := .table [0.0, 0.5, 1.0], delay := 10.0 }

/-- Each run ends with the first frame nearest to the last entry, and the driver is over with the
zero from below although it began at five. -/
theorem rising_lands :
    let calls : List Call :=
      [.step 0.0 5.0, .step 20.0 5.0, .step 40.0 3.0, .step 60.0 4.0, .step 100.0 5.0]
    let driver := new ⟨1⟩ ⟨2⟩ (Motion.timing risen) (.count 2) (none : Option Unit)
    let r := driver.recorded.afterAll calls
    (driver.afterAll calls).lastValue = some (-0.0) ∧
      (driver.afterAll calls).completion.report = ⟨⟨1⟩, true, some (-0.0)⟩ ∧
      r.frames.map (fun f => f.sample.finished) = [false, false, true, false, true] ∧
      ∀ (before : List RecordedFrame) (f) (after : List RecordedFrame),
        r.frames = before ++ f :: after →
        (f.sample.finished = true ↔
          IsDue none (some [0.0, 0.5, 1.0]) (some 10.0) (f.time.now - beganAfter 0.0 before)) := by
  intro calls driver r
  have built : rising.build = .ok (.timing risen, .count 2) := by
    with_unfolding_all rfl
  obtain ⟨-, -, lands, runs⟩ :=
    lands_on_goal (c := rising) rfl built ⟨1⟩ ⟨2⟩ (none : Option Unit) calls
  obtain ⟨lastValue, report⟩ := lands (by decide +kernel)
  obtain ⟨-, -, due⟩ := runs 0.0 5.0 rfl
  have finite : ∀ now current, .step now current ∈ calls → now.isFinite = true := by
    intro now current h
    simp only [calls, List.mem_cons, Call.step.injEq, List.not_mem_nil, or_false] at h
    rcases h with ⟨rfl, -⟩ | ⟨rfl, -⟩ | ⟨rfl, -⟩ | ⟨rfl, -⟩ | ⟨rfl, -⟩ <;> decide +kernel
  exact ⟨lastValue, report, by decide +kernel, due _ _ _ _ _ rfl finite⟩

end MotionConfig

end MotionGraph
