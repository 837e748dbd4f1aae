import MotionGraph.Proofs.Graph.Requests
import MotionGraph.Proofs.Number.Amounts
import MotionGraph.Settings.Reader
import MotionGraph.Engine.Basic

/-!
# The time of a frame loop

A loop that settings make has a time of its own. If they are accepted, and the times that the host
gives are finite, no call takes the time back, in whatever order the host's times come
(`FrameLoop.Timed.afterAll`). A tick takes it forward: by the default interval if it is the first
since the loop was started, and else by at most the limit.

The check asks each of the two intervals to be a duration and never compares them. So all ticks keep
to the limit exactly if the default interval does (`FrameLoop.virtual_time`), and there are settings
with which they do not (`FrameLoop.longInterval_exceeds`).
-/

namespace MotionGraph

namespace Settings

/-- The two intervals of settings that pass the check are durations. -/
theorem isDuration_of_check {s : Settings} (h : s.check = .ok ()) :
    isDuration s.defaultInterval = true ∧ isDuration s.maxDelta = true := by
  unfold check at h
  split at h
  · cases h
  split at h
  · cases h
  · next hi =>
    split at h
    · cases h
    · next hm => exact ⟨by simpa using hi, by simpa using hm⟩

/-- A duration is not below zero. -/
theorem zero_le_of_isDuration {x : Float} (h : isDuration x = true) : 0.0 ≤ x := by
  rw [isDuration, Bool.and_eq_true, decide_eq_true_eq] at h
  exact Double.le_of_lt h.2

/-- The two intervals of accepted settings are not below zero. -/
theorem zero_le_of_parse {text : String} {s : Settings} (h : parse text = .ok s) :
    0.0 ≤ s.defaultInterval ∧ 0.0 ≤ s.maxDelta := by
  unfold parse at h
  split at h
  · cases h
  · obtain ⟨_, hc, rfl⟩ := except_map_eq_ok.1 h
    exact (isDuration_of_check hc).imp zero_le_of_isDuration zero_le_of_isDuration

end Settings

namespace FrameLoop

/-! ### Calls -/

/-- What is asked of a loop. -/
inductive Call where
  | start
  | stop
  /-- A start from elsewhere. -/
  | wake
  /-- A tick at a time of the host. -/
  | tick (host : Float)

/-- Whether a call comes at a finite time, if it comes at a time at all. -/
def Call.isFinite : Call → Bool
  | .tick host => host.isFinite
  | _ => true

/-- The loop after a call. -/
def after (l : FrameLoop) : Call → FrameLoop
  | .start | .wake => l.start.1
  | .stop => l.stop.1
  | .tick host => (l.tick host).1

/-- The loop after several calls. -/
def afterAll (l : FrameLoop) (calls : List Call) : FrameLoop := calls.foldl after l

/-- The loop that settings make. -/
def ofSettings (s : Settings) : FrameLoop :=
  { interval := s.defaultInterval, maxDelta := s.maxDelta }

/-- It is the loop that an engine begins with. -/
theorem loop_new {κ : Type} (s : Settings) (host : Host κ) :
    (Engine.new s host).loop = ofSettings s := rfl

/-- Whether the next tick is the first since the loop was started. -/
def Fresh (l : FrameLoop) : Prop := l.restarted = true ∨ l.lastHost = none

instance (l : FrameLoop) : Decidable l.Fresh := by
  unfold Fresh
  infer_instance

/-- A start makes a loop fresh that was at rest, and a tick ends that. -/
theorem fresh_after_iff (l : FrameLoop) (c : Call) :
    (l.after c).Fresh ↔
      match c with
      | .start | .wake => l.Fresh ∨ l.running = false
      | .stop => l.Fresh
      | .tick _ => False := by
  have hstart : l.start.1.Fresh ↔ l.Fresh ∨ l.running = false := by
    cases hr : l.running <;> simp [start, hr, Fresh]
  cases c with
  | start => exact hstart
  | wake => exact hstart
  | stop => cases hr : l.running <;> simp [after, stop, hr, Fresh]
  | tick host => simp [after, tick, Fresh]

/-! ### Runs -/

/-- What holds of a loop that settings made. -/
structure Timed (s : Settings) (l : FrameLoop) : Prop where
  interval : l.interval = s.defaultInterval
  maxDelta : l.maxDelta = s.maxDelta
  /-- Its time is not below zero. -/
  now : 0.0 ≤ l.now
  /-- The host's times were finite. -/
  lastHost : ∀ host, l.lastHost = some host → host.isFinite = true

variable {s : Settings} {l : FrameLoop}

/-- Zero is not below zero. -/
theorem zero_le_zero : (0.0 : Float) ≤ 0.0 := by decide +kernel

/-- A loop begins so. -/
theorem timed_ofSettings (s : Settings) : (ofSettings s).Timed s where
  interval := rfl
  maxDelta := rfl
  now := zero_le_zero
  lastHost _ h := by cases h

/-- The first tick goes as far as the default interval. -/
theorem advance_of_fresh (hf : l.Fresh) (host : Float) : l.advance host = l.interval := by
  rcases hf with hr | hl
  · rw [advance, if_pos hr]
  · rw [advance, hl, ite_self]

namespace Timed

/-- Any other tick goes between nothing and the limit. -/
theorem advance_of_not_fresh (h : l.Timed s) (hs : 0.0 ≤ s.maxDelta) (hf : ¬l.Fresh) {host : Float}
    (hh : host.isFinite = true) : 0.0 ≤ l.advance host ∧ l.advance host ≤ s.maxDelta := by
  obtain ⟨hr, hl⟩ := not_or.1 hf
  obtain ⟨last, hl⟩ := Option.ne_none_iff_exists'.1 hl
  rw [advance, if_neg hr, hl, h.maxDelta]
  exact Double.clamp_between (Double.isNaN_sub hh (h.lastHost last hl)) hs

variable (hi : 0.0 ≤ s.defaultInterval) (hs : 0.0 ≤ s.maxDelta)
include hi hs

/-- No tick goes back. -/
theorem zero_le_advance (h : l.Timed s) {host : Float} (hh : host.isFinite = true) :
    0.0 ≤ l.advance host := by
  by_cases hf : l.Fresh
  · rw [advance_of_fresh hf, h.interval]
    exact hi
  · exact (h.advance_of_not_fresh hs hf hh).1

/-- A call at a finite time takes the time of a loop forward, or leaves it. -/
theorem after (h : l.Timed s) {c : Call} (hc : c.isFinite = true) :
    (l.after c).Timed s ∧ l.now ≤ (l.after c).now := by
  have hstart : l.start.1.Timed s ∧ l.now ≤ l.start.1.now := by
    unfold start
    split
    · exact ⟨h, Double.le_refl h.now⟩
    · exact ⟨⟨h.interval, h.maxDelta, h.now, h.lastHost⟩, Double.le_refl h.now⟩
  have hstop : l.stop.1.Timed s ∧ l.now ≤ l.stop.1.now := by
    unfold stop
    split
    · exact ⟨⟨h.interval, h.maxDelta, h.now, h.lastHost⟩, Double.le_refl h.now⟩
    · exact ⟨h, Double.le_refl h.now⟩
  cases c with
  | start => exact hstart
  | wake => exact hstart
  | stop => exact hstop
  | tick host =>
    have hd := h.zero_le_advance hi hs hc
    refine ⟨⟨h.interval, h.maxDelta, Double.zero_le_add h.now hd, ?_⟩, Double.le_add h.now hd⟩
    intro last hl
    cases hl
    exact hc

/-- Calls at finite times take the time of a loop forward, or leave it. -/
theorem afterAll {calls : List Call} (h : l.Timed s) (hc : ∀ c ∈ calls, c.isFinite = true) :
    (l.afterAll calls).Timed s ∧ l.now ≤ (l.afterAll calls).now := by
  induction calls generalizing l with
  | nil => exact ⟨h, Double.le_refl h.now⟩
  | cons c calls ih =>
    obtain ⟨hnext, hle⟩ := h.after hi hs (hc c List.mem_cons_self)
    obtain ⟨hlast, hle'⟩ := ih hnext fun c hmem => hc c (List.mem_cons_of_mem _ hmem)
    exact ⟨hlast, Double.le_trans h.now hnext.now hlast.now hle hle'⟩

end Timed

/-- **The time of a loop goes forward, by no more than it may.** Take a loop made by settings that
were read and accepted, and call it in any way at finite times. Then later calls never take its time
back. A tick goes forward by an amount that is not below zero, and its time is the sum of the two;
the first tick after a start goes by the default interval, any other one by at most the limit, and
then to no later time than the sum with the limit. All ticks keep to the limit exactly if the
default interval does. -/
theorem virtual_time {text : String} {s : Settings} (h : Settings.parse text = .ok s) :
    (∀ earlier later : List Call, (∀ c ∈ earlier ++ later, c.isFinite = true) →
      ((ofSettings s).afterAll earlier).now ≤ ((ofSettings s).afterAll (earlier ++ later)).now) ∧
    (∀ calls : List Call, (∀ c ∈ calls, c.isFinite = true) → ∀ host : Float, host.isFinite = true →
      let l := (ofSettings s).afterAll calls
      let timing := (l.tick host).2
      0.0 ≤ timing.delta ∧ timing.now = l.now + timing.delta ∧ l.now ≤ timing.now ∧
        (l.Fresh → timing.delta = s.defaultInterval) ∧
        (¬l.Fresh → timing.delta ≤ s.maxDelta ∧ timing.now ≤ l.now + s.maxDelta)) ∧
    ((∀ calls : List Call, (∀ c ∈ calls, c.isFinite = true) → ∀ host : Float, host.isFinite = true →
        (((ofSettings s).afterAll calls).tick host).2.delta ≤ s.maxDelta) ↔
      s.defaultInterval ≤ s.maxDelta) := by
  obtain ⟨hi, hs⟩ := Settings.zero_le_of_parse h
  have timed {calls : List Call} (hc : ∀ c ∈ calls, c.isFinite = true) :
      ((ofSettings s).afterAll calls).Timed s := ((timed_ofSettings s).afterAll hi hs hc).1
  refine ⟨fun earlier later hc => ?_, fun calls hc host hh => ?_, fun hle => ?_,
    fun hle calls hc host hh => ?_⟩
  · have hstart := timed fun c hmem => hc c (List.mem_append_left later hmem)
    have hrest := (hstart.afterAll hi hs fun c hmem => hc c (List.mem_append_right earlier hmem)).2
    rwa [afterAll, afterAll, List.foldl_append]
  · have hl := timed hc
    have hd := hl.zero_le_advance hi hs hh
    refine ⟨hd, rfl, Double.le_add hl.now hd,
      fun hf => (advance_of_fresh hf host).trans hl.interval, fun hf => ?_⟩
    have hmax := (hl.advance_of_not_fresh hs hf hh).2
    exact ⟨hmax, Double.add_le_add_left hl.now hd hs hmax⟩
  · have hfirst := hle [] (fun c hmem => absurd hmem List.not_mem_nil) 0.0 (by decide +kernel)
    exact hfirst
  · have hl := timed hc
    by_cases hf : ((ofSettings s).afterAll calls).Fresh
    · have hd : ((ofSettings s).afterAll calls).advance host = s.defaultInterval :=
        (advance_of_fresh hf host).trans hl.interval
      show ((ofSettings s).afterAll calls).advance host ≤ s.maxDelta
      rw [hd]
      exact hle
    · exact (hl.advance_of_not_fresh hs hf hh).2

/-- A default interval above the limit is accepted. -/
theorem parse_longInterval :
    Settings.parse "(default_frame_interval_ms: 250.0)" = .ok { defaultInterval := 250.0 } := by
  have fields : (Settings.parse "(default_frame_interval_ms: 250.0)").toOption.any (fun s =>
      decide (s.version = 1 ∧ s.defaultInterval = 250.0 ∧ s.maxDelta = 100.0 ∧
        s.arbitration = .lastWriteWins ∧ s.warnOnConflict = true ∧ s.maxCommands = some 4096 ∧
        s.normalizeEvents = true ∧ s.maxSettlePasses = 4)) = true := by
    decide +kernel
  cases hp : Settings.parse "(default_frame_interval_ms: 250.0)" with
  | error cause =>
    rw [hp] at fields
    cases fields
  | ok s =>
    rw [hp] at fields
    cases s
    obtain ⟨rfl, rfl, rfl, rfl, rfl, rfl, rfl, rfl⟩ := of_decide_eq_true fields
    rfl

/-- With these settings, too, the host's clock may go back and stand still for long. -/
theorem longInterval_virtual_time :
    let s : Settings := { defaultInterval := 250.0 }
    let l := (ofSettings s).afterAll [.start, .tick 1000.0, .tick 400.0, .wake]
    let timing := (l.tick 5000.0).2
    Settings.parse "(default_frame_interval_ms: 250.0)" = .ok s ∧ l.now = 250.0 ∧
      0.0 ≤ timing.delta ∧ timing.delta ≤ 100.0 ∧ l.now ≤ timing.now ∧
        timing.now ≤ l.now + 100.0 := by
  intro s l timing
  have hcalls : ∀ c ∈ [Call.start, .tick 1000.0, .tick 400.0, .wake], c.isFinite = true := by
    decide +kernel
  obtain ⟨hd, -, hle, -, hmax⟩ :=
    (virtual_time parse_longInterval).2.1 _ hcalls 5000.0 (by decide +kernel)
  obtain ⟨hdelta, hnow⟩ := hmax (by decide +kernel)
  exact ⟨parse_longInterval, by decide +kernel, hd, hdelta, hle, hnow⟩

/-- A first tick that goes further than the limit. -/
theorem longInterval_exceeds :
    ∃ s, Settings.parse "(default_frame_interval_ms: 250.0)" = .ok s ∧ s.maxDelta = 100.0 ∧
      (((ofSettings s).afterAll [.start]).tick 1000.0).2.delta = 250.0 :=
  ⟨_, parse_longInterval, rfl, rfl⟩

end FrameLoop

end MotionGraph
