import Mathlib.Data.List.DropRight
import MotionGraph.Proofs.Engine.Clock
import MotionGraph.Proofs.Engine.Guarded

/-!
# What a frame loop makes of its calls

A loop shares its subscription with whoever may wake it. So starts come from several sides, come
again while the loop runs, and are undone before any tick; and ticks come while the loop is idle.

All that a loop knows can be read off the calls so far and their answers (`FrameLoop.Reply`). Its
subscription (`FrameLoop.Subscribed`) is touched by no tick: the loop runs if ticks were last asked
for and not declined. Its clock (`FrameLoop.Clocked`) is touched by no stop: the word that a start
took effect waits for the next tick, and the host's time is that of the last tick, however often the
loop was stopped since. Each call keeps both as they should be, and so do all runs
(`FrameLoop.follows_calls`).
-/

namespace MotionGraph

namespace FrameLoop

/-! ### Calls and their answers -/

/-- A call and its answer. -/
inductive Reply where
  /-- A start, from wherever, and whether it took effect. -/
  | start (took : Bool)
  /-- A stop, and whether it took effect. -/
  | stop (took : Bool)
  /-- A tick at a time of the host, and the times it was given. -/
  | tick (host : Float) (timing : FrameTiming)

namespace Reply

/-- Whether ticks were asked for or declined, with or without effect. -/
@[simp] def asks? : Reply → Option Bool
  | start _ => some true
  | stop _ => some false
  | tick _ _ => none

/-- The time of a tick at the host. -/
@[simp] def host? : Reply → Option Float
  | tick host _ => some host
  | _ => none

/-- How far a tick went. -/
@[simp] def delta? : Reply → Option Float
  | tick _ timing => some timing.delta
  | _ => none

/-- Whether it is a start that took effect. -/
@[simp] def isStart : Reply → Bool
  | start took => took
  | _ => false

/-- Whether it is a stop that took effect. -/
@[simp] def isStop : Reply → Bool
  | stop took => took
  | _ => false

end Reply

/-- The answer to a call. -/
def reply (l : FrameLoop) : Call → Reply
  | .start | .wake => .start l.start.2
  | .stop => .stop l.stop.2
  | .tick host => .tick host (l.tick host).2

/-- The answers to several calls. -/
def replies (l : FrameLoop) : List Call → List Reply
  | [] => []
  | c :: calls => l.reply c :: (l.after c).replies calls

/-- Whether ticks were last asked for. -/
def asked (past : List Reply) : Bool := (past.filterMap Reply.asks?).getLast?.getD false

/-- The times of the ticks at the host. -/
def hosts (past : List Reply) : List Float := past.filterMap Reply.host?

/-- What all ticks went together. -/
def elapsed (past : List Reply) : Float := (past.filterMap Reply.delta?).foldl (· + ·) 0.0

/-- Whether a start took effect and no tick came since. -/
def startedSinceTick (past : List Reply) : Bool :=
  (past.rtakeWhile fun r => r.host?.isNone).any Reply.isStart

/-! ### One more answer -/

@[simp] theorem asked_concat (past : List Reply) (r : Reply) :
    asked (past ++ [r]) = r.asks?.getD (asked past) := by
  unfold asked
  cases r <;> simp

@[simp] theorem hosts_concat (past : List Reply) (r : Reply) :
    hosts (past ++ [r]) = hosts past ++ r.host?.toList := by
  unfold hosts
  cases r <;> simp

@[simp] theorem elapsed_concat (past : List Reply) (r : Reply) :
    elapsed (past ++ [r]) = r.delta?.elim (elapsed past) (elapsed past + ·) := by
  unfold elapsed
  rw [List.filterMap_append, List.foldl_append]
  cases r <;> rfl

/-- A start has taken effect since the last tick if the last call is one, or if it is no tick
and one had before it. -/
@[simp] theorem startedSinceTick_concat (past : List Reply) (r : Reply) :
    startedSinceTick (past ++ [r]) = (r.host?.isNone && (r.isStart || startedSinceTick past)) := by
  unfold startedSinceTick
  cases r with
  | tick host timing =>
    rw [List.rtakeWhile_concat_neg _ _ _ (by simp)]
    rfl
  | start took | stop took =>
    rw [List.rtakeWhile_concat_pos _ _ _ rfl, List.any_append]
    simp [Bool.or_comm]

/-! ### One more call -/

/-- A loop that runs takes no start. -/
theorem start_of_running {l : FrameLoop} (h : l.running = true) : l.start = (l, false) := by
  rw [start, if_pos h]

/-- An idle loop takes a start. -/
theorem start_of_idle {l : FrameLoop} (h : l.running = false) :
    l.start =
      ({ l with
          running := true
          restarted := true
          link := { l.link with running := true, starts := l.link.starts + 1 } }, true) := by
  rw [start, if_neg (Bool.eq_false_iff.1 h)]

/-- A loop that runs takes a stop. -/
theorem stop_of_running {l : FrameLoop} (h : l.running = true) :
    l.stop =
      ({ l with
          running := false
          link := { l.link with running := false, stops := l.link.stops + 1 } }, true) := by
  rw [stop, if_pos h]

/-- An idle loop takes no stop. -/
theorem stop_of_idle {l : FrameLoop} (h : l.running = false) : l.stop = (l, false) := by
  rw [stop, if_neg (Bool.eq_false_iff.1 h)]

/-- Only a tick that is the first since the loop was started asks nothing of the limit. -/
theorem tick?_eq_some_iff (l : FrameLoop) (host : Float) :
    l.tick? host = some (l.tick host) ↔ l.Fresh ∨ 0.0 ≤ l.maxDelta := by
  by_cases limit : 0.0 ≤ l.maxDelta
  · exact iff_of_true (tick?_eq limit host) (.inr limit)
  · rw [or_iff_left limit]
    cases restarted : l.restarted with
    | true => simp [tick?, tick, advance?, advance, Fresh, restarted]
    | false =>
      cases lastHost : l.lastHost with
      | none => simp [tick?, tick, advance?, advance, Fresh, restarted, lastHost]
      | some last =>
        simp [tick?, advance?, Fresh, restarted, lastHost, Double.clamp?, limit]

/-- A start takes effect if the loop is idle. -/
theorem took_start (l : FrameLoop) : l.start.2 = !l.running := by
  cases runs : l.running with
  | true => rw [start_of_running runs, Bool.not_true]
  | false => rw [start_of_idle runs, Bool.not_false]

/-- A stop takes effect if the loop runs. -/
theorem took_stop (l : FrameLoop) : l.stop.2 = l.running := by
  cases runs : l.running with
  | true => rw [stop_of_running runs]
  | false => rw [stop_of_idle runs]

/-- A stop leaves the time and the number of ticks. -/
theorem clock_stop (l : FrameLoop) : l.stop.1.now = l.now ∧ l.stop.1.frame = l.frame := by
  cases runs : l.running with
  | true => simp [stop_of_running runs]
  | false => simp [stop_of_idle runs]

/-- The subscription of a loop, as the calls and answers so far have it. -/
structure Subscribed (past : List Reply) (l : FrameLoop) : Prop where
  link : l.link.running = l.running
  running : l.running = asked past
  starts : l.link.starts = past.countP Reply.isStart
  stops : l.link.stops = past.countP Reply.isStop
  balance : l.link.starts = l.link.stops + l.running.toNat

/-- The clock of a loop with these limits, as the calls and answers so far have it. -/
structure Clocked (interval maxDelta : Float) (past : List Reply) (l : FrameLoop) : Prop where
  interval : l.interval = interval
  maxDelta : l.maxDelta = maxDelta
  restarted : l.restarted = startedSinceTick past
  lastHost : l.lastHost = (hosts past).getLast?
  now : l.now = elapsed past
  frame : l.frame = (hosts past).length

variable {interval maxDelta : Float} {past : List Reply} {l : FrameLoop}

namespace Subscribed

/-- A start keeps the subscription as it should be. -/
theorem start (h : Subscribed past l) : Subscribed (past ++ [.start l.start.2]) l.start.1 := by
  cases runs : l.running with
  | true =>
    rw [start_of_running runs]
    exact {
      link := h.link
      running := by simp [runs]
      starts := by simp [h.starts]
      stops := by simp [h.stops]
      balance := h.balance }
  | false =>
    have balance : l.link.starts = l.link.stops := by simpa [runs] using h.balance
    rw [start_of_idle runs]
    exact {
      link := rfl
      running := by simp
      starts := by simp [h.starts]
      stops := by simp [h.stops]
      balance := by simp [balance] }

/-- So does a stop. -/
theorem stop (h : Subscribed past l) : Subscribed (past ++ [.stop l.stop.2]) l.stop.1 := by
  cases runs : l.running with
  | true =>
    have balance : l.link.starts = l.link.stops + 1 := by simpa [runs] using h.balance
    rw [stop_of_running runs]
    exact {
      link := rfl
      running := by simp
      starts := by simp [h.starts]
      stops := by simp [h.stops]
      balance := by simp [balance] }
  | false =>
    rw [stop_of_idle runs]
    exact {
      link := h.link
      running := by simp [runs]
      starts := by simp [h.starts]
      stops := by simp [h.stops]
      balance := h.balance }

/-- A call keeps the subscription as it should be; a tick does not touch it. -/
theorem after (h : Subscribed past l) (c : Call) :
    Subscribed (past ++ [l.reply c]) (l.after c) := by
  cases c with
  | start | wake => exact h.start
  | stop => exact h.stop
  | tick host =>
    exact {
      link := h.link
      running := by simpa [reply, FrameLoop.after, tick] using h.running
      starts := by simpa [reply, FrameLoop.after, tick] using h.starts
      stops := by simpa [reply, FrameLoop.after, tick] using h.stops
      balance := h.balance }

end Subscribed

namespace Clocked

/-- A call keeps the clock as it should be: a start only leaves word for the next tick, and
a stop nothing at all. -/
theorem after (h : Clocked interval maxDelta past l) (c : Call) :
    Clocked interval maxDelta (past ++ [l.reply c]) (l.after c) := by
  have hstart : Clocked interval maxDelta (past ++ [.start l.start.2]) l.start.1 := by
    unfold FrameLoop.start
    split <;> constructor <;>
      simp [h.interval, h.maxDelta, h.restarted, h.lastHost, h.now, h.frame]
  have hstop : Clocked interval maxDelta (past ++ [.stop l.stop.2]) l.stop.1 := by
    unfold FrameLoop.stop
    split <;> constructor <;>
      simp [h.interval, h.maxDelta, h.restarted, h.lastHost, h.now, h.frame]
  cases c with
  | start | wake => exact hstart
  | stop => exact hstop
  | tick host =>
    exact { h with
      restarted := by simp [reply, FrameLoop.after, tick]
      lastHost := by simp [reply, FrameLoop.after, tick]
      now := by simp [reply, FrameLoop.after, tick, h.now]
      frame := by simp [reply, FrameLoop.after, tick, h.frame] }

/-- The next tick is the first since the loop was started, or the first of all, if the
answers so far say so. -/
theorem fresh_iff (h : Clocked interval maxDelta past l) :
    l.Fresh ↔ startedSinceTick past = true ∨ hosts past = [] := by
  rw [Fresh, h.restarted, h.lastHost, List.getLast?_eq_none_iff]

/-- Any other tick goes by the time since the last one, within the limit. -/
theorem advance_of_last (h : Clocked interval maxDelta past l)
    (hs : startedSinceTick past = false) {last : Float} (hl : (hosts past).getLast? = some last)
    (host : Float) : l.advance host = Double.clamp (host - last) 0.0 maxDelta := by
  rw [advance, h.restarted, hs, h.lastHost, hl, h.maxDelta]
  rfl

end Clocked

/-! ### Runs -/

/-- Calls keep the subscription and the clock as they should be. -/
theorem follows_afterAll (calls : List Call) {past : List Reply} {l : FrameLoop}
    (subscribed : Subscribed past l) (clocked : Clocked interval maxDelta past l) :
    Subscribed (past ++ l.replies calls) (l.afterAll calls) ∧
      Clocked interval maxDelta (past ++ l.replies calls) (l.afterAll calls) := by
  induction calls generalizing past l with
  | nil => simpa [replies] using ⟨subscribed, clocked⟩
  | cons c calls ih =>
    have next := ih (subscribed.after c) (clocked.after c)
    rw [List.append_assoc] at next
    exact next

/-- **A loop follows its calls.** Take a new loop with any limits and any calls.

The host's link runs if the loop does, and that is if ticks were last asked for and not declined.
The link was started and stopped as often as a start and a stop took effect; it was started once
more than stopped if the loop runs, and else as often. A start takes effect, from wherever it comes,
if the loop is idle, and a stop if it runs.

A tick goes by the default interval if a start took effect since the last tick, or if there was
none. Any other one goes by the time since the last tick at the host, brought between nothing and
the limit, and the limit must not be below zero. The loop's time is the sum of what the ticks went,
and it counts them; a stop changes neither. -/
theorem follows_calls (interval maxDelta : Float) (calls : List Call) :
    let new : FrameLoop := { interval, maxDelta }
    let l := new.afterAll calls
    let past := new.replies calls
    (l.link.running = l.running ∧ l.running = asked past ∧
      l.link.starts = past.countP Reply.isStart ∧ l.link.stops = past.countP Reply.isStop ∧
      l.link.starts = l.link.stops + l.running.toNat) ∧
    (l.reply .start = .start (!l.running) ∧ l.reply .wake = .start (!l.running) ∧
      l.reply .stop = .stop l.running) ∧
    (∀ host, (startedSinceTick past = true ∨ hosts past = [] → (l.tick host).2.delta = interval) ∧
      (∀ last, startedSinceTick past = false → (hosts past).getLast? = some last →
        (l.tick host).2.delta = Double.clamp (host - last) 0.0 maxDelta) ∧
      (l.tick? host = some (l.tick host) ↔
        startedSinceTick past = true ∨ hosts past = [] ∨ 0.0 ≤ maxDelta)) ∧
    (∀ host, (l.tick host).2.now = l.now + (l.tick host).2.delta ∧
      (l.tick host).2.frame = l.frame + 1) ∧
    l.now = elapsed past ∧ l.frame = (hosts past).length ∧
    l.stop.1.now = l.now ∧ l.stop.1.frame = l.frame := by
  intro new l past
  have subscribed : Subscribed [] new := ⟨rfl, rfl, rfl, rfl, rfl⟩
  have clocked : Clocked interval maxDelta [] new := ⟨rfl, rfl, rfl, rfl, rfl, rfl⟩
  obtain ⟨link, clock⟩ : Subscribed past l ∧ Clocked interval maxDelta past l :=
    follows_afterAll calls subscribed clocked
  refine ⟨⟨link.link, link.running, link.starts, link.stops, link.balance⟩,
    ⟨congrArg Reply.start l.took_start, congrArg Reply.start l.took_start,
      congrArg Reply.stop l.took_stop⟩, fun host => ⟨?_, ?_, ?_⟩, fun _ => ⟨rfl, rfl⟩,
    clock.now, clock.frame, l.clock_stop⟩
  · intro fresh
    exact (advance_of_fresh (clock.fresh_iff.2 fresh) host).trans clock.interval
  · intro last notStarted hl
    exact clock.advance_of_last notStarted hl host
  · rw [tick?_eq_some_iff, clock.fresh_iff, clock.maxDelta, or_assoc]

/-- A start counts for the next tick if it is undone before; a tick counts that comes
while the loop is idle. -/
example :
    let l : FrameLoop := { interval := 16.0, maxDelta := 100.0 }
    (l.replies [.tick 5.0, .start, .stop, .tick 900.0, .tick 910.0, .wake, .start, .tick 5000.0,
      .tick 4990.0]).filterMap Reply.delta? = [16.0, 16.0, 10.0, 16.0, 0.0] := by
  decide +kernel

end FrameLoop

end MotionGraph
