import MotionGraph.Motion.Basic
import MotionGraph.Motion.Iterations
import MotionGraph.Number.Style

/-!
# Settings of motions

A motion is described by a JSON value, which is read in two steps like that of a node:
`MotionConfig.ofJson?` for what it says, `MotionConfig.build` for what is wrong with it.
-/

namespace MotionGraph

/-- A motion as it is written. -/
inductive MotionConfig where
  | timing (goal : Float) (duration : Option Float) (frames : Option (List Float))
      (easing : Option Easing) (iterations : Option Int) (delay : Option Float)
  | spring (spring : Spring) (iterations : Option Int)
  | decay (decay : Decay) (iterations : Option Int)
  | clock

/-- What can be wrong with the description of a motion. -/
inductive MotionError where
  /-- It has not the shape of any motion. -/
  | shape
  /-- A number is infinite. -/
  | notFinite (name : String)
  /-- A number that must not be negative is, or is infinite. -/
  | negative (name : String) (x : Float)
  /-- The mass is zero, negative or infinite. -/
  | mass (x : Float)
  /-- The part of the velocity that is left is not strictly between nothing and all. -/
  | deceleration (x : Float)
  /-- A table of progress is empty or has an infinite entry. -/
  | frames
  | easing (cause : EasingError)
  | iterations (cause : IterationsError)

/-- What the user is told. -/
def MotionError.message : MotionError → String
  | .shape => "unreadable"
  | .notFinite name => name ++ " must be finite"
  | .negative name x => name ++ " must be non-negative, got " ++ NumberStyle.message.render x
  | .mass x => "mass must be positive, got " ++ NumberStyle.message.render x
  | .deceleration x => "deceleration must lie in (0, 1), got " ++ NumberStyle.message.render x
  | .frames => "frames must be a non-empty list of numbers"
  | .easing cause => cause.message
  | .iterations cause => cause.message

namespace MotionConfig

/-- The names of all motions. -/
def alternatives : List String := ["timing", "spring", "decay", "clock"]

/-- The name of a motion. -/
def name : MotionConfig → String
  | .timing _ _ _ _ _ _ => "timing"
  | .spring _ _ => "spring"
  | .decay _ _ => "decay"
  | .clock => "clock"

/-- The description that a named motion and its fields stand for. -/
def ofFields? (name : String) (fields : Json.Fields) : Option MotionConfig :=
  match name with
  | "timing" => do
    let [goal, duration, frames, easing, iterations, delay] ← fields.select?
      ["toValue", "duration", "frames", "easing", "iterations", "delay"] | none
    return .timing (← Json.required? Json.toFloat? goal) (← Json.optional? Json.toFloat? duration)
      (← Json.optional? (Json.toList? Json.toFloat?) frames)
      (← Json.optional? (Easing.ofJson? true) easing)
      (← Json.optional? Json.toInt64? iterations) (← Json.optional? Json.toFloat? delay)
  | "spring" => do
    let [goal, stiffness, damping, mass, velocity, clamping, displacement, speed, iterations] ←
      fields.select? ["toValue", "stiffness", "damping", "mass", "initialVelocity",
        "overshootClamping", "restDisplacementThreshold", "restSpeedThreshold", "iterations"]
      | none
    let usual : Spring := { goal := ← Json.required? Json.toFloat? goal }
    return .spring
      { usual with
        stiffness := ← Json.defaulted? usual.stiffness Json.toFloat? stiffness
        damping := ← Json.defaulted? usual.damping Json.toFloat? damping
        mass := ← Json.defaulted? usual.mass Json.toFloat? mass
        initialVelocity := ← Json.defaulted? usual.initialVelocity Json.toFloat? velocity
        overshootClamping := ← Json.defaulted? usual.overshootClamping Json.toBool? clamping
        restDisplacement := ← Json.defaulted? usual.restDisplacement Json.toFloat? displacement
        restSpeed := ← Json.defaulted? usual.restSpeed Json.toFloat? speed }
      (← Json.optional? Json.toInt64? iterations)
  | "decay" => do
    let [velocity, deceleration, iterations] ← fields.select?
      ["velocity", "deceleration", "iterations"] | none
    let usual : Decay := { initialVelocity := ← Json.required? Json.toFloat? velocity }
    return .decay
      { usual with
        deceleration := ← Json.defaulted? usual.deceleration Json.toFloat? deceleration }
      (← Json.optional? Json.toInt64? iterations)
  | "clock" => do
    let [] ← fields.select? [] | none
    return .clock
  | _ => none

/-- The description that a JSON value stands for. -/
def ofJson? (j : Json) : Option MotionConfig := do
  let (name, fields) ← Json.choice? alternatives false j
  ofFields? name fields

/-- Complains about a number that is infinite or no number. -/
def finite (name : String) (x : Float) : Except MotionError Unit :=
  if x.isFinite then .ok () else .error (.notFinite name)

/-- Complains about a number that is negative, infinite or no number. -/
def nonNegative (name : String) (x : Float) : Except MotionError Unit :=
  if x.isFinite && 0.0 ≤ x then .ok () else .error (.negative name x)

/-- The repetition asked for. -/
def repetition (n : Option Int) : Except MotionError Iterations :=
  (Iterations.ofInt? n).mapError .iterations

/-- The curve that a timed motion asks for. A table counts more than a duration and an easing. -/
def curve (duration : Option Float) (frames : Option (List Float)) (easing : Option Easing) :
    Except MotionError ProgressCurve :=
  match frames with
  | some frames =>
    if frames.isEmpty || !frames.all Float.isFinite then .error .frames else .ok (.table frames)
  | none => do
    let duration := duration.getD Timing.defaultDuration
    nonNegative "duration" duration
    let easing := easing.getD .easeInOut
    easing.check.mapError .easing
    .ok (.eased duration easing)

/-- The motion described and how often it runs. -/
def build : MotionConfig → Except MotionError (Motion × Iterations)
  | .timing goal duration frames easing iterations delay => do
    finite "toValue" goal
    let delay := delay.getD 0.0
    nonNegative "delay" delay
    let curve ← curve duration frames easing
    let iterations ← repetition iterations
    .ok (.timing { goal, curve, delay }, iterations)
  | .spring s iterations => do
    finite "toValue" s.goal
    finite "initialVelocity" s.initialVelocity
    nonNegative "stiffness" s.stiffness
    nonNegative "damping" s.damping
    nonNegative "restDisplacementThreshold" s.restDisplacement
    nonNegative "restSpeedThreshold" s.restSpeed
    if !(s.mass.isFinite && 0.0 < s.mass) then .error (.mass s.mass)
    else
      let iterations ← repetition iterations
      .ok (.spring s, iterations)
  | .decay d iterations => do
    finite "velocity" d.initialVelocity
    if !(0.0 < d.deceleration && d.deceleration < 1.0) then .error (.deceleration d.deceleration)
    else
      let iterations ← repetition iterations
      .ok (.decay d, iterations)
  | .clock => .ok (.clock, .count 1)

end MotionConfig

/-- The motion that a JSON value describes and how often it runs. -/
def Motion.ofJson (j : Json) : Except MotionError (Motion × Iterations) :=
  match MotionConfig.ofJson? j with
  | some config => config.build
  | none => .error .shape

end MotionGraph
