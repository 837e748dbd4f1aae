import MotionGraph.Driver.Set
import MotionGraph.Motion.Config
import MotionGraph.Proofs.Graph.Roles

/-!
# Motions that end at their goal

A timed motion and a spring that pulls have a goal (`Motion.goal?`), which they keep as they begin
and go on, and the value with which they come to their end is the goal itself
(`Motion.value_of_finished`). The goal of a motion that is read from data is the number under
`toValue` (`Motion.goal?_ofJson`).

So a driver of such a motion goes on or hands its node the goal (`DriverSet.advance_goal`).
-/

namespace MotionGraph

/-! ### Goals -/

/-- The value that a motion ends at, if it ends at one of its own. -/
def Motion.goal? : Motion → Option Float
  | .timing m => some m.goal
  | .spring s => if s.stiffness != 0.0 then some s.goal else none
  | .decay _ | .clock => none

namespace Spring

/-- Moving keeps the goal of a spring. -/
@[simp] theorem goal_move (s : Spring) (delta : Float) : (s.move delta).goal = s.goal := by
  unfold move advance
  dsimp only
  split <;> rfl

/-- Moving keeps the stiffness of a spring. -/
@[simp] theorem stiffness_move (s : Spring) (delta : Float) :
    (s.move delta).stiffness = s.stiffness := by
  unfold move advance
  dsimp only
  split <;> rfl

/-- Arriving keeps the goal of a spring. -/
@[simp] theorem goal_arrive (s : Spring) : s.arrive.goal = s.goal := by
  unfold arrive
  split <;> rfl

/-- Arriving keeps the stiffness of a spring. -/
@[simp] theorem stiffness_arrive (s : Spring) : s.arrive.stiffness = s.stiffness := by
  unfold arrive
  split <;> rfl

end Spring

/-- A table comes to its end with the goal. -/
theorem Timing.value_of_finished_table {m : Timing} {frames : List Float} {index : Option Nat} :
    (m.tableSample frames index).finished = true → (m.tableSample frames index).value = m.goal := by
  unfold tableSample
  split
  · exact fun _ => rfl
  · split
    · split
      · exact fun h => nomatch h
      · exact fun _ => rfl
    · exact fun _ => rfl

/-- A timed motion comes to its end with its goal. -/
theorem Timing.value_of_finished {m : Timing} {elapsed : Float} :
    (m.sample elapsed).finished = true → (m.sample elapsed).value = m.goal := by
  unfold sample
  dsimp only
  split
  · exact fun h => nomatch h
  · split
    · split
      · exact fun _ => rfl
      · exact fun h => nomatch h
    · exact value_of_finished_table

namespace Motion

/-- A motion begins with its goal. -/
@[simp] theorem goal?_reset (m : Motion) (start : Float) :
    (Animation.reset m start).goal? = m.goal? := by
  cases m <;> rfl

/-- A motion goes on with its goal. -/
@[simp] theorem goal?_step (m : Motion) (frame : FrameTime) :
    (Animation.step m frame).1.goal? = m.goal? := by
  cases m with
  | spring s =>
    simp only [Animation.step, Prod.map]
    split <;> simp [goal?]
  | _ => rfl

/-- **A motion comes to its end with its goal.** -/
theorem value_of_finished {m : Motion} {v : Float} (hm : m.goal? = some v) {frame : FrameTime}
    (h : (Animation.step m frame).2.finished = true) : (Animation.step m frame).2.value = v := by
  cases m with
  | timing m =>
    rw [goal?, Option.some.injEq] at hm
    rw [← hm]
    exact Timing.value_of_finished h
  | spring s =>
    rw [goal?] at hm
    split at hm
    · next hs =>
      rw [Option.some.injEq] at hm
      simp only [Animation.step, Prod.map] at h ⊢
      split at h
      · next hrest =>
        rw [if_pos hrest]
        simp [Spring.arrive, hs, hm]
      · cases h
    · cases hm
  | decay d => cases hm
  | clock => cases hm

end Motion

/-! ### Goals that are read from data -/

/-- What is written into a field is read from it. -/
theorem Json.lookup?_insertField (name : String) (value : Json) (fields : List (String × Json)) :
    Json.lookup? name (Json.insertField name value fields) = some value := by
  induction fields with
  | nil => simp [insertField, lookup?]
  | cons f fields ih =>
    obtain ⟨n, v⟩ := f
    unfold insertField
    split
    · simp [lookup?]
    · split
      · simp [lookup?]
      · next hne =>
        have hn : ¬n = name := fun h => hne h.symm
        rw [← ih]
        simp [lookup?, hn]

/-- The goal that a description names. -/
def MotionConfig.goal? : MotionConfig → Option Float
  | .timing goal _ _ _ _ _ => some goal
  | .spring s _ => some s.goal
  | .decay _ _ | .clock => none

/-- A motion whose description names a goal names the number under `toValue`. -/
theorem MotionConfig.goal?_ofFields {name : String} {fields : List (String × Json)} {x : Float}
    (hx : Json.lookup? "toValue" fields = some (.number (.real x))) {c : MotionConfig}
    (h : ofFields? name (.named fields) = some c) {v : Float} (hv : c.goal? = some v) : v = x := by
  have read : ∀ {goal}, Json.required? Json.toFloat? (Json.lookup? "toValue" fields) = some goal →
      goal = x := by
    intro goal hg
    rw [hx] at hg
    exact (Option.some.inj hg).symm
  unfold ofFields? at h
  split at h
  case h_5 => cases h
  all_goals
    simp only [Json.Fields.select?, List.map_cons, List.map_nil, Option.bind_eq_bind,
      Option.bind_some, Option.bind_eq_some_iff, Option.pure_def, Option.some.injEq] at h
  · obtain ⟨goal, hg, _, _, _, _, _, _, _, _, _, _, rfl⟩ := h
    exact (Option.some.inj hv).symm.trans (read hg)
  · obtain ⟨goal, hg, _, _, _, _, _, _, _, _, _, _, _, _, _, _, _, _, rfl⟩ := h
    exact (Option.some.inj hv).symm.trans (read hg)
  · obtain ⟨_, _, _, _, _, _, rfl⟩ := h
    cases hv
  · subst h
    cases hv

/-- The goal that a motion is to end at, if its description names one and it is drawn there. -/
def MotionConfig.aim? : MotionConfig → Option Float
  | .timing goal _ _ _ _ _ => some goal
  | .spring s _ => if s.stiffness != 0.0 then some s.goal else none
  | .decay _ _ | .clock => none

/-- A motion that is made from a description has the goal that this names. -/
theorem MotionConfig.goal?_of_build {c : MotionConfig} {m : Motion} {i : Iterations}
    (built : c.build = .ok (m, i)) : m.goal? = c.aim? := by
  cases c with
  | timing goal duration frames easing iterations delay =>
    simp only [build, except_bind_eq_ok] at built
    obtain ⟨_, _, _, _, _, _, _, _, h⟩ := built
    cases h
    rfl
  | spring s iterations =>
    simp only [build, except_bind_eq_ok] at built
    obtain ⟨_, _, _, _, _, _, _, _, _, _, _, _, h⟩ := built
    split at h
    · cases h
    · obtain ⟨_, _, h⟩ := except_bind_eq_ok.1 h
      cases h
      rfl
  | decay d iterations =>
    simp only [build, except_bind_eq_ok] at built
    obtain ⟨_, _, h⟩ := built
    split at h
    · cases h
    · obtain ⟨_, _, h⟩ := except_bind_eq_ok.1 h
      cases h
      rfl
  | clock =>
    cases built
    rfl

/-- A motion that has a goal has the one that its description names. -/
theorem MotionConfig.goal?_build {c : MotionConfig} {m : Motion} {i : Iterations}
    (h : c.build = .ok (m, i)) {v : Float} (hv : m.goal? = some v) : c.goal? = some v := by
  rw [goal?_of_build h] at hv
  cases c with
  | timing => exact hv
  | spring s iterations =>
    rw [aim?] at hv
    split at hv
    · exact hv
    · cases hv
  | decay => cases hv
  | clock => cases hv

/-- **A motion is led to the number under `toValue`**, if it has a goal. -/
theorem Motion.goal?_ofJson {template : List (String × Json)} {x v : Float} (hx : x.isFinite = true)
    {m : Motion} {i : Iterations}
    (h : ofJson (.object (Json.insertField "toValue" (Json.ofFloat x) template)) = .ok (m, i))
    (hv : m.goal? = some v) : v = x := by
  unfold ofJson at h
  split at h
  · next config hc =>
    have named := MotionConfig.goal?_build h hv
    simp only [MotionConfig.ofJson?, Option.bind_eq_bind, Option.bind_eq_some_iff] at hc
    obtain ⟨⟨name, fields⟩, hchoice, hfields⟩ := hc
    obtain rfl : fields = .named (Json.insertField "toValue" (Json.ofFloat x) template) := by
      unfold Json.choice? at hchoice
      dsimp only at hchoice
      split at hchoice
      · obtain ⟨_, _, hchoice⟩ := Option.map_eq_some_iff.1 hchoice
        exact (congrArg Prod.snd hchoice).symm
      · cases hchoice
    refine MotionConfig.goal?_ofFields ?_ hfields named
    rw [Json.lookup?_insertField, Json.ofFloat, if_pos hx]
  · cases h

/-! ### Drivers -/

namespace Driver

variable {κ : Type} {d : Driver Motion κ} {v : Float}

/-- The end of a run keeps the goal. -/
@[simp] theorem goal?_endRun (d : Driver Motion κ) (now : Float) :
    (d.endRun now).animation.goal? = d.animation.goal? := by
  unfold endRun
  dsimp only
  split
  · exact Motion.goal?_reset _ _
  · rfl

/-- A driver that is led to a goal keeps it, and goes on or gives the goal. -/
theorem advance_goal (hd : d.animation.goal? = some v) (hs : d.state.isActive = true)
    (now : Float) :
    (d.advance now).1.animation.goal? = some v ∧
      ((d.advance now).1.state.isActive = true ∨ (d.advance now).2 = v) := by
  unfold advance
  dsimp only
  split
  · next hf =>
    refine ⟨?_, Or.inr (Motion.value_of_finished hd hf)⟩
    rw [goal?_endRun, Motion.goal?_step, hd]
  · refine ⟨?_, Or.inl hs⟩
    rw [Motion.goal?_step, hd]

/-- In a frame a driver that is led to a goal keeps it, and goes on or gives the goal. -/
theorem step_goal (hd : d.animation.goal? = some v) (hs : d.state.isActive = true)
    (now current : Float) :
    ∃ x, (d.step now current).2 = some x ∧ (d.step now current).1.animation.goal? = some v ∧
      ((d.step now current).1.state.isActive = true ∨ x = v) := by
  unfold step
  split
  · have begun : (d.begin now current).animation.goal? = some v :=
      (Motion.goal?_reset _ _).trans hd
    exact ⟨_, rfl, advance_goal begun rfl now⟩
  · exact ⟨_, rfl, advance_goal hd hs now⟩
  · next hstate => simp [hstate, DriverState.isActive] at hs
  · next hstate => simp [hstate, DriverState.isActive] at hs

end Driver

/-- **In a frame a driver that is led to a goal goes on, or hands its node the goal**, if
the node holds a number. -/
theorem DriverSet.advance_goal {κ : Type} {g : Graph} {d : Driver Motion κ} {v : Float}
    (hd : d.animation.goal? = some v) (hs : d.state.isActive = true) (ht : g.holds d.target = true)
    (now : Float) :
    ∃ x, (advance now g d).2 = some (d.target, x) ∧ (advance now g d).1.animation.goal? = some v ∧
      ((advance now g d).1.state.isActive = true ∨ x = v) := by
  obtain ⟨n, hn⟩ := Graph.exists_holder_of_holds ht
  obtain ⟨x, hx, hgoal, hend⟩ := Driver.step_goal hd hs now n.base
  refine ⟨x, ?_, ?_, ?_⟩
  · rw [advance, if_pos hs, hn]
    dsimp only
    rw [hx]
    rfl
  · rw [advance, if_pos hs, hn]
    exact hgoal
  · rw [advance, if_pos hs, hn]
    exact hend

end MotionGraph
