import MotionGraph.Proofs.Motion.Arrival
import MotionGraph.Proofs.Number.Opposites

/-!
# Springs in the mirror

Turn the signs of the value that a spring begins from, of its goal and of its first velocity
(`Spring.mirror`). What then happens is the mirror image of what happened before
(`Spring.MirrorImage`): the place and the velocity of a spring are sums of multiples of its distance
and its velocity, and the factors depend on the time and on the spring alone
(`MirrorImage.advance`).

Only the end of a spring is not quite symmetric. A spring whose overshooting counts is over when it
goes beyond its goal. What was below its goal one frame ago goes beyond it upward, and everything
else downward, which includes a spring that was at its goal. If a frame takes such a spring off its
goal (`Spring.StepsOff`), then it is over if it goes down, and it goes on if it goes up
(`MirrorImage.atRest_of_stepsOff`, and `Spring.kicked_not_mirrored` for one that does). Nothing else
tells the two springs apart: `Spring.mirrored_unless_stepsOff`.
-/

namespace MotionGraph

/-! ### Runs of an animation -/

namespace Animation

variable {α : Type} [Animation α]

/-- The animation after several frames. -/
def through (a : α) (frames : List FrameTime) : α := frames.foldl (fun a f => (step a f).1) a

/-- What an animation gives for several frames. -/
def samples (a : α) : List FrameTime → List Sample
  | [] => []
  | f :: frames => (step a f).2 :: samples (step a f).1 frames

end Animation

/-- Whether a sample has the value of another one negated, as a number, and the same word on the
end. -/
def Sample.Mirrors (a b : Sample) : Prop :=
  Double.Matches b.value (-a.value) ∧ b.finished = a.finished

namespace Spring

/-- The spring whose goal and whose first velocity have the other sign. -/
def mirror (s : Spring) : Spring :=
  { s with goal := -s.goal, initialVelocity := -s.initialVelocity }

/-- Whether a spring is slow, and near its goal unless it does not pull. -/
def isStill (s : Spring) : Bool :=
  s.velocity.abs < s.restSpeed &&
    (s.stiffness == 0.0 || (s.goal - s.position).abs < s.restDisplacement)

/-- A spring is at its end if it has gone beyond its goal where that counts, or stands still. -/
theorem atRest_eq (s : Spring) : s.atRest = (s.overshoots || s.isStill) := rfl

/-- When a spring goes beyond its goal: where that counts, and seen from below if it was below the
goal one frame ago, else from above. -/
theorem overshoots_iff (s : Spring) :
    s.overshoots = true ↔ s.overshootClamping = true ∧ (s.stiffness != 0.0) = true ∧
      if s.previous < s.goal then s.goal < s.position else s.position < s.goal := by
  rw [overshoots, Bool.and_eq_true, Bool.and_eq_true, and_assoc]
  split <;> simp only [decide_eq_true_eq]

/-- What a frame does to a spring. -/
theorem step_eq (s : Spring) (f : FrameTime) :
    Animation.step s f =
      if (s.move f.delta).atRest then
        ((s.move f.delta).arrive, ⟨(s.move f.delta).arrive.position, true⟩)
      else (s.move f.delta, ⟨(s.move f.delta).position, false⟩) := rfl

/-- The sample of a frame says whether the spring is at its end. -/
theorem finished_step (s : Spring) (f : FrameTime) :
    (Animation.step s f).2.finished = (s.move f.delta).atRest := by
  rw [step_eq]
  split
  · next ends => exact ends.symm
  · next goesOn => exact (Bool.eq_false_iff.2 goesOn).symm

/-- Whether a spring whose overshooting counts was on neither side of its goal one frame ago, is on
one of them now, and does not stand still. -/
structure StepsOff (s : Spring) : Prop where
  clamped : s.overshootClamping = true
  pulls : (s.stiffness != 0.0) = true
  notBelow : ¬s.previous < s.goal
  notAbove : ¬s.goal < s.previous
  off : s.position < s.goal ∨ s.goal < s.position
  moving : s.isStill = false

/-- Whether a spring is the mirror image of another one: the same but for the signs of where it is,
where it goes and how fast. -/
structure MirrorImage (s s' : Spring) : Prop where
  stiffness : s'.stiffness = s.stiffness
  damping : s'.damping = s.damping
  mass : s'.mass = s.mass
  overshootClamping : s'.overshootClamping = s.overshootClamping
  restDisplacement : s'.restDisplacement = s.restDisplacement
  restSpeed : s'.restSpeed = s.restSpeed
  goal : Double.Opposite s.goal s'.goal
  position : Double.Opposite s.position s'.position
  velocity : Double.Opposite s.velocity s'.velocity
  previous : Double.Opposite s.previous s'.previous

namespace MirrorImage

variable {s s' : Spring}

/-- A mirrored spring begins as the mirror image, from the negated value. -/
theorem reset (s : Spring) (start : Float) :
    MirrorImage (Animation.reset s start) (Animation.reset s.mirror (-start)) where
  stiffness := rfl
  damping := rfl
  mass := rfl
  overshootClamping := rfl
  restDisplacement := rfl
  restSpeed := rfl
  goal := .of_neg s.goal
  position := .of_neg start
  velocity := .of_neg s.initialVelocity
  previous := .of_neg start

/-- Mirror images stay so over some seconds: where they are and how fast depends on their distances
from the goal and on their velocities by sums and by multiples that are the same for both. -/
theorem advance (h : MirrorImage s s') (t : Float) : MirrorImage (s.advance t) (s'.advance t) := by
  have distance : Double.Opposite (s.goal - s.position) (s'.goal - s'.position) :=
    h.goal.sub h.position
  have speed : Double.Opposite (-s.velocity) (-s'.velocity) := h.velocity.neg
  unfold Spring.advance
  dsimp only
  rw [h.stiffness, h.damping, h.mass]
  split
  · have push (c : Float) := speed.add (distance.mul_left c)
    have fragment (e a b c d : Float) :=
      (((push c).div_right d).mul_left a |>.add (distance.mul_right b)).mul_left e
    exact { h with
      stiffness := rfl
      damping := rfl
      mass := rfl
      position := h.goal.sub (fragment _ _ _ _ _)
      velocity := ((fragment _ _ _ _ _).mul_left _).sub
        ((((push _).mul_left _).sub ((distance.mul_left _).mul_right _)).mul_left _) }
  · exact { h with
      stiffness := rfl
      damping := rfl
      mass := rfl
      position := h.goal.sub
        ((distance.add ((speed.add (distance.mul_left _)).mul_right _)).mul_left _)
      velocity := ((speed.mul_right _).add
        (((distance.mul_left _).mul_right _).mul_right _)).mul_left _ }

/-- Mirror images stay so over a frame. -/
theorem move (h : MirrorImage s s') (delta : Float) : MirrorImage (s.move delta) (s'.move delta) :=
  have began : MirrorImage { s with previous := s.position } { s' with previous := s'.position } :=
    { h with previous := h.position }
  began.advance _

/-- Mirror images that are put at their goals are mirror images. -/
theorem arrive (h : MirrorImage s s') : MirrorImage s.arrive s'.arrive := by
  have still : Double.Opposite 0.0 0.0 := by
    rw [Double.Opposite, Double.unpack_zero]
    exact .zero .positive .positive
  unfold Spring.arrive
  rw [h.stiffness]
  split
  · exact { h with stiffness := rfl, velocity := still, position := h.goal }
  · exact h

/-- Mirror images stand still at once. -/
theorem isStill_eq (h : MirrorImage s s') : s'.isStill = s.isStill := by
  have distance : (s.goal - s.position).abs = (s'.goal - s'.position).abs :=
    (h.goal.sub h.position).abs
  rw [isStill, isStill, h.restSpeed, h.stiffness, h.restDisplacement, ← h.velocity.abs, ← distance]

/-- A mirror image goes beyond its goal where the spring is beyond it on the side of the goal that a
frame which begins at the goal is not taken to come from. -/
theorem overshoots_iff (h : MirrorImage s s') :
    s'.overshoots = true ↔ s.overshootClamping = true ∧ (s.stiffness != 0.0) = true ∧
      if s.goal < s.previous then s.position < s.goal else s.goal < s.position := by
  rw [Spring.overshoots_iff, h.overshootClamping, h.stiffness]
  simp only [← h.goal.lt_iff h.previous, ← h.goal.lt_iff h.position, ← h.position.lt_iff h.goal]

/-- Mirror images end together, unless the frame takes them off their goals. -/
theorem atRest_eq_of_not_stepsOff (h : MirrorImage s s') (hs : ¬s.StepsOff) :
    s'.atRest = s.atRest := by
  cases still : s.isStill with
  | true => rw [atRest_eq, atRest_eq, h.isStill_eq, still, Bool.or_true, Bool.or_true]
  | false =>
    rw [atRest_eq, atRest_eq, h.isStill_eq, still, Bool.or_false, Bool.or_false, Bool.eq_iff_iff,
      h.overshoots_iff, Spring.overshoots_iff]
    refine and_congr_right fun clamped => and_congr_right fun pulls => ?_
    by_cases below : s.previous < s.goal
    · rw [if_neg (Double.lt_asymm below), if_pos below]
    · by_cases above : s.goal < s.previous
      · rw [if_pos above, if_neg below]
      · -- What remains began at the goal, or has no place; then it has not left for either side.
        have on : ¬(s.position < s.goal ∨ s.goal < s.position) := fun off =>
          hs ⟨clamped, pulls, below, above, off, still⟩
        rw [if_neg above, if_neg below]
        exact iff_of_false (fun h => on (.inr h)) fun h => on (.inl h)

/-- **Of mirror images that a frame takes off their goals only the one that goes down ends.** -/
theorem atRest_of_stepsOff (h : MirrorImage s s') (hs : s.StepsOff) :
    (s.atRest = true ↔ s.position < s.goal) ∧ (s'.atRest = true ↔ s.goal < s.position) := by
  rw [atRest_eq, atRest_eq, h.isStill_eq, hs.moving, Bool.or_false, Bool.or_false,
    h.overshoots_iff, Spring.overshoots_iff, if_neg hs.notAbove, if_neg hs.notBelow]
  simp only [hs.clamped, hs.pulls, true_and, and_self]

/-- So they do not end together. -/
theorem atRest_ne_of_stepsOff (h : MirrorImage s s') (hs : s.StepsOff) : s'.atRest ≠ s.atRest := by
  obtain ⟨ends, ends'⟩ := h.atRest_of_stepsOff hs
  intro same
  rw [same] at ends'
  rcases hs.off with down | up
  · exact Double.lt_asymm down (ends'.1 (ends.2 down))
  · exact Double.lt_asymm up (ends.1 (ends'.2 up))

/-- A frame gives mirror images mirrored samples if it does not take them off their goals, and
leaves them mirror images. -/
theorem step (h : MirrorImage s s') (f : FrameTime) (hs : ¬(s.move f.delta).StepsOff) :
    MirrorImage (Animation.step s f).1 (Animation.step s' f).1 ∧
      (Animation.step s f).2.Mirrors (Animation.step s' f).2 := by
  have moved := h.move f.delta
  have ends := moved.atRest_eq_of_not_stepsOff hs
  rw [step_eq, step_eq, ends]
  split
  · exact ⟨moved.arrive, moved.arrive.position.matches_neg, rfl⟩
  · exact ⟨moved, moved.position.matches_neg, rfl⟩

/-- A frame that takes them off their goals does not. -/
theorem not_mirrors (h : MirrorImage s s') (f : FrameTime) (hs : (s.move f.delta).StepsOff) :
    ¬(Animation.step s f).2.Mirrors (Animation.step s' f).2 := by
  intro mirrors
  apply (h.move f.delta).atRest_ne_of_stepsOff hs
  rw [← finished_step, ← finished_step]
  exact mirrors.2

/-- The samples of mirror images are mirrored through several frames if and only if none of these
takes them off their goals. -/
theorem samples (frames : List FrameTime) {s s' : Spring} (h : MirrorImage s s') :
    List.Forall₂ Sample.Mirrors (Animation.samples s frames) (Animation.samples s' frames) ↔
      ∀ earlier f later, frames = earlier ++ f :: later →
        ¬((Animation.through s earlier).move f.delta).StepsOff := by
  induction frames generalizing s s' with
  | nil => simp [Animation.samples]
  | cons f frames ih =>
    rw [Animation.samples, Animation.samples, List.forall₂_cons]
    by_cases hs : (s.move f.delta).StepsOff
    · refine iff_of_false (fun ⟨mirrors, _⟩ => h.not_mirrors f hs mirrors) fun all => ?_
      exact all [] f frames rfl hs
    · obtain ⟨next, mirrors⟩ := h.step f hs
      rw [and_iff_right mirrors, ih next]
      constructor
      · intro all earlier g later split
        cases earlier with
        | nil =>
          cases split
          exact hs
        | cons g' earlier =>
          cases split
          exact all earlier g later rfl
      · intro all earlier g later split
        exact all (f :: earlier) g later (congrArg (f :: ·) split)

end MirrorImage

/-! ### Springs whose overshooting counts -/

/-- Moving keeps whether the overshooting of a spring counts. -/
@[simp] theorem overshootClamping_move (s : Spring) (delta : Float) :
    (s.move delta).overshootClamping = s.overshootClamping := by
  unfold move advance
  dsimp only
  split <;> rfl

/-- Arriving keeps it, too. -/
@[simp] theorem overshootClamping_arrive (s : Spring) :
    s.arrive.overshootClamping = s.overshootClamping := by
  unfold arrive
  split <;> rfl

/-- A spring that has moved knows where it was before. -/
@[simp] theorem previous_move (s : Spring) (delta : Float) :
    (s.move delta).previous = s.position := by
  unfold move advance
  dsimp only
  split <;> rfl

/-- Whether the overshooting of a spring counts and whether it pulls does not change. -/
theorem clamping_through (frames : List FrameTime) (s : Spring) :
    (Animation.through s frames).overshootClamping = s.overshootClamping ∧
      (Animation.through s frames).stiffness = s.stiffness := by
  induction frames generalizing s with
  | nil => exact ⟨rfl, rfl⟩
  | cons f frames ih =>
    have kept : (Animation.step s f).1.overshootClamping = s.overshootClamping ∧
        (Animation.step s f).1.stiffness = s.stiffness := by
      rw [step_eq]
      split <;> simp
    obtain ⟨clamping, stiffness⟩ := ih (Animation.step s f).1
    exact ⟨clamping.trans kept.1, stiffness.trans kept.2⟩

/-! ### Springs that are accepted -/

/-- A number and the negated one are complained about alike. -/
theorem finite_neg (name : String) (x : Float) :
    MotionConfig.finite name (-x) = MotionConfig.finite name x := by
  rw [MotionConfig.finite, MotionConfig.finite, (Double.Opposite.of_neg x).isFinite]

/-- The mirrored spring is accepted if the spring is, and refused for the same reason. -/
theorem build_mirror (s : Spring) (n : Option Int) :
    (MotionConfig.spring s.mirror n).build =
      (fun r => (Motion.spring s.mirror, r.2)) <$> (MotionConfig.spring s n).build := by
  simp only [MotionConfig.build, mirror, finite_neg, map_bind, apply_ite]
  rfl

/-- **Springs are mirror symmetric unless a frame takes them off their goals.** Negate the goal and
the first velocity of a spring: what comes out is accepted if the spring is, and refused for the
same reason. Let both run through the same frames, from a value and from the negated one.

Then all samples are the negated ones and end together if and only if there is no frame that
begins with the spring on neither side of its goal and ends with it away from the goal and
moving, while overshooting counts. A spring whose overshooting does not count, or that does not
pull, has no such frame. -/
theorem mirrored_unless_stepsOff (s : Spring) :
    (∀ n, (MotionConfig.spring s.mirror n).build =
      (fun r => (Motion.spring s.mirror, r.2)) <$> (MotionConfig.spring s n).build) ∧
    ∀ start frames,
      (List.Forall₂ Sample.Mirrors (Animation.samples (Animation.reset s start) frames)
          (Animation.samples (Animation.reset s.mirror (-start)) frames) ↔
        ∀ earlier f later, frames = earlier ++ f :: later →
          ¬((Animation.through (Animation.reset s start) earlier).move f.delta).StepsOff) ∧
      (s.overshootClamping = false ∨ (s.stiffness != 0.0) = false →
        List.Forall₂ Sample.Mirrors (Animation.samples (Animation.reset s start) frames)
          (Animation.samples (Animation.reset s.mirror (-start)) frames)) := by
  refine ⟨s.build_mirror, fun start frames => ?_⟩
  have exact_at := (MirrorImage.reset s start).samples frames
  refine ⟨exact_at, fun free => exact_at.2 fun earlier f later _ off => ?_⟩
  obtain ⟨clamping, stiffness⟩ := clamping_through earlier (Animation.reset s start)
  rcases free with unclamped | loose
  · have clamped := off.clamped
    rw [overshootClamping_move, clamping] at clamped
    exact Bool.false_ne_true (unclamped.symm.trans clamped)
  · have pulls := off.pulls
    rw [stiffness_move, stiffness] at pulls
    exact Bool.false_ne_true (loose.symm.trans pulls)

/-- A spring that is kicked upward, with friction that is just not weak. -/
def kicked : Spring :=
  { goal := 0.0, stiffness := 1.0, damping := 2.0, initialVelocity := 16.0,
    overshootClamping := true }

/-- The first frame of this spring is mirrored if it begins below its goal; and all frames are, also
those that begin at the goal, if overshooting does not count. -/
theorem kicked_mirrored :
    List.Forall₂ Sample.Mirrors
        (Animation.samples (Animation.reset kicked (-10.0)) [⟨62.5, 62.5, 62.5⟩])
        (Animation.samples (Animation.reset kicked.mirror (- -10.0)) [⟨62.5, 62.5, 62.5⟩]) ∧
      List.Forall₂ Sample.Mirrors
        (Animation.samples (Animation.reset { kicked with overshootClamping := false } 0.0)
          [⟨0.0, 0.0, 0.0⟩, ⟨62.5, 62.5, 62.5⟩])
        (Animation.samples
          (Animation.reset (mirror { kicked with overshootClamping := false }) (-0.0))
          [⟨0.0, 0.0, 0.0⟩, ⟨62.5, 62.5, 62.5⟩]) := by
  refine ⟨((mirrored_unless_stepsOff kicked).2 (-10.0) [⟨62.5, 62.5, 62.5⟩]).1.2 ?_,
    ((mirrored_unless_stepsOff { kicked with overshootClamping := false }).2 0.0 _).2 (.inl rfl)⟩
  intro earlier f later split off
  cases earlier with
  | nil =>
    cases split
    apply off.notBelow
    rw [previous_move, goal_move]
    show (-10.0 : Float) < 0.0
    decide +kernel
  | cons g earlier =>
    cases earlier <;> cases split

/-- If the spring begins at its goal and overshooting counts, then the first frame is not mirrored:
the spring goes up by what the exponential function leaves of the kick. -/
theorem kicked_not_mirrored (h : Float.exp (-0.0625) = 0.9394130628134758) :
    ¬List.Forall₂ Sample.Mirrors
      (Animation.samples (Animation.reset kicked 0.0) [⟨62.5, 62.5, 62.5⟩])
      (Animation.samples (Animation.reset kicked.mirror (-0.0)) [⟨62.5, 62.5, 62.5⟩]) := by
  have friction : ¬(2.0 / (2.0 * Float.sqrt (1.0 * 1.0)) : Float) < 1.0 := by decide +kernel
  have exponent :
      -Float.sqrt (1.0 / 1.0) * (Double.minNum 62.5 longestFrame / 1000.0) = -0.0625 := by
    decide +kernel
  have moved : (Animation.reset kicked 0.0).move 62.5 =
      { kicked with
        position := 0.9394130628134758, velocity := 14.091195942202137, previous := 0.0 } := by
    show (if (2.0 / (2.0 * Float.sqrt (1.0 * 1.0)) : Float) < 1.0 then _ else _) = _
    rw [if_neg friction]
    simp only [Animation.reset, kicked, exponent, h]
    rw [Spring.mk.injEq]
    refine ⟨rfl, rfl, rfl, rfl, rfl, rfl, rfl, rfl, ?_, ?_, rfl⟩ <;> decide +kernel
  rw [(MirrorImage.reset kicked 0.0).samples]
  intro all
  apply all [] ⟨62.5, 62.5, 62.5⟩ [] rfl
  show ((Animation.reset kicked 0.0).move 62.5).StepsOff
  rw [moved]
  constructor <;> decide +kernel

end Spring

end MotionGraph
