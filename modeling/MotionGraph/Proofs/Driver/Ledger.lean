import MotionGraph.Driver.Set
import MotionGraph.Proofs.Ordered.Lookup
import Mathlib.Data.List.Forall2
import Mathlib.Data.List.Perm.Basic

/-!
# Animations from their start to their end

A `Ledger` books every animation that is started. A `Life` is one such animation with what its
client is to hear of it in the end: the value it gave last, and how far it has come by its own
steps. Ledgers know nothing of how drivers are kept: an animation is at work, or it is over and its
client is still to be told, or it is over and its client was told.

`Books` says that a set of drivers and what clients were told are as a ledger has them: the
animations at work are those of the drivers, each with its own, every animation that was started
is booked once, and clients were told of exactly those that are over, with their own reports.
Stopping drivers, starting them and moving them to a frame each keep the books (`Books.stop`,
`Books.start`, `Books.step`).
-/

namespace MotionGraph

variable {α κ : Type}

/-! ### Lives -/

/-- An animation from its start on. -/
structure Life (κ : Type) where
  /-- How many animations were started before. -/
  number : Nat
  id : AnimationId
  target : Tag
  callback : Option κ
  /-- Whether a client asked for it; tracking nodes start animations, too. -/
  requested : Bool
  state : DriverState := .pending
  /-- The value that it gave last. -/
  last : Option Float := none

namespace Life

/-- The animation is stopped from outside. -/
def stop (x : Life κ) : Life κ := { x with state := .stopped }

/-- The animation goes on to a frame as its own driver does. -/
def step [Animation α] (s : DriverSet α κ) (now : Float) (g : Graph) (x : Life κ) : Life κ :=
  match s.get? x.id with
  | none => x
  | some d =>
    let (moved, sample) := DriverSet.advance now g d
    { x with state := moved.state, last := (sample.map Prod.snd).or x.last }

/-- How the animation has ended, for its client. -/
def report (x : Life κ) : AnimationEnd := ⟨x.id, x.state = .finished, x.last⟩

/-- What its client is told in the end, if there is one. -/
def ending? (x : Life κ) : Option (κ × AnimationEnd) := x.callback.map fun c => (c, x.report)

/-- The same animation, later on. -/
structure Continues (y x : Life κ) : Prop where
  number : y.number = x.number
  id : y.id = x.id
  target : y.target = x.target
  callback : y.callback = x.callback
  requested : y.requested = x.requested

/-- The animation of a driver, as it is now. -/
structure Of (x : Life κ) (p : AnimationId × Driver α κ) : Prop where
  key : p.1 = x.id
  id : p.2.id = x.id
  target : p.2.target = x.target
  callback : p.2.callback = x.callback
  state : p.2.state = x.state
  last : p.2.lastValue = x.last

namespace Continues

/-- An animation that stays as it is. -/
theorem refl (x : Life κ) : x.Continues x := ⟨rfl, rfl, rfl, rfl, rfl⟩

/-- An animation goes on from step to step. -/
theorem trans {x y z : Life κ} (h : z.Continues y) (h' : y.Continues x) : z.Continues x :=
  ⟨h.number.trans h'.number, h.id.trans h'.id, h.target.trans h'.target,
    h.callback.trans h'.callback, h.requested.trans h'.requested⟩

/-- A stopped animation is still the same. -/
theorem stop (x : Life κ) : x.stop.Continues x := ⟨rfl, rfl, rfl, rfl, rfl⟩

/-- An animation that has moved is still the same. -/
theorem step [Animation α] (s : DriverSet α κ) (now : Float) (g : Graph) (x : Life κ) :
    (x.step s now g).Continues x := by
  unfold Life.step
  split <;> exact ⟨rfl, rfl, rfl, rfl, rfl⟩

end Continues

end Life

/-- What the client of an animation that has ended is told, if there is one. -/
def Completion.ending? (c : Completion κ) : Option (κ × AnimationEnd) :=
  c.callback.map fun k => (k, c.report)

/-- A driver that is stopped while it goes on tells what its animation has come to. -/
theorem Life.Of.ending?_stop {x : Life κ} {p : AnimationId × Driver α κ} (h : x.Of p)
    (hx : x.state.isActive = true) : p.2.stop.completion.ending? = x.stop.ending? := by
  have hd : p.2.state.isActive = true := by rw [h.state, hx]
  simp only [Completion.ending?, Driver.completion, Driver.stop, hd, if_true, h.id, h.last,
    h.callback]
  rfl

/-- A driver that is over tells what its animation has come to. -/
theorem Life.Of.ending? {x : Life κ} {p : AnimationId × Driver α κ} (h : x.Of p) :
    p.2.completion.ending? = x.ending? := by
  simp only [Completion.ending?, Driver.completion, Life.ending?, Life.report, h.id, h.last,
    h.state, h.callback]

/-! ### Ledgers -/

/-- All animations that were started. -/
structure Ledger (κ : Type) where
  /-- How many were started. -/
  started : Nat := 0
  /-- Those at work, in the order of their start. -/
  atWork : List (Life κ) := []
  /-- Those that are over and whose clients are still to be told. -/
  owed : List (Life κ) := []
  /-- Those that are over and whose clients were told, in that order. -/
  gone : List (Life κ) := []

namespace Ledger

/-- All animations booked. -/
def lives (l : Ledger κ) : List (Life κ) := l.atWork ++ l.owed ++ l.gone

/-- Where no client is still to be told, every animation is at work or over. -/
theorem lives_of_owed {l : Ledger κ} (h : l.owed = []) : l.lives = l.atWork ++ l.gone := by
  rw [lives, h, List.append_nil]

/-- Stops the animation of a name, if it is at work, and tells its client. -/
def stop (l : Ledger κ) (id : AnimationId) : Ledger κ :=
  { l with
    atWork := l.atWork.filter fun x => x.id ≠ id
    gone := l.gone ++ (l.atWork.filter fun x => x.id = id).map Life.stop }

/-- Stops the animations of several names. -/
def stopAll (l : Ledger κ) (ids : List AnimationId) : Ledger κ := ids.foldl stop l

/-- Stops the animations of a node. -/
def stopTargeting (l : Ledger κ) (t : Tag) : Ledger κ :=
  l.stopAll ((l.atWork.filter fun x => x.target = t).map Life.id)

/-- Starts an animation in place of one of the same name. -/
def start (l : Ledger κ) (id : AnimationId) (target : Tag) (callback : Option κ)
    (requested : Bool) : Ledger κ :=
  let l := l.stop id
  { l with
    started := l.started + 1
    atWork := l.atWork ++ [{ number := l.started, id, target, callback, requested }] }

/-- All animations go on to a frame; the clients of those that are over are still to be told. -/
def step [Animation α] (l : Ledger κ) (s : DriverSet α κ) (now : Float) (g : Graph) : Ledger κ :=
  let moved := l.atWork.map fun x => x.step s now g
  { l with
    atWork := moved.filter fun x => x.state.isActive
    owed := l.owed ++ moved.filter fun x => !x.state.isActive }

/-- Tells the clients that are still to be told. -/
def tell (l : Ledger κ) : Ledger κ := { l with owed := [], gone := l.gone ++ l.owed }

/-! ### Who is at work -/

variable {l : Ledger κ} {x : Life κ}

/-- Of the animations at work those of the given names are stopped. -/
theorem mem_atWork_stopAll {ids : List AnimationId} :
    x ∈ (l.stopAll ids).atWork ↔ x ∈ l.atWork ∧ x.id ∉ ids := by
  induction ids generalizing l with
  | nil => simp [stopAll]
  | cons id ids ih =>
    show x ∈ ((l.stop id).stopAll ids).atWork ↔ _
    rw [ih, stop, List.mem_filter, decide_eq_true_eq, List.mem_cons, not_or, and_assoc]

/-- Of the animations at work those of the node are stopped. -/
theorem mem_atWork_stopTargeting {t : Tag} (h : x ∈ (l.stopTargeting t).atWork) :
    x ∈ l.atWork ∧ x.target ≠ t := by
  obtain ⟨hx, hid⟩ := mem_atWork_stopAll.1 h
  refine ⟨hx, fun ht => hid (List.mem_map_of_mem (List.mem_filter.2 ⟨hx, ?_⟩))⟩
  rwa [decide_eq_true_eq]

/-- An animation that is started joins those at work. -/
theorem mem_atWork_start {id : AnimationId} {t : Tag} {callback : Option κ} {requested : Bool}
    (h : x ∈ (l.start id t callback requested).atWork) :
    x ∈ l.atWork ∨ (x.target = t ∧ x.requested = requested) := by
  rcases List.mem_append.1 h with h | h
  · exact Or.inl (List.mem_of_mem_filter h)
  · rw [List.mem_singleton.1 h]
    exact Or.inr ⟨rfl, rfl⟩

/-- In a frame no animation joins those at work. -/
theorem mem_atWork_step [Animation α] {s : DriverSet α κ} {now : Float} {g : Graph}
    (h : x ∈ (l.step s now g).atWork) : ∃ y ∈ l.atWork, x.Continues y := by
  obtain ⟨y, hy, rfl⟩ := List.mem_map.1 (List.mem_of_mem_filter h)
  exact ⟨y, hy, .step s now g y⟩

/-! ### Ledgers later on -/

/-- A ledger later on: who was told stays told, and every animation is still booked. -/
structure Later (l l' : Ledger κ) : Prop where
  gone : l.gone <+: l'.gone
  booked : ∀ x ∈ l.lives, ∃ y ∈ l'.lives, y.Continues x

namespace Later

variable {l l' l'' : Ledger κ}

/-- A ledger in which nothing is booked. -/
theorem refl (l : Ledger κ) : Later l l :=
  ⟨List.prefix_refl _, fun x hx => ⟨x, hx, .refl x⟩⟩

/-- Ledgers follow each other from step to step. -/
theorem trans (h : Later l l') (h' : Later l' l'') : Later l l'' := by
  refine ⟨h.gone.trans h'.gone, fun x hx => ?_⟩
  obtain ⟨y, hy, hyx⟩ := h.booked x hx
  obtain ⟨z, hz, hzy⟩ := h'.booked y hy
  exact ⟨z, hz, hzy.trans hyx⟩

/-- Steps that each lead to a later ledger do so together. -/
theorem foldl {β : Type} {f : Ledger κ → β → Ledger κ} (hf : ∀ l b, Later l (f l b)) (bs : List β)
    (l : Ledger κ) : Later l (bs.foldl f l) := by
  induction bs generalizing l with
  | nil => exact refl l
  | cons b bs ih => exact (hf l b).trans (ih (f l b))

/-- An animation is stopped. -/
theorem stop (l : Ledger κ) (id : AnimationId) : Later l (l.stop id) := by
  refine ⟨List.prefix_append _ _, fun x hx => ?_⟩
  simp only [lives, List.mem_append] at hx
  rcases hx with (hx | hx) | hx
  · by_cases hid : x.id = id
    · refine ⟨x.stop, ?_, .stop x⟩
      have left : x ∈ l.atWork.filter fun x => x.id = id :=
        List.mem_filter.2 ⟨hx, by simpa using hid⟩
      exact List.mem_append_right _ (List.mem_append_right _ (List.mem_map_of_mem left))
    · have stays : x ∈ l.atWork.filter fun x => x.id ≠ id :=
        List.mem_filter.2 ⟨hx, by simpa using hid⟩
      exact ⟨x, List.mem_append_left _ (List.mem_append_left _ stays), .refl x⟩
  · exact ⟨x, List.mem_append_left _ (List.mem_append_right _ hx), .refl x⟩
  · exact ⟨x, List.mem_append_right _ (List.mem_append_left _ hx), .refl x⟩

/-- The animations of a node are stopped. -/
theorem stopTargeting (l : Ledger κ) (t : Tag) : Later l (l.stopTargeting t) := foldl stop _ l

/-- An animation is started. -/
theorem start (l : Ledger κ) (id : AnimationId) (target : Tag) (callback : Option κ)
    (requested : Bool) : Later l (l.start id target callback requested) := by
  refine (stop l id).trans ⟨List.prefix_refl _, fun x hx => ⟨x, ?_, .refl x⟩⟩
  simp only [lives, Ledger.start, List.mem_append] at hx ⊢
  rcases hx with (hx | hx) | hx
  · exact Or.inl (Or.inl (Or.inl hx))
  · exact Or.inl (Or.inr hx)
  · exact Or.inr hx

/-- The animations go on to a frame. -/
theorem step [Animation α] (l : Ledger κ) (s : DriverSet α κ) (now : Float) (g : Graph) :
    Later l (l.step s now g) := by
  refine ⟨List.prefix_refl _, fun x hx => ?_⟩
  simp only [lives, List.mem_append] at hx
  rcases hx with (hx | hx) | hx
  · refine ⟨x.step s now g, ?_, .step s now g x⟩
    have hmoved := List.mem_map_of_mem (f := fun x => Life.step s now g x) hx
    simp only [lives, Ledger.step, List.mem_append, List.mem_filter, hmoved, true_and,
      Bool.not_eq_true']
    cases (x.step s now g).state.isActive <;> simp
  · exact ⟨x, List.mem_append_left _ (List.mem_append_right _ (List.mem_append_left _ hx)), .refl x⟩
  · exact ⟨x, List.mem_append_right _ hx, .refl x⟩

/-- The clients still to be told are told. -/
theorem tell (l : Ledger κ) : Later l l.tell := by
  refine ⟨List.prefix_append _ _, fun x hx => ⟨x, ?_, .refl x⟩⟩
  simp only [lives, Ledger.tell, List.mem_append, List.not_mem_nil, or_false] at hx ⊢
  rcases hx with (hx | hx) | hx
  · exact Or.inl hx
  · exact Or.inr (Or.inr hx)
  · exact Or.inr (Or.inl hx)

end Later

end Ledger

/-! ### What operations do to the listing of drivers -/

namespace DriverSet

/-- Stopping an animation takes the drivers of its name out of the listing. -/
theorem toList_stop (s : DriverSet α κ) (id : AnimationId) :
    (s.stop id).1.drivers.toList = s.drivers.toList.filter fun p => p.1 ≠ id := by
  unfold stop
  split
  · rfl
  · next hn =>
    refine (List.filter_eq_self.2 fun p hp => ?_).symm
    rw [decide_eq_true_eq]
    rintro rfl
    exact OrderedMap.get?_eq_none_iff.1 hn (List.mem_map_of_mem hp)

/-- The drivers that are there after an animation was stopped were there before. -/
theorem mem_values_stop {s : DriverSet α κ} {id : AnimationId} {d : Driver α κ}
    (hd : d ∈ (s.stop id).1.drivers.values) : d ∈ s.drivers.values := by
  rw [OrderedMap.values, toList_stop] at hd
  obtain ⟨p, hp, rfl⟩ := List.mem_map.1 hd
  exact List.mem_map_of_mem (List.mem_of_mem_filter hp)

/-- Stopping an animation hands out the driver of its name. -/
theorem handed_stop (s : DriverSet α κ) (id : AnimationId) :
    (s.stop id).2.toList =
      (s.drivers.toList.filter fun p => p.1 = id).map fun p => p.2.stop.completion := by
  rw [OrderedMap.toList_filter_key]
  unfold stop
  rw [show s.get? id = s.drivers.get? id from rfl]
  cases s.drivers.get? id <;> rfl

/-- Starting a driver takes the drivers of its name out of the listing and puts it last. -/
theorem toList_start (s : DriverSet α κ) (d : Driver α κ) :
    (s.start d).1.drivers.toList =
      (s.drivers.toList.filter fun p => p.1 ≠ d.id) ++ [(d.id, d)] := by
  have absent : (s.stop d.id).1.drivers.contains d.id = false := by
    rw [Bool.eq_false_iff, ne_eq, OrderedMap.contains_iff, OrderedMap.keys, toList_stop,
      List.mem_map]
    rintro ⟨p, hp, hid⟩
    have hne := (List.mem_filter.1 hp).2
    rw [decide_eq_true_eq] at hne
    exact hne hid
  rw [← toList_stop]
  exact OrderedMap.toList_insert_of_not_contains absent

/-- What a frame leaves of the listing. -/
theorem toList_step [Animation α] (s : DriverSet α κ) (now : Float) (g : Graph) :
    (s.step now g).1.drivers.toList =
      (s.drivers.toList.map fun p => (p.1, (advance now g p.2).1)).filter
        fun p => p.2.state.isActive := rfl

/-- What a frame hands out. -/
theorem handed_step [Animation α] (s : DriverSet α κ) (now : Float) (g : Graph) :
    (s.step now g).2.2.completions =
      ((s.drivers.toList.map fun p => (p.1, (advance now g p.2).1)).filter
        fun p => !p.2.state.isActive).map fun p => p.2.completion := by
  simp only [step, OrderedMap.values, OrderedMap.map, List.filter_map, List.map_map,
    Function.comp_def]

end DriverSet

namespace Driver

variable [Animation α]

/-- The last value after the end of a run. -/
theorem lastValue_endRun (d : Driver α κ) (now : Float) :
    (d.endRun now).lastValue = d.lastValue := by
  unfold endRun
  dsimp only
  split <;> rfl

/-- Whom a driver belongs to. -/
def owner (d : Driver α κ) : AnimationId × Tag × Option κ := (d.id, d.target, d.callback)

/-- The end of a run leaves the owner. -/
theorem owner_endRun (d : Driver α κ) (now : Float) : (d.endRun now).owner = d.owner := by
  unfold endRun
  dsimp only
  split <;> rfl

/-- A driver that goes on keeps its owner, and the value it gives is its last value. -/
theorem step_spec (d : Driver α κ) (now current : Float) :
    (d.step now current).1.owner = d.owner ∧
      (d.step now current).1.lastValue = (d.step now current).2.or d.lastValue := by
  have advanced : ∀ d' : Driver α κ, d'.owner = d.owner →
      (d'.advance now).1.owner = d.owner ∧
        (d'.advance now).1.lastValue = some (d'.advance now).2 := by
    intro d' ho
    unfold advance
    dsimp only
    split
    · rw [owner_endRun, lastValue_endRun]
      exact ⟨ho, rfl⟩
    · exact ⟨ho, rfl⟩
  unfold step
  split
  · obtain ⟨ho, hl⟩ := advanced (d.begin now current) rfl
    exact ⟨ho, hl⟩
  · obtain ⟨ho, hl⟩ := advanced d rfl
    exact ⟨ho, hl⟩
  · exact ⟨rfl, rfl⟩
  · exact ⟨rfl, rfl⟩

end Driver

/-- In a frame a driver keeps its owner, and the value it gives is its last value. -/
theorem DriverSet.advance_spec [Animation α] (now : Float) (g : Graph) (d : Driver α κ) :
    (advance now g d).1.owner = d.owner ∧
      (advance now g d).1.lastValue = ((advance now g d).2.map Prod.snd).or d.lastValue := by
  unfold advance
  split
  · split
    · next n _ =>
      obtain ⟨ho, hl⟩ := d.step_spec now n.base
      refine ⟨ho, hl.trans ?_⟩
      dsimp only
      cases (d.step now n.base).2 <;> rfl
    · unfold Driver.stop
      split <;> exact ⟨rfl, rfl⟩
  · exact ⟨rfl, rfl⟩

/-- In a frame a driver keeps its name. -/
@[simp] theorem DriverSet.id_advance [Animation α] (now : Float) (g : Graph) (d : Driver α κ) :
    (advance now g d).1.id = d.id :=
  congrArg Prod.fst (advance_spec now g d).1

/-- In a frame a driver keeps its node. -/
@[simp] theorem DriverSet.target_advance [Animation α] (now : Float) (g : Graph) (d : Driver α κ) :
    (advance now g d).1.target = d.target :=
  congrArg (fun owner => owner.2.1) (advance_spec now g d).1

/-- An animation goes on to a frame with its own driver. -/
theorem Life.Of.step [Animation α] {s : DriverSet α κ} {x : Life κ} {p : AnimationId × Driver α κ}
    (h : x.Of p) (hp : p ∈ s.drivers.toList) (now : Float) (g : Graph) :
    (x.step s now g).Of (p.1, (DriverSet.advance now g p.2).1) := by
  have own : s.get? x.id = some p.2 := by
    rw [← h.key]
    exact OrderedMap.get?_eq_some_iff.2 hp
  obtain ⟨ho, hl⟩ := DriverSet.advance_spec now g p.2
  simp only [Driver.owner, Prod.mk.injEq] at ho
  unfold Life.step
  rw [own]
  exact ⟨h.key, ho.1.trans h.id, ho.2.1.trans h.target, ho.2.2.trans h.callback, rfl,
    by rw [hl, h.last]⟩

/-! ### Books -/

/-- The drivers at work and what clients were told are as a ledger has them. -/
structure Books (s : DriverSet α κ) (told : List (κ × AnimationEnd)) (l : Ledger κ) : Prop where
  /-- The animations at work are those of the drivers, each with its own. -/
  own : List.Forall₂ Life.Of l.atWork s.drivers.toList
  active : ∀ x ∈ l.atWork, x.state.isActive = true
  /-- Every animation that was started is booked once. -/
  numbers : (l.lives.map Life.number).Perm (List.range l.started)
  /-- Clients were told of the animations that are over and of no others, each once. -/
  told : told = l.gone.filterMap Life.ending?

/-- What related elements are mapped to alike, related lists are mapped to alike. -/
theorem forall₂_filterMap_eq {β γ δ : Type} {R : β → γ → Prop} {f : β → Option δ} {h : γ → Option δ}
    (hfh : ∀ b c, R b c → h c = f b) {bs : List β} {cs : List γ} (hr : List.Forall₂ R bs cs) :
    cs.filterMap h = bs.filterMap f := by
  induction hr with
  | nil => rfl
  | cons hbc _ ih => rw [List.filterMap_cons, List.filterMap_cons, hfh _ _ hbc, ih]

namespace Books

variable {s : DriverSet α κ} {told : List (κ × AnimationEnd)} {l : Ledger κ}

/-- The books of no drivers. -/
theorem empty {policy : Arbitration} :
    Books (α := α) { arbitration := policy } [] ({} : Ledger κ) where
  own := .nil
  active := by simp
  numbers := .refl _
  told := rfl

/-- Every animation at work has its own driver. -/
theorem exists_driver (h : Books s told l) {x : Life κ} (hx : x ∈ l.atWork) :
    ∃ p ∈ s.drivers.toList, x.Of p := by
  obtain ⟨i, hi, rfl⟩ := List.getElem_of_mem hx
  have hj : i < s.drivers.toList.length := h.own.length_eq ▸ hi
  exact ⟨_, List.getElem_mem hj, h.own.get hi hj⟩

/-- Every driver is that of an animation at work. -/
theorem exists_life (h : Books s told l) {p : AnimationId × Driver α κ}
    (hp : p ∈ s.drivers.toList) : ∃ x ∈ l.atWork, x.Of p := by
  obtain ⟨i, hi, rfl⟩ := List.getElem_of_mem hp
  have hj : i < l.atWork.length := h.own.length_eq ▸ hi
  exact ⟨_, List.getElem_mem hj, h.own.get hj hi⟩

/-- An animation at work has another number than one that is over. -/
theorem number_ne (h : Books s told l) (ho : l.owed = []) {x y : Life κ} (hx : x ∈ l.atWork)
    (hy : y ∈ l.gone) : x.number ≠ y.number := by
  have distinct : (l.lives.map Life.number).Nodup := h.numbers.nodup_iff.2 List.nodup_range
  rw [Ledger.lives_of_owed ho, List.map_append, List.nodup_append] at distinct
  exact distinct.2.2 _ (List.mem_map_of_mem hx) _ (List.mem_map_of_mem hy)

/-- What is at work goes on, or it has left by the time of a later ledger. -/
theorem continues_or_left (h : Books s told l) (ho : l.owed = []) {l' : Ledger κ}
    (later : Ledger.Later l l') (ho' : l'.owed = []) {left : List (Life κ)}
    (hleft : l.gone ++ left = l'.gone) {x : Life κ} (hx : x ∈ l.atWork) :
    ∃ y ∈ l'.atWork ++ left, y.Continues x := by
  have booked : x ∈ l.lives := by
    rw [Ledger.lives_of_owed ho]
    exact List.mem_append_left _ hx
  obtain ⟨y, hy, hyx⟩ := later.booked x booked
  rw [Ledger.lives_of_owed ho', ← hleft, List.mem_append, List.mem_append] at hy
  refine ⟨y, ?_, hyx⟩
  rcases hy with hy | hy | hy
  · exact List.mem_append_left _ hy
  · exact absurd hyx.number.symm (h.number_ne ho hx hy)
  · exact List.mem_append_right _ hy

/-- The animations of some names and the drivers of these names belong together. -/
theorem own_filter (h : Books s told l) (test : AnimationId → Bool) :
    List.Forall₂ (fun x p => x.state.isActive = true ∧ x.Of p)
      (l.atWork.filter fun x => test x.id) (s.drivers.toList.filter fun p => test p.1) := by
  refine List.rel_filter (fun x p hxp => ?_) ((List.forall₂_and_left _ _).2 ⟨h.active, h.own⟩)
  show test x.id = true ↔ test p.1 = true
  rw [hxp.2.key]

/-- Stopping an animation keeps the books. -/
theorem stop (h : Books s told l) (id : AnimationId) :
    Books (s.stop id).1 (told ++ (s.stop id).2.toList.filterMap Completion.ending?)
      (l.stop id) where
  own := by
    rw [DriverSet.toList_stop]
    exact (h.own_filter fun j => j ≠ id).imp fun _ _ hxp => hxp.2
  active := fun x hx => h.active x (List.mem_of_mem_filter hx)
  numbers := by
    let stays := l.atWork.filter fun x => x.id ≠ id
    let leaves := l.atWork.filter fun x => x.id = id
    have parted : (leaves ++ stays).Perm l.atWork := by
      simpa [leaves, stays] using
        List.filter_append_perm (fun x : Life κ => decide (x.id = id)) l.atWork
    have moved : (stays ++ l.owed ++ (l.gone ++ leaves)).Perm l.lives := calc
      stays ++ l.owed ++ (l.gone ++ leaves) = stays ++ (l.owed ++ l.gone) ++ leaves := by simp
      _ |>.Perm (leaves ++ (stays ++ (l.owed ++ l.gone))) := List.perm_append_comm
      _ = leaves ++ stays ++ (l.owed ++ l.gone) := by simp
      _ |>.Perm (l.atWork ++ (l.owed ++ l.gone)) := parted.append_right _
      _ = l.lives := by simp [Ledger.lives]
    have same : (l.stop id).lives.map Life.number =
        (stays ++ l.owed ++ (l.gone ++ leaves)).map Life.number := by
      simp [Ledger.lives, Ledger.stop, Life.stop, stays, leaves, Function.comp_def]
    rw [same]
    exact (moved.map _).trans h.numbers
  told := by
    have stopped : (s.stop id).2.toList.filterMap Completion.ending? =
        ((l.atWork.filter fun x => x.id = id).map Life.stop).filterMap Life.ending? := by
      rw [DriverSet.handed_stop, List.filterMap_map, List.filterMap_map]
      exact forall₂_filterMap_eq (fun x p hxp => hxp.2.ending?_stop hxp.1)
        (h.own_filter fun j => j = id)
    rw [stopped, h.told, Ledger.stop, List.filterMap_append]

/-- Stopping several animations keeps the books. -/
theorem stopAll (h : Books s told l) (ids : List AnimationId) :
    Books (s.stopAll ids).1 (told ++ (s.stopAll ids).2.filterMap Completion.ending?)
      (l.stopAll ids) := by
  induction ids generalizing s told l with
  | nil =>
    show Books s (told ++ []) l
    rwa [List.append_nil]
  | cons id ids ih =>
    have rest := ih (h.stop id)
    rwa [List.append_assoc, ← List.filterMap_append] at rest

/-- Stopping the animations of a node keeps the books. -/
theorem stopTargeting (h : Books s told l) (t : Tag) :
    Books (s.stopTargeting t).1 (told ++ (s.stopTargeting t).2.filterMap Completion.ending?)
      (l.stopTargeting t) := by
  have names : ((s.drivers.values.filter fun d => d.target = t).map Driver.id) =
      (l.atWork.filter fun x => x.target = t).map Life.id := by
    have filtered := List.rel_filter (p := fun x => decide (x.target = t))
      (q := fun p => decide (p.2.target = t))
      (fun x p hxp => show _ ↔ decide (p.2.target = t) = true by rw [hxp.target]) h.own
    have mapped : List.Forall₂ Eq ((l.atWork.filter fun x => x.target = t).map Life.id)
        ((s.drivers.toList.filter fun p => p.2.target = t).map fun p => p.2.id) :=
      List.rel_map (fun x p hxp => hxp.id.symm) filtered
    rw [List.forall₂_eq_eq_eq] at mapped
    rw [mapped, OrderedMap.values, List.filter_map, List.map_map]
    rfl
  rw [DriverSet.stopTargeting, names]
  exact h.stopAll _

/-- Starting an animation keeps the books. -/
theorem start (h : Books s told l) (d : Driver α κ) (requested : Bool) (hs : d.state = .pending)
    (hv : d.lastValue = none) :
    Books (s.start d).1 (told ++ (s.start d).2.toList.filterMap Completion.ending?)
      (l.start d.id d.target d.callback requested) where
  own := by
    rw [DriverSet.toList_start]
    have stays := (h.stop d.id).own
    rw [DriverSet.toList_stop] at stays
    exact List.rel_append stays (.cons ⟨rfl, rfl, rfl, rfl, hs, hv⟩ .nil)
  active := by
    intro x hx
    rcases List.mem_append.1 hx with hx | hx
    · exact (h.stop d.id).active x hx
    · rw [List.mem_singleton.1 hx]
      rfl
  numbers := by
    let stays := (l.stop d.id).atWork
    let others := l.owed ++ (l.stop d.id).gone
    let new : Life κ :=
      { number := l.started, id := d.id, target := d.target, callback := d.callback, requested }
    have before : (l.stop d.id).lives = stays ++ others := List.append_assoc _ _ _
    have apart : (stays ++ ([new] ++ others)).Perm ((l.stop d.id).lives ++ [new]) := by
      rw [before, List.append_assoc]
      exact List.perm_append_comm.append_left _
    have booked :
        (l.start d.id d.target d.callback requested).lives = stays ++ ([new] ++ others) := by
      simp [Ledger.lives, Ledger.start, stays, others, new, Ledger.stop]
    rw [booked, show (l.start d.id d.target d.callback requested).started = l.started + 1 from rfl,
      List.range_succ]
    refine (apart.map _).trans ?_
    rw [List.map_append]
    exact (h.stop d.id).numbers.append_right _
  told := (h.stop d.id).told

/-- The animations that have moved to a frame and the drivers that have belong together. -/
theorem own_moved [Animation α] (h : Books s told l) (now : Float) (g : Graph) :
    List.Forall₂ Life.Of (l.atWork.map fun x => x.step s now g)
      (s.drivers.toList.map fun p => (p.1, (DriverSet.advance now g p.2).1)) := by
  have moved : ∀ ls ps, List.Forall₂ Life.Of ls ps → (∀ p ∈ ps, p ∈ s.drivers.toList) →
      List.Forall₂ Life.Of (ls.map fun x => x.step s now g)
        (ps.map fun p => (p.1, (DriverSet.advance now g p.2).1)) := by
    intro ls ps hr hps
    induction hr with
    | nil => exact .nil
    | cons hxp _ ih =>
      exact .cons (hxp.step (hps _ List.mem_cons_self) now g)
        (ih fun p hp => hps p (List.mem_cons_of_mem _ hp))
  exact moved _ _ h.own fun _ hp => hp

/-- Moving all animations to a frame keeps the books; the clients of those that are over
are still to be told. -/
theorem step [Animation α] (h : Books s told l) (now : Float) (g : Graph) :
    Books (s.step now g).1 told (l.step s now g) where
  own := by
    rw [DriverSet.toList_step]
    refine List.rel_filter (fun x p hxp => ?_) (h.own_moved now g)
    show x.state.isActive = true ↔ p.2.state.isActive = true
    rw [hxp.state]
  active := fun x hx => (List.mem_filter.1 hx).2
  numbers := by
    let moved := l.atWork.map fun x => x.step s now g
    let stays := moved.filter fun x => x.state.isActive
    let leaving := moved.filter fun x => !x.state.isActive
    have parted : (stays ++ leaving).Perm moved := List.filter_append_perm _ moved
    have rearranged : (l.step s now g).lives.Perm (moved ++ (l.owed ++ l.gone)) := calc
      (l.step s now g).lives = stays ++ ((l.owed ++ leaving) ++ l.gone) := by
        simp [Ledger.lives, Ledger.step, stays, leaving, moved]
      _ |>.Perm (stays ++ (leaving ++ l.owed ++ l.gone)) :=
        (List.perm_append_comm.append_right _).append_left _
      _ = stays ++ leaving ++ (l.owed ++ l.gone) := by simp
      _ |>.Perm (moved ++ (l.owed ++ l.gone)) := parted.append_right _
    have same : moved.map Life.number = l.atWork.map Life.number := by
      rw [List.map_map]
      exact List.map_congr_left fun x _ => (Life.Continues.step s now g x).number
    refine (rearranged.map _).trans ?_
    rw [List.map_append, same, ← List.map_append, ← List.append_assoc]
    exact h.numbers
  told := h.told

/-- What a frame hands out is what the clients of the animations that are leaving are to be told. -/
theorem handed_step [Animation α] (h : Books s told l) (now : Float) (g : Graph)
    (ho : l.owed = []) :
    (s.step now g).2.2.completions.filterMap Completion.ending? =
      (l.step s now g).owed.filterMap Life.ending? := by
  have leaving : List.Forall₂ Life.Of ((l.atWork.map fun x => x.step s now g).filter
      fun x => !x.state.isActive) ((s.drivers.toList.map fun p =>
        (p.1, (DriverSet.advance now g p.2).1)).filter fun p => !p.2.state.isActive) := by
    refine List.rel_filter (fun x p hxp => ?_) (h.own_moved now g)
    show (!x.state.isActive) = true ↔ (!p.2.state.isActive) = true
    rw [hxp.state]
  rw [DriverSet.handed_step, List.filterMap_map, Ledger.step, ho, List.nil_append]
  exact forall₂_filterMap_eq (fun x p hxp => hxp.ending?) leaving

/-- Telling the clients that are still to be told keeps the books. -/
theorem tell (h : Books s told l) :
    Books s (told ++ l.owed.filterMap Life.ending?) l.tell where
  own := h.own
  active := h.active
  numbers := by
    refine List.Perm.trans (List.Perm.map _ ?_) h.numbers
    simp only [Ledger.lives, Ledger.tell, List.append_nil, List.append_assoc]
    exact List.perm_append_comm.append_left _
  told := by rw [h.told, Ledger.tell, List.filterMap_append]

end Books

end MotionGraph
