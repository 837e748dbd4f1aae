import MotionGraph.Proofs.Driver.Arbitration
import MotionGraph.Proofs.Driver.Ledger
import MotionGraph.Proofs.Graph.Deferred

/-!
# The driver of an animation

What is found for an animation after drivers were started, stopped or moved to a frame:
`get?_start`, `get?_stop`, `get?_stopTargeting`, `get?_step`. Drivers are found under their own
names (`DriverSet.Keyed`), which each of these keeps.

A frame writes one value into each node that drivers are at work on (`graph_step`). A node that no
driver is at work on stays as it is (`node?_step_of_no_driver`), and one on which one driver alone
is at work receives the value of that driver (`base?_step_of_only_driver`).
-/

namespace MotionGraph.DriverSet

variable {α κ : Type} {s : DriverSet α κ} {id : AnimationId} {t : Tag} {x : Float}

/-! ### Starting and stopping -/

/-- Every driver is found under the name of its animation. -/
def Keyed (s : DriverSet α κ) : Prop := ∀ id d, s.get? id = some d → d.id = id

/-- A stopped animation is found no more. -/
theorem get?_stop (s : DriverSet α κ) (id j : AnimationId) :
    (s.stop id).1.get? j = if j = id then none else s.get? j := by
  unfold stop
  split
  · exact OrderedMap.get?_erase s.drivers id j
  · next hn =>
    split
    · next hj => rw [hj, hn]
    · rfl

/-- A started driver is found under its name. -/
theorem get?_start (s : DriverSet α κ) (d : Driver α κ) (j : AnimationId) :
    (s.start d).1.get? j = if j = d.id then some d else s.get? j := by
  have inserted : (s.start d).1.get? j = if j = d.id then some d else (s.stop d.id).1.get? j :=
    OrderedMap.get?_insert (s.stop d.id).1.drivers d.id j d
  rw [inserted, get?_stop]
  split <;> rfl

/-- Animations that were stopped are found no more. -/
theorem get?_stopAll (s : DriverSet α κ) (ids : List AnimationId) (j : AnimationId) :
    (s.stopAll ids).1.get? j = if j ∈ ids then none else s.get? j := by
  induction ids generalizing s with
  | nil => rfl
  | cons id ids ih =>
    show ((s.stop id).1.stopAll ids).1.get? j = _
    rw [ih, get?_stop]
    by_cases hj : j = id <;> simp [hj]

namespace Keyed

/-- Stopping several animations keeps drivers under their names. -/
theorem stopAll (h : s.Keyed) (ids : List AnimationId) : (s.stopAll ids).1.Keyed := by
  intro j d hd
  rw [get?_stopAll] at hd
  split at hd
  · cases hd
  · exact h j d hd

/-- Stopping an animation keeps drivers under their names. -/
theorem stop (h : s.Keyed) (id : AnimationId) : (s.stop id).1.Keyed := h.stopAll [id]

/-- Starting a driver keeps drivers under their names. -/
theorem start (h : s.Keyed) (d : Driver α κ) : (s.start d).1.Keyed := by
  intro j d' hd
  rw [get?_start] at hd
  split at hd
  · next hj =>
    cases hd
    exact hj.symm
  · exact h j d' hd

end Keyed

/-- Stopping the drivers of one node leaves those of the others. -/
theorem get?_stopTargeting (h : s.Keyed) {d : Driver α κ} (hd : s.get? id = some d)
    (ht : d.target ≠ t) : (s.stopTargeting t).1.get? id = some d := by
  rw [stopTargeting, get?_stopAll, if_neg, hd]
  intro hid
  obtain ⟨d', hd', rfl⟩ := List.mem_map.1 hid
  obtain ⟨hmem, htarget⟩ := List.mem_filter.1 hd'
  obtain ⟨p, hp, rfl⟩ := List.mem_map.1 hmem
  rw [decide_eq_true_eq] at htarget
  have found : s.get? p.1 = some p.2 := OrderedMap.get?_eq_some_iff.2 hp
  rw [h p.1 p.2 found, found] at hd
  exact ht (Option.some.inj hd ▸ htarget)

/-! ### The values of a frame -/

/-- Drivers write into their nodes as expressions do. -/
theorem fst_write (g : Graph) (ws : Writes) : (write g ws).1 = (g.applyWrites ws).1 := by
  induction ws generalizing g with
  | nil => rfl
  | cons w ws ih =>
    obtain ⟨u, y⟩ := w
    unfold write Graph.applyWrites
    cases g.setBase u y with
    | error cause => exact ih g
    | ok r => exact ih r.1

/-- The last value written from a map is the one found in it. -/
theorem latest?_toList (m : OrderedMap Tag Float) (t : Tag) :
    Writes.latest? m.toList t = m.get? t := by
  symm
  apply OrderedMap.get?_eq_of_mem_iff
  intro x
  refine ⟨fun hx => ?_, Writes.mem_of_latest?⟩
  cases hl : Writes.latest? m.toList t with
  | none => exact absurd (List.mem_map_of_mem hx) (Writes.latest?_eq_none_iff.1 hl)
  | some y =>
    have hy := OrderedMap.get?_eq_some_iff.2 (Writes.mem_of_latest? hl)
    exact hy.symm.trans (OrderedMap.get?_eq_some_iff.2 hx)

/-! ### Frames -/

variable [Animation α] (now : Float) (g : Graph)

/-- A driver writes to its own node. -/
theorem target_of_advance {now : Float} {g : Graph} {d : Driver α κ} {w : Tag × Float}
    (h : (advance now g d).2 = some w) : w.1 = d.target := by
  unfold advance at h
  split at h
  · split at h
    · obtain ⟨x, -, rfl⟩ := Option.map_eq_some_iff.1 h
      rfl
    · cases h
  · cases h

/-- After a frame the drivers are found that go on. -/
theorem get?_step (s : DriverSet α κ) (id : AnimationId) :
    (s.step now g).1.get? id =
      ((s.get? id).map fun d => (advance now g d).1).filter fun d => d.state.isActive := by
  show ((s.drivers.map fun _ d => (advance now g d).1).filter
    fun _ d => d.state.isActive).get? id = _
  rw [OrderedMap.get?_filter, OrderedMap.get?_map]
  rfl

/-- A frame keeps drivers under their names. -/
theorem Keyed.step (h : s.Keyed) : (s.step now g).1.Keyed := by
  intro j d hd
  rw [get?_step, Option.filter_eq_some_iff, Option.map_eq_some_iff] at hd
  obtain ⟨⟨d₀, hd₀, rfl⟩, -⟩ := hd
  rw [id_advance, h j d₀ hd₀]

/-- The values that a frame writes. -/
def valuesOf (s : DriverSet α κ) : Writes := s.drivers.values.filterMap fun d => (advance now g d).2

/-- The graph after a frame. -/
theorem graph_step (s : DriverSet α κ) :
    (s.step now g).2.1 =
      (g.applyWrites (arbitrate s.arbitration ∅ (s.valuesOf now g)).1.toList).1 :=
  fst_write g _

/-- Every value is that of a driver. -/
theorem mem_valuesOf {w : Tag × Float} :
    w ∈ s.valuesOf now g ↔ ∃ id d, s.get? id = some d ∧ (advance now g d).2 = some w := by
  simp only [valuesOf, OrderedMap.values, List.mem_filterMap, List.mem_map, get?,
    OrderedMap.get?_eq_some_iff]
  constructor
  · rintro ⟨d, ⟨p, hp, rfl⟩, hw⟩
    exact ⟨p.1, p.2, hp, hw⟩
  · rintro ⟨id, d, hd, hw⟩
    exact ⟨d, ⟨(id, d), hd, rfl⟩, hw⟩

/-- What a frame makes of a node: if it holds a number, the value that is kept for it
becomes its base value. -/
theorem node?_step (s : DriverSet α κ) (t : Tag) :
    (s.step now g).2.1.node? t =
      (g.node? t).map fun n =>
        if g.holds t then
          n.setBase (((arbitrate s.arbitration ∅ (s.valuesOf now g)).1.get? t).getD n.base)
        else n := by
  rw [graph_step, Graph.node?_applyWrites, latest?_toList]

/-- A frame has no value for a node that no driver is at work on. -/
theorem notMem_keys_of_no_driver (h : ∀ d ∈ s.drivers.values, d.target ≠ t) :
    t ∉ (arbitrate s.arbitration ∅ (s.valuesOf now g)).1.keys := by
  intro ht
  rw [keys_arbitrate, List.mem_append, List.mem_eraseDups, List.mem_filter] at ht
  rcases ht with ht | ⟨ht, -⟩
  · cases ht
  · obtain ⟨w, hw, rfl⟩ := List.mem_map.1 ht
    obtain ⟨d, hd, hw⟩ := List.mem_filterMap.1 hw
    exact h d hd (target_of_advance hw).symm

/-- A frame leaves a node that no driver is at work on. -/
theorem node?_step_of_no_driver (h : ∀ d ∈ s.drivers.values, d.target ≠ t) :
    (s.step now g).2.1.node? t = g.node? t := by
  have nothing := OrderedMap.get?_eq_none_iff.2 (notMem_keys_of_no_driver now g h)
  rw [graph_step]
  exact g.node?_applyWrites_of_latest?_eq_none ((latest?_toList _ t).trans nothing)

/-- In a frame a node on which one driver alone is at work receives the value of that driver. -/
theorem base?_step_of_only_driver (ht : g.holds t = true) {d : Driver α κ} (hd : s.get? id = some d)
    (only : ∀ j d', s.get? j = some d' → d'.target = t → j = id)
    (hx : (advance now g d).2 = some (t, x)) : (s.step now g).2.1.base? t = some x := by
  have same : ∀ y ∈ ((s.valuesOf now g).filter fun w => w.1 = t).map Prod.snd, y = x := by
    intro y hy
    obtain ⟨w, hw, rfl⟩ := List.mem_map.1 hy
    obtain ⟨hw, hwt⟩ := List.mem_filter.1 hw
    obtain ⟨j, d', hd', hw⟩ := (mem_valuesOf now g).1 hw
    obtain rfl := only j d' hd' ((target_of_advance hw).symm.trans (of_decide_eq_true hwt))
    obtain rfl : d = d' := Option.some.inj (hd.symm.trans hd')
    rw [hx] at hw
    exact congrArg Prod.snd (Option.some.inj hw).symm
  have given : x ∈ ((s.valuesOf now g).filter fun w => w.1 = t).map Prod.snd :=
    List.mem_map.2 ⟨(t, x), List.mem_filter.2
      ⟨(mem_valuesOf now g).2 ⟨id, d, hd, hx⟩, decide_eq_true rfl⟩, rfl⟩
  have kept : (arbitrate s.arbitration ∅ (s.valuesOf now g)).1.get? t = some x :=
    (get?_arbitrate _ _ _ _).trans (Arbitration.pick_eq_of_forall given same)
  obtain ⟨n, hn⟩ := Graph.exists_node?_of_holds ht
  rw [Graph.base?, node?_step, kept, hn, Option.map_some, if_pos ht]
  rfl

end MotionGraph.DriverSet
