import MotionGraph.Motion.Basic
import MotionGraph.Proofs.Driver.Lookup

/-!
# One frame of drivers

A frame moves every driver once, decides between the values of drivers of one node, writes what is
left and hands out the drivers that are over. `frame_arbitrates` says what comes of the three
passes together, in terms of the drivers whose nodes hold numbers (`DriverSet.working`): each goes
on with the base value from before the frame, each of their nodes gets one value, and the policy
picks whose (`Arbitration.pick`).
-/

namespace MotionGraph

/-- Things that a test decides about are those of them that pass, made into something else. -/
theorem filterMap_eq_map_filter {β γ : Type} {f : β → Option γ} {keep : β → Bool} {h : β → γ}
    {l : List β} (hf : ∀ b ∈ l, f b = if keep b then some (h b) else none) :
    l.filterMap f = (l.filter keep).map h := by
  induction l with
  | nil => rfl
  | cons b l ih =>
    have hl := ih fun c hc => hf c (List.mem_cons_of_mem b hc)
    have hb := hf b List.mem_cons_self
    cases hk : keep b <;> simp [hb, hk, hl]

namespace DriverSet

/-! ### Writing -/

/-- Values for nodes that hold numbers are all written. -/
theorem snd_write {g : Graph} {ws : Writes} (h : ∀ w ∈ ws, g.holds w.1 = true) :
    (write g ws).2 = ws := by
  induction ws generalizing g with
  | nil => rfl
  | cons w ws ih =>
    obtain ⟨t, x⟩ := w
    obtain ⟨r, hr, -⟩ := Graph.setBase_of_holds (h (t, x) List.mem_cons_self) x
    have after : g.after (.setBase t x) = r.1 := by
      rw [Graph.after, Graph.perform, hr]
      rfl
    have rest : (write r.1 ws).2 = ws := ih fun w hw => by
      rw [← after, Graph.holds_after_setBase]
      exact h w (List.mem_cons_of_mem _ hw)
    simp only [write, hr, rest]

end DriverSet

namespace Graph

/-- Writes leave the edges. -/
theorem edges_applyWrites (g : Graph) (ws : Writes) : (g.applyWrites ws).1.edges = g.edges := by
  refine applyWrites_induction (P := fun g' => g'.edges = g.edges) (fun g' t x r _ h hs => ?_) rfl
  obtain ⟨n, -, -, -, hr⟩ := setBase_eq_ok hs
  rw [hr, ← h]
  split <;> rfl

/-- Writes make no node and drop none. -/
theorem keys_applyWrites (g : Graph) (ws : Writes) :
    (g.applyWrites ws).1.nodes.keys = g.nodes.keys := by
  refine applyWrites_induction (P := fun g' => g'.nodes.keys = g.nodes.keys)
    (fun g' t x r _ h hs => ?_) rfl
  obtain ⟨n, -, -, -, hr⟩ := setBase_eq_ok hs
  rw [hr, ← h]
  split <;> exact OrderedMap.keys_modify

/-- Writes of one value for each node mark the nodes that they change. -/
theorem mem_marked_applyWrites_of_nodup {ws : Writes} (hd : (ws.map Prod.fst).Nodup) {g : Graph}
    {u : Tag} :
    u ∈ (g.applyWrites ws).1.marked ↔
      u ∈ g.marked ∨ ∃ x n, (u, x) ∈ ws ∧ g.node? u = some n ∧ n.holdsValue = true ∧
        n.baseChanges x = true := by
  have first : ∀ {before after : Writes} {x : Float}, ws = before ++ (u, x) :: after →
      before.latest? u = none := by
    rintro before after x rfl
    rw [List.map_append, List.nodup_append] at hd
    exact Writes.latest?_eq_none_iff.2 fun hu => hd.2.2 u hu u List.mem_cons_self rfl
  rw [mem_marked_applyWrites]
  refine or_congr_right ⟨?_, ?_⟩
  · rintro ⟨n, before, x, after, hn, hv, rfl, hc⟩
    rw [first rfl, Option.getD_none] at hc
    exact ⟨x, n, by simp, hn, hv, by simp [Node.baseChanges, hc]⟩
  · rintro ⟨x, n, hx, hn, hv, hb⟩
    obtain ⟨before, after, hs⟩ := List.append_of_mem hx
    refine ⟨n, before, x, after, hn, hv, hs, ?_⟩
    rw [first hs, Option.getD_none]
    simpa [Node.baseChanges] using hb

end Graph

namespace DriverSet

variable {α κ : Type} [Animation α]

/-! ### Drivers in a frame -/

omit [Animation α] in
/-- The drivers whose nodes are there and hold numbers, in the order of their start. -/
def working (s : DriverSet α κ) (g : Graph) : List (Driver α κ) :=
  s.drivers.values.filter fun d => g.holds d.target

/-- What a frame makes of a driver: it goes on once, with the base value that its node has before
the frame, or it is stopped because there is no such value. -/
inductive Moves (now : Float) (g : Graph) :
    AnimationId × Driver α κ → AnimationId × Driver α κ → Prop
  | goesOn {id : AnimationId} {d moved : Driver α κ} {n : Node} {x : Float}
      (hn : g.node? d.target = some n) (hv : n.holdsValue = true)
      (hx : d.step now n.base = (moved, some x)) : Moves now g (id, d) (id, moved)
  | stopped {id : AnimationId} {d : Driver α κ} (h : g.holds d.target = false) :
      Moves now g (id, d) (id, { d with state := .stopped })

variable {now : Float} {g : Graph} {d : Driver α κ}

/-- A driver that is not over gives a value when it goes on. -/
theorem exists_step_eq (active : d.state.isActive = true) (now current : Float) :
    ∃ x, (d.step now current).2 = some x := by
  cases hd : d.state with
  | pending => exact ⟨_, by simp only [Driver.step, hd]; rfl⟩
  | running => exact ⟨_, by simp only [Driver.step, hd]; rfl⟩
  | finished =>
    rw [hd] at active
    cases active
  | stopped =>
    rw [hd] at active
    cases active

/-- A driver whose node holds a number goes on with its base value. -/
theorem advance_of_node? (active : d.state.isActive = true) {n : Node}
    (hn : g.node? d.target = some n) (hv : n.holdsValue = true) :
    advance now g d =
      ((d.step now n.base).1, (d.step now n.base).2.map fun x => (d.target, x)) := by
  simp only [advance, active, if_true, Graph.holder_eq_ok.2 ⟨hn, hv⟩]

/-- A driver whose node holds no number is stopped. -/
theorem advance_of_not_holds (active : d.state.isActive = true) (h : g.holds d.target = false) :
    advance now g d = ({ d with state := .stopped }, none) := by
  have stop : d.stop = { d with state := .stopped } := if_pos active
  cases hh : g.holder d.target with
  | ok n =>
    obtain ⟨hn, hv⟩ := Graph.holder_eq_ok.1 hh
    rw [Graph.holds_of_node? hn hv] at h
    cases h
  | error cause => simp only [advance, active, if_true, hh, stop]

/-- A driver that is not over moves as a frame makes it. -/
theorem moves_advance (active : d.state.isActive = true) (id : AnimationId) :
    Moves now g (id, d) (id, (advance now g d).1) := by
  cases h : g.holds d.target with
  | false =>
    rw [advance_of_not_holds active h]
    exact .stopped h
  | true =>
    obtain ⟨n, hh⟩ := Graph.exists_holder_of_holds h
    obtain ⟨hn, hv⟩ := Graph.holder_eq_ok.1 hh
    obtain ⟨x, hx⟩ := exists_step_eq active now n.base
    rw [advance_of_node? active hn hv]
    exact .goesOn hn hv (Prod.ext rfl hx)

/-- The value that a driver gives in a frame. -/
def given (now : Float) (g : Graph) (d : Driver α κ) : Float :=
  ((advance now g d).2.map Prod.snd).getD 0.0

/-- The values of a frame are those of the drivers whose nodes hold numbers. -/
theorem valuesOf_eq (s : DriverSet α κ) (active : ∀ d ∈ s.drivers.values, d.state.isActive = true) :
    s.valuesOf now g = (s.working g).map fun d => (d.target, given now g d) := by
  refine filterMap_eq_map_filter fun d hd => ?_
  have ha := active d hd
  cases h : g.holds d.target with
  | false =>
    rw [advance_of_not_holds ha h]
    rfl
  | true =>
    obtain ⟨n, hh⟩ := Graph.exists_holder_of_holds h
    obtain ⟨hn, hv⟩ := Graph.holder_eq_ok.1 hh
    obtain ⟨x, hx⟩ := exists_step_eq ha now n.base
    simp [given, advance_of_node? ha hn hv, hx]

/-- The value that a driver gives is that of its step. -/
theorem given_eq (active : d.state.isActive = true) {n : Node} (hn : g.node? d.target = some n)
    (hv : n.holdsValue = true) : (d.step now n.base).2 = some (given now g d) := by
  obtain ⟨x, hx⟩ := exists_step_eq active now n.base
  rw [given, advance_of_node? active hn hv, hx]
  rfl

/-! ### The whole frame -/

section Kept

variable {s : DriverSet α κ} (active : ∀ d ∈ s.drivers.values, d.state.isActive = true)

include active

/-- Values are kept for the nodes of the drivers that go on. -/
theorem keys_kept :
    (arbitrate s.arbitration ∅ (s.valuesOf now g)).1.keys =
      ((s.working g).map Driver.target).eraseDups := by
  rw [keys_arbitrate, valuesOf_eq s active, List.map_map]
  have all : ∀ l : List Tag,
      (l.filter fun t => t ∉ (∅ : OrderedMap Tag Float).keys) = l := fun l =>
    List.filter_eq_self.2 fun t _ => decide_eq_true List.not_mem_nil
  rw [all]
  rfl

/-- The value kept for a node is given by the driver that the policy picks. -/
theorem get?_kept (u : Tag) :
    (arbitrate s.arbitration ∅ (s.valuesOf now g)).1.get? u =
      (s.arbitration.pick ((s.working g).filter fun d => d.target = u)).map (given now g) := by
  rw [get?_arbitrate, valuesOf_eq s active, List.filter_map, List.map_map, ← Arbitration.pick_map]
  rfl

/-- All values that are kept are written. -/
theorem written_step :
    (s.step now g).2.2.written = (arbitrate s.arbitration ∅ (s.valuesOf now g)).1.toList := by
  refine snd_write fun w hw => ?_
  have hk : w.1 ∈ ((s.working g).map Driver.target).eraseDups :=
    keys_kept active ▸ List.mem_map_of_mem hw
  obtain ⟨d, hd, he⟩ := List.mem_map.1 (List.mem_eraseDups.1 hk)
  exact he ▸ (List.mem_filter.1 hd).2

/-- A written value is that of the driver picked for its node. -/
theorem exists_picked_of_mem_written {u : Tag} {x : Float}
    (h : (u, x) ∈ (s.step now g).2.2.written) :
    ∃ d n, s.arbitration.pick ((s.working g).filter fun d => d.target = u) = some d ∧
      g.node? u = some n ∧ n.holdsValue = true ∧ (d.step now n.base).2 = some x ∧
      (s.step now g).2.1.node? u = some (n.setBase x) := by
  rw [written_step active] at h
  have kept := OrderedMap.get?_eq_some_iff.2 h
  have found := kept
  rw [get?_kept active, Option.map_eq_some_iff] at found
  obtain ⟨d, hd, rfl⟩ := found
  obtain ⟨hmem, ht⟩ := List.mem_filter.1 (Arbitration.mem_of_pick hd)
  obtain ⟨hmem, hh⟩ := List.mem_filter.1 hmem
  obtain rfl : d.target = u := of_decide_eq_true ht
  obtain ⟨n, hn⟩ := Graph.exists_holder_of_holds hh
  obtain ⟨hn, hv⟩ := Graph.holder_eq_ok.1 hn
  refine ⟨d, n, hd, hn, hv, given_eq (active d hmem) hn hv, ?_⟩
  rw [node?_step, kept, hn, Option.map_some, if_pos hh]
  rfl

end Kept

/-- **One frame arbitrates per node.** Take drivers that are all under way, in any graph, under
either policy. Every driver moves once: one whose node holds a number goes on with the base value
from before the frame, and gives a value; any other is stopped, and gives none. One value is written
for each node of the former, in the order in which the nodes first occur, and it is that of the last
or first driver of the node, as the policy picks; every further value is a conflict. A node that is
written has the written value for its base and is otherwise as it was; all other nodes and the edges
are as they were, and exactly the nodes are newly marked whose base value has changed. The drivers
that are over are handed out in the order of their start, and the others stay, in that order. -/
theorem frame_arbitrates (s : DriverSet α κ) (now : Float) (g : Graph)
    (active : ∀ d ∈ s.drivers.values, d.state.isActive = true) :
    let s' := (s.step now g).1
    let g' := (s.step now g).2.1
    let report := (s.step now g).2.2
    let targets := ((s.working g).map Driver.target).eraseDups
    (∃ moved, List.Forall₂ (Moves now g) s.drivers.toList moved ∧
        s'.drivers.toList = (moved.filter fun p => p.2.state.isActive) ∧
        report.completions =
          ((moved.filter fun p => !p.2.state.isActive).map fun p => p.2.completion)) ∧
      s'.arbitration = s.arbitration ∧
      report.written.map Prod.fst = targets ∧
      (∀ u x, (u, x) ∈ report.written → ∃ d n,
        s.arbitration.pick ((s.working g).filter fun d => d.target = u) = some d ∧
          g.node? u = some n ∧ (d.step now n.base).2 = some x ∧
          g'.node? u = some (n.setBase x)) ∧
      report.conflicts + targets.length = (s.working g).length ∧
      (∀ u ∉ targets, g'.node? u = g.node? u) ∧
      g'.edges = g.edges ∧
      ∀ u, u ∈ g'.marked ↔ u ∈ g.marked ∨
        ∃ x n, (u, x) ∈ report.written ∧ g.node? u = some n ∧ n.baseChanges x = true := by
  intro s' g' report targets
  have written : report.written = (arbitrate s.arbitration ∅ (s.valuesOf now g)).1.toList :=
    written_step active
  have keys : report.written.map Prod.fst = targets := written ▸ keys_kept active
  refine ⟨⟨s.drivers.toList.map fun p => (p.1, (advance now g p.2).1), ?_, rfl, ?_⟩, rfl, keys,
    fun u x h => ?_, ?_, fun u hu => ?_, ?_, fun u => ?_⟩
  · rw [List.forall₂_map_right_iff, List.forall₂_same]
    exact fun p hp => moves_advance (active p.2 (List.mem_map_of_mem hp)) p.1
  · show ((s.drivers.map fun _ d => (advance now g d).1).values.filter _).map _ = _
    rw [OrderedMap.values, List.filter_map, List.map_map]
    rfl
  · obtain ⟨d, n, hd, hn, -, hx, hn'⟩ := exists_picked_of_mem_written active h
    exact ⟨d, n, hd, hn, hx, hn'⟩
  · have count := conflicts_arbitrate s.arbitration ∅ (s.valuesOf now g)
    have values : (s.valuesOf now g).length = (s.working g).length := by
      rw [valuesOf_eq s active, List.length_map]
    rw [keys_kept active, values] at count
    exact count.trans (Nat.zero_add _)
  · have nothing : (arbitrate s.arbitration ∅ (s.valuesOf now g)).1.get? u = none :=
      OrderedMap.get?_eq_none_iff.2 (keys_kept active ▸ hu)
    show (s.step now g).2.1.node? u = g.node? u
    rw [graph_step]
    exact g.node?_applyWrites_of_latest?_eq_none ((latest?_toList _ u).trans nothing)
  · exact (congrArg Graph.edges (graph_step now g s)).trans (Graph.edges_applyWrites g _)
  · show u ∈ (s.step now g).2.1.marked ↔ _
    rw [graph_step, Graph.mem_marked_applyWrites_of_nodup (OrderedMap.keys_nodup _), ← written]
    refine or_congr_right (exists_congr fun x => exists_congr fun n => ?_)
    constructor
    · rintro ⟨hw, hn, -, hb⟩
      exact ⟨hw, hn, hb⟩
    · rintro ⟨hw, hn, hb⟩
      obtain ⟨-, m, -, hm, hv, -⟩ := exists_picked_of_mem_written active hw
      obtain rfl : m = n := Option.some.inj (hm.symm.trans hn)
      exact ⟨hw, hn, hv, hb⟩

/-- A driver that jumps to a value in its first frame. -/
def jumping (id : AnimationId) (target : Tag) (goal : Float) : Driver Motion Unit where
  id := id
  target := target
  animation := .timing { goal, curve := .eased 0.0 .linear, delay := 0.0 }
  iterations := .count 1

/-- Two drivers jump with one node, one shows the time in another, and one has no node. -/
def crowdedSet (arbitration : Arbitration) : DriverSet Motion Unit where
  drivers := .ofList
    [(⟨1⟩, jumping ⟨1⟩ ⟨1⟩ 10.0),
     (⟨2⟩, { id := ⟨2⟩, target := ⟨2⟩, animation := .clock, iterations := .count 1 }),
     (⟨3⟩, jumping ⟨3⟩ ⟨1⟩ 20.0), (⟨4⟩, jumping ⟨4⟩ ⟨9⟩ 5.0)]
  arbitration := arbitration

/-- The nodes of these drivers that are there. -/
def crowdedGraph : Graph :=
  Graph.empty.afterAll [.make ⟨1⟩ (.value 0.0 0.0), .make ⟨2⟩ (.value 16.0 0.0)]

/-- The two nodes are written, one value gives way, and only the node whose value changes is
marked. -/
theorem crowdedSet_arbitrates :
    let last := (crowdedSet .lastWriteWins).step 16.0 crowdedGraph
    let first := (crowdedSet .firstWriteWins).step 16.0 crowdedGraph
    last.2.2.written.map Prod.fst = [⟨1⟩, ⟨2⟩] ∧ last.2.2.conflicts = 1 ∧
      last.2.1.base? ⟨1⟩ = some 20.0 ∧ first.2.1.base? ⟨1⟩ = some 10.0 ∧
      last.2.1.marked.toList = [⟨1⟩] ∧ last.1.drivers.keys = [⟨2⟩] ∧
      last.2.2.completions.map (fun c => (c.report.animation, c.report.finished)) =
        [(⟨1⟩, true), (⟨3⟩, true), (⟨4⟩, false)] := by
  have active : ∀ d ∈ (crowdedSet .lastWriteWins).drivers.values, d.state.isActive = true := by
    decide +kernel
  have targets : (((crowdedSet .lastWriteWins).working crowdedGraph).map Driver.target).eraseDups =
      [⟨1⟩, ⟨2⟩] := by decide +kernel
  have count : ((crowdedSet .lastWriteWins).working crowdedGraph).length = 3 := by decide +kernel
  obtain ⟨-, -, written, -, conflicts, -⟩ :=
    frame_arbitrates (crowdedSet .lastWriteWins) 16.0 crowdedGraph active
  rw [targets] at written conflicts
  rw [count] at conflicts
  refine ⟨written, Nat.succ.inj (Nat.succ.inj conflicts), ?_⟩
  decide +kernel

end DriverSet

end MotionGraph
