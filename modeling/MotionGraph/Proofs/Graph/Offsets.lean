import MotionGraph.Proofs.Graph.Settled

/-!
# Moving numbers between base values and offsets

A node shows the sum of its base value and its offset. Merging the offset into the base value and
moving the base value into the offset keep the sum (`OffsetMove.value_node`), but either marks the
node, and the next propagation computes it again, with all that is above it.

What nodes show after that propagation can be read off the graph before the move
(`observed_after_move`). A kind that computes its value overwrites the base value that the move has
left, while the offset stays, so that moving the base value of such a node into its offset counts it
twice. All nodes show what they showed before exactly if the moved node does and no node above it
changes when it is computed again, by induction along the edges. In a permitted run only diff-clamps
can change then (`Settled.computed_eq`).
-/

namespace MotionGraph

/-- The ways to move the number of a node between its base value and its offset. -/
inductive OffsetMove where
  /-- The offset is merged into the base value. -/
  | flatten
  /-- The base value is moved into the offset. -/
  | extract
  deriving DecidableEq, Repr

namespace OffsetMove

/-- What a move makes of a node. -/
def node : OffsetMove → Node → Node
  | flatten => Node.flattenOffset
  | extract => Node.extractOffset

/-- The request for a move. -/
def request : OffsetMove → Tag → Graph.Request
  | flatten => .flattenOffset
  | extract => .extractOffset

/-- A move keeps the kind. -/
@[simp] theorem kind_node (move : OffsetMove) (n : Node) : (move.node n).kind = n.kind := by
  cases move <;> rfl

/-- **A move keeps the sum**, but for the negative zero, which becomes zero. -/
theorem value_node (move : OffsetMove) (n : Node) : (move.node n).value = n.value + 0.0 := by
  cases move with
  | flatten => rfl
  | extract =>
    calc
      (0.0 : Float) + (n.offset + n.base) = n.offset + n.base + 0.0 := Double.add_comm _ _
      _ = n.base + n.offset + 0.0 := by rw [Double.add_comm n.offset]

end OffsetMove

/-- Whether computing a node of the kind leaves it as it is: the kind computes no value, follows no
input and makes no call. -/
def Kind.isInert : Kind → Bool
  | .interpolation (some _) _ | .arithmetic _ _ | .diffClamp (some _) _ | .expression _
  | .proc _ => false
  | _ => true

/-- What a node shows that has been rewritten by a move and then computed. What a kind computes
replaces the base value that the move has left, and the offset is added to it. -/
def Graph.shownAfter (g : Graph) (move : OffsetMove) (n : Node) : Float :=
  match n.kind with
  | .diffClamp (some input) clamp =>
    (clamp.step (move.node n).base (g.read input)).2 + (move.node n).offset
  | k =>
    match k.compute? g.value? with
    | some x => x + (move.node n).offset
    | none => n.value + 0.0

namespace OffsetMove

variable {g : Graph} {n : Node}

/-- What a node of a kind that computes its value shows. -/
theorem shownAfter_of_compute? (move : OffsetMove) {x : Float}
    (hx : n.kind.compute? g.value? = some x) : g.shownAfter move n = x + (move.node n).offset := by
  unfold Graph.shownAfter
  split
  · next hk =>
    rw [hk] at hx
    cases hx
  · simp only [hx]

/-- What any other node shows, unless it is a diff-clamp with an input. -/
theorem shownAfter_of_isInert (move : OffsetMove) (h : n.kind.isInert = true) :
    g.shownAfter move n = n.value + 0.0 := by
  unfold Graph.shownAfter
  split
  · next hk =>
    rw [hk] at h
    cases h
  · cases hk : n.kind with
    | interpolation input curve => cases input <;> simp_all [Kind.isInert, Kind.compute?]
    | _ => simp_all [Kind.isInert, Kind.compute?]

/-- It is the value of what computing makes of the rewritten node. -/
theorem value_computed_node (move : OffsetMove) :
    ((move.node n).computed g).value = g.shownAfter move n := by
  unfold Graph.shownAfter
  split
  · next input clamp hk =>
    rw [Node.computed_diffClamp ((move.kind_node n).trans hk)]
    rfl
  · next hclamp =>
    have hk := move.kind_node n
    rw [Node.computed_of_ne_diffClamp (fun input clamp h => hclamp input clamp (hk.symm.trans h)),
      hk]
    cases hx : n.kind.compute? g.value? with
    | some x => rfl
    | none => exact move.value_node n

end OffsetMove

namespace Graph

/-- A graph in which a node has been rewritten by a move, and marked. -/
def moved (g : Graph) (move : OffsetMove) (t : Tag) : Graph := (g.update t move.node).touch t

/-- A move is granted for nodes that hold a number. -/
theorem perform_move_eq_ok {g g' : Graph} {move : OffsetMove} {t : Tag} :
    g.perform (move.request t) = .ok g' ↔
      ∃ n, (g.node? t = some n ∧ n.holdsValue = true) ∧ g' = g.moved move t := by
  cases move with
  | flatten => exact flattenOffset_eq_ok
  | extract => exact extractOffset_eq_ok

/-- Nothing is marked in a graph that is not pending. -/
theorem not_mem_marked {g : Graph} (hm : g.isPending = false) (t : Tag) : t ∉ g.marked := by
  rw [isPending, Bool.not_eq_false', OrderedSet.isEmpty, List.isEmpty_iff] at hm
  rw [← OrderedSet.mem_toList, hm]
  exact List.not_mem_nil

/-- What depends on a node that is there is there. -/
theorem Sound.exists_node?_of_dependsOn {g : Graph} (hs : g.Sound) {u t : Tag} {n : Node}
    (hd : g.edges.DependsOn u t) (hn : g.node? t = some n) : ∃ m, g.node? u = some m := by
  rcases Relation.ReflTransGen.cases_head hd with rfl | ⟨c, hr, -⟩
  · exact ⟨n, hn⟩
  · exact exists_node?_of_contains (hs.parent_live u c hr)

section Moved

variable {g : Graph} (move : OffsetMove) {t : Tag}

/-- The nodes after a move. -/
theorem node?_moved (u : Tag) :
    (g.moved move t).node? u = if u = t then (g.node? u).map move.node else g.node? u := by
  rw [moved, node?_touch, node?_update]

/-- Other nodes stay. -/
theorem node?_moved_of_ne {u : Tag} (hu : u ≠ t) : (g.moved move t).node? u = g.node? u := by
  rw [node?_moved, if_neg hu]

/-- All nodes keep their kinds. -/
theorem exists_node?_of_moved {u : Tag} {m : Node} (hm : (g.moved move t).node? u = some m) :
    ∃ n, g.node? u = some n ∧ m.kind = n.kind := by
  rw [node?_moved] at hm
  split at hm
  · obtain ⟨n, hn, rfl⟩ := Option.map_eq_some_iff.1 hm
    exact ⟨n, hn, move.kind_node n⟩
  · exact ⟨m, hm, rfl⟩

/-- A move makes no call. -/
theorem CallFree.moved (hc : g.CallFree) : (g.moved move t).CallFree := by
  intro u m hm
  obtain ⟨n, hn, hk⟩ := exists_node?_of_moved move hm
  rw [hk]
  exact hc u n hn

/-- A move makes no observation. -/
theorem ReadsWired.moved (hw : g.ReadsWired) : (g.moved move t).ReadsWired := by
  intro u m hm
  obtain ⟨n, hn, hk⟩ := exists_node?_of_moved move hm
  rw [hk]
  exact hw u n hn

variable {n : Node} (hs : g.Sound) (hn : g.node? t = some n) (hv : n.holdsValue = true)

include hs hn hv

/-- A move keeps the invariant. -/
theorem Sound.moved : (g.moved move t).Sound :=
  hs.perform (perform_move_eq_ok.2 ⟨n, ⟨hn, hv⟩, rfl⟩)

variable (hm : g.isPending = false)

include hm

/-- If nothing was marked, the node and all that depends on it are computed next. -/
theorem mem_affected_moved {u : Tag} :
    u ∈ (g.moved move t).affected ↔ g.edges.DependsOn u t := by
  have hmarked : ∀ m, m ∈ (g.moved move t).marked ↔ m = t := by
    intro m
    rw [Graph.moved, mem_marked_touch]
    exact or_iff_right (not_mem_marked hm m)
  rw [mem_affected_iff (hs.moved move hn hv)]
  constructor
  · rintro ⟨m, hmem, hd⟩
    rw [hmarked] at hmem
    exact hmem ▸ hd
  · intro hd
    exact ⟨t, (hmarked t).2 rfl, hd⟩

variable (hc : g.CallFree)

include hc

/-- Nodes that do not depend on the moved one stay. -/
theorem node?_propagate_moved_of_not_dependsOn {u : Tag} (hu : ¬g.edges.DependsOn u t) :
    (g.moved move t).propagate.1.node? u = g.node? u := by
  have hne : u ≠ t := by
    rintro rfl
    exact hu .refl
  rw [node?_propagate_of_notMem (hc.moved move) (mt (mem_affected_moved move hs hn hv hm).1 hu),
    node?_moved_of_ne move hne]

variable (hw : g.ReadsWired)

include hw

/-- **The moved node is computed again**, from the values as they were. -/
theorem node?_propagate_moved_self :
    (g.moved move t).propagate.1.node? t = some ((move.node n).computed g) := by
  have hnode : (g.moved move t).node? t = some (move.node n) := by
    rw [node?_moved, if_pos rfl, hn, Option.map_some]
  rw [node?_propagate_of_mem (hs.moved move hn hv) (hc.moved move) (hw.moved move)
    ((mem_affected_moved move hs hn hv hm).2 .refl) hnode, Option.some.injEq]
  refine computed_congr fun c hcn => ?_
  rw [OffsetMove.kind_node] at hcn
  -- an input of the node does not depend on it
  have hbelow : ¬g.edges.DependsOn c t := fun hd =>
    hs.acyclic t (Relation.TransGen.head' (hw t n hn c hcn) hd)
  rw [value?, value?, node?_propagate_moved_of_not_dependsOn move hs hn hv hm hc hbelow]

/-- Nodes above are computed again, from the values that there are then. -/
theorem node?_propagate_moved_above {u : Tag} {m : Node} (hu : u ≠ t) (hd : g.edges.DependsOn u t)
    (hum : g.node? u = some m) :
    (g.moved move t).propagate.1.node? u = some (m.computed (g.moved move t).propagate.1) :=
  node?_propagate_of_mem (hs.moved move hn hv) (hc.moved move) (hw.moved move)
    ((mem_affected_moved move hs hn hv hm).2 hd) ((node?_moved_of_ne move hu).trans hum)

/-- What the moved node shows then. -/
theorem value?_propagate_moved_self :
    (g.moved move t).propagate.1.value? t = some (g.shownAfter move n) := by
  rw [value?, node?_propagate_moved_self move hs hn hv hm hc hw, Option.map_some,
    move.value_computed_node]

/-- **When all nodes show what they showed before**: exactly if the moved node does, and computing a
node above it does not change what that node shows. -/
theorem value?_propagate_moved_iff :
    (∀ u, (g.moved move t).propagate.1.value? u = g.value? u) ↔
      g.shownAfter move n = n.value ∧
        ∀ u m, g.node? u = some m → g.edges.DependsOn u t → u ≠ t →
          (m.computed g).value = m.value := by
  have hself := value?_propagate_moved_self move hs hn hv hm hc hw
  have hbefore : g.value? t = some n.value := by rw [value?, hn, Option.map_some]
  constructor
  · intro h
    refine ⟨?_, fun u m hum hd hu => ?_⟩
    · exact Option.some.inj (hself.symm.trans ((h t).trans hbefore))
    · have hv' := h u
      rw [value?, value?, node?_propagate_moved_above move hs hn hv hm hc hw hu hd hum, hum,
        computed_congr fun c _ => h c] at hv'
      exact Option.some.inj hv'
  · rintro ⟨ht, habove⟩ u
    by_cases hd : g.edges.DependsOn u t
    · -- along the edges: the nodes that one reads show what they showed
      have hmem : u ∈ (g.moved move t).affected := (mem_affected_moved move hs hn hv hm).2 hd
      refine hs.acyclic.mem_induction
        (P := fun u => (g.moved move t).propagate.1.value? u = g.value? u)
        (fun a ha below => ?_) u hmem
      rw [mem_affected_moved move hs hn hv hm] at ha
      by_cases hat : a = t
      · subst hat
        rw [hself, hbefore, ht]
      · obtain ⟨m, ham⟩ := hs.exists_node?_of_dependsOn ha hn
        have hobserved : ∀ c ∈ m.kind.observes,
            (g.moved move t).propagate.1.value? c = g.value? c := by
          intro c hcm
          by_cases hcd : g.edges.DependsOn c t
          · exact below c ((mem_affected_moved move hs hn hv hm).2 hcd) (hw a m ham c hcm)
          · rw [value?, value?, node?_propagate_moved_of_not_dependsOn move hs hn hv hm hc hcd]
        rw [value?, value?, node?_propagate_moved_above move hs hn hv hm hc hw hat ha ham, ham,
          Option.map_some, Option.map_some, computed_congr hobserved, habove a m ham ha hat]
    · rw [value?, value?, node?_propagate_moved_of_not_dependsOn move hs hn hv hm hc hd]

end Moved

/-- **Computing a settled node again** leaves what it shows, if it is no diff-clamp that moves. -/
theorem Settled.value_computed {g : Graph} (h : g.Settled) (hb : g.Everywhere Kind.Bounded)
    {t : Tag} {n : Node} (hn : g.node? t = some n) (hl : g.Linked t n.kind) (hst : ¬g.Stale t)
    (hr : g.RestsAt t) : (n.computed g).value = n.value := by
  have hbase := (h.computed_eq hb hn hl hst).2.2 (hr n hn)
  rw [Node.value, Node.value, hbase, Node.offset_computed]

/-- What a settled diff-clamp shows: its input has not changed, so that the base value that the move
has left is brought between the bounds. -/
theorem Settled.shownAfter_diffClamp {g : Graph} (h : g.Settled) (hw : g.ReadsWired) {t : Tag}
    {n : Node} (hn : g.node? t = some n) (hst : ¬g.Stale t) {input : Tag} {clamp : DiffClamp}
    (hk : n.kind = .diffClamp (some input) clamp) (hf : (g.read input).isFinite = true)
    (move : OffsetMove) :
    g.shownAfter move n =
      Double.clamp ((move.node n).base + 0.0) clamp.low clamp.high + (move.node n).offset := by
  have hl : g.Linked t n.kind := hw.linked hn fun tree ht => by
    rw [hk] at ht
    cases ht
  have hchange : clamp.change (g.read input) = 0.0 := by
    rw [DiffClamp.change, h.last_eq hn hl hst hk]
    exact Double.sub_self hf
  simp only [shownAfter, hk, DiffClamp.step, hchange]

/-- **What nodes show after a move.** Let no call be in a graph of a run, let nodes read by edges
what they observe, and let nothing be marked. If the number of a node is moved between its base
value and its offset and values are propagated, then
* the node shows what `Graph.shownAfter` says, which is its value, but for the sign of
  zero, if its kind is inert;
* nodes that do not depend on it show what they showed;
* all nodes show what they showed exactly if it does, and computing a node above it does not
  change what that node shows.

In a permitted run moreover
* a linked node whose kind computes its value had this value for its base value, so that it shows
  this and the offset that the move has left;
* a diff-clamp with a finite input shows the base value that the move has left, brought between its
  bounds, and the offset;
* computing a node above does not change what that node shows, if it is no diff-clamp that moves;
* so all nodes show what they showed if the kind of the moved one is inert, its value is not the
  negative zero, and the diff-clamps above it rest. -/
theorem observed_after_move (requests : List Request) (move : OffsetMove) {t : Tag} {g g₁ : Graph}
    (hg : g = empty.afterAll requests) (hc : g.CallFree) (hw : g.ReadsWired)
    (hm : g.isPending = false) (h₁ : g.perform (move.request t) = .ok g₁) :
    ∃ n, g.node? t = some n ∧
      g₁.propagate.1.value? t = some (g.shownAfter move n) ∧
      (n.kind.isInert = true → g.shownAfter move n = n.value + 0.0) ∧
      (∀ u, ¬g.edges.DependsOn u t → g₁.propagate.1.value? u = g.value? u) ∧
      ((∀ u, g₁.propagate.1.value? u = g.value? u) ↔
        g.shownAfter move n = n.value ∧
          ∀ u m, g.node? u = some m → g.edges.DependsOn u t → u ≠ t →
            (m.computed g).value = m.value) ∧
      (empty.PermitsAll requests →
        (∀ x, n.kind.compute? g.value? = some x → g.Linked t n.kind →
          x = n.base ∧ g.shownAfter move n = n.base + (move.node n).offset) ∧
        (∀ input clamp, n.kind = .diffClamp (some input) clamp → (g.read input).isFinite = true →
          g.shownAfter move n =
            Double.clamp ((move.node n).base + 0.0) clamp.low clamp.high + (move.node n).offset) ∧
        (∀ u m, g.node? u = some m → g.edges.DependsOn u t → u ≠ t → g.RestsAt u →
          (m.computed g).value = m.value) ∧
        (n.kind.isInert = true → n.value ≠ -0.0 →
          (∀ u, g.edges.DependsOn u t → u ≠ t → g.RestsAt u) →
          ∀ u, g₁.propagate.1.value? u = g.value? u)) := by
  have hs : g.Sound := hg ▸ sound_afterAll requests
  have hb : g.Everywhere Kind.Bounded := hg ▸ everywhere_afterAll Kind.lasting_bounded requests
  obtain ⟨n, ⟨hn, hv⟩, rfl⟩ := perform_move_eq_ok.1 h₁
  have hiff := value?_propagate_moved_iff move hs hn hv hm hc hw
  refine ⟨n, hn, value?_propagate_moved_self move hs hn hv hm hc hw, move.shownAfter_of_isInert,
    fun u hu => ?_, hiff, fun hp => ?_⟩
  · rw [value?, value?, node?_propagate_moved_of_not_dependsOn move hs hn hv hm hc hu]
  have hsettled : g.Settled := hg ▸ Settled.empty.afterAll hp
  have hstale : ∀ u, ¬g.Stale u := by
    rintro u ⟨m, hmem, -⟩
    exact not_mem_marked hm m hmem
  have habove : ∀ u m, g.node? u = some m → g.edges.DependsOn u t → u ≠ t → g.RestsAt u →
      (m.computed g).value = m.value := by
    intro u m hum hd hu hr
    obtain rfl | ⟨c, hc, -⟩ := Relation.ReflTransGen.cases_head hd
    · exact absurd rfl hu
    · exact hsettled.value_computed hb hum (hw.linked hum fun _ _ => ⟨c, hc⟩) (hstale u) hr
  refine ⟨fun x hx hl => ?_, fun input clamp hk hf => ?_, habove, fun hk hz hr => ?_⟩
  · have hconsistent : g.Consistent := hg ▸ consistent_empty.afterAll hp
    obtain rfl : n.base = x :=
      (hconsistent.current t n hn hl.wired).resolve_left (hstale t) x hx
    exact ⟨rfl, move.shownAfter_of_compute? hx⟩
  · exact hsettled.shownAfter_diffClamp hw hn (hstale t) hk hf move
  · refine hiff.2 ⟨?_, fun u m hum hd hu => habove u m hum hd hu (hr u hd hu)⟩
    rw [move.shownAfter_of_isInert hk, Double.add_zero hz]

/-- A value with an offset, what a diff-clamp makes of its changes, and the sum of the two. -/
def steadyRun : List Request :=
  [.make ⟨1⟩ (.value 2.0 3.0), .make ⟨2⟩ (.diffClamp none (-10.0) 10.0),
   .make ⟨3⟩ (.arithmetic .addition []), .connect ⟨2⟩ ⟨1⟩, .connect ⟨3⟩ ⟨1⟩, .connect ⟨3⟩ ⟨2⟩,
   .propagate, .setBase ⟨1⟩ 6.0, .propagate]

set_option maxRecDepth 2000 in
/-- Merging the offset of the value is seen by no node. -/
theorem steadyRun_flattened :
    let g := empty.afterAll steadyRun
    let g₁ := g.moved .flatten ⟨1⟩
    g.CallFree ∧ g.ReadsWired ∧ g.isPending = false ∧ empty.PermitsAll steadyRun ∧
      g.perform (OffsetMove.flatten.request ⟨1⟩) = .ok g₁ ∧
      g₁.propagate.1.value? ⟨3⟩ = some 13.0 ∧ ∀ u, g₁.propagate.1.value? u = g.value? u := by
  have hc : (empty.afterAll steadyRun).CallFree := by decide +kernel
  have hw : (empty.afterAll steadyRun).ReadsWired := by decide +kernel
  have hm : (empty.afterAll steadyRun).isPending = false := by decide +kernel
  have hp : empty.PermitsAll steadyRun := by decide +kernel
  have hn : (empty.afterAll steadyRun).node? ⟨1⟩ = some ⟨⟨1⟩, .value, 6.0, 3.0⟩ := by
    with_unfolding_all rfl
  have hrests : ∀ u n, (empty.afterAll steadyRun).node? u = some n →
      (empty.afterAll steadyRun).RestsAt u := by decide +kernel
  have hshown : (empty.afterAll steadyRun).value? ⟨3⟩ = some 13.0 := by decide +kernel
  have h₁ : (empty.afterAll steadyRun).perform (OffsetMove.flatten.request ⟨1⟩) =
      .ok ((empty.afterAll steadyRun).moved .flatten ⟨1⟩) :=
    perform_move_eq_ok.2 ⟨_, ⟨hn, rfl⟩, rfl⟩
  obtain ⟨n, hn', -, -, -, -, hpermitted⟩ := observed_after_move steadyRun .flatten rfl hc hw hm h₁
  obtain rfl : _ = n := Option.some.inj (hn.symm.trans hn')
  obtain ⟨-, -, -, hall⟩ := hpermitted hp
  have hsame := hall rfl (by decide +kernel) fun u _ _ m hum => hrests u m hum m hum
  exact ⟨hc, hw, hm, hp, h₁, (hsame ⟨3⟩).trans hshown, hsame⟩

/-- Moving the base value of the sum into its offset doubles what the sum shows, since the next
propagation computes the base value again. -/
theorem steadyRun_extracted :
    let g := empty.afterAll steadyRun
    let g' := (g.after (.extractOffset ⟨3⟩)).propagate.1
    g.CallFree ∧ g.ReadsWired ∧ g.isPending = false ∧ empty.PermitsAll steadyRun ∧
      (g.perform (.extractOffset ⟨3⟩)).isOk = true ∧
      g.value? ⟨3⟩ = some 13.0 ∧ g'.value? ⟨3⟩ = some 26.0 := by
  decide +kernel

end Graph

end MotionGraph
