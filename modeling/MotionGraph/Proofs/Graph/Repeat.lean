import MotionGraph.Proofs.Graph.Computed
import MotionGraph.Proofs.Graph.Kinds
import MotionGraph.Proofs.Node.Clamp

/-!
# The same marks again

In a round some nodes are marked, values are propagated, and all props nodes that were computed hand
out their updates (`Graph.round`). The same marks once more should find nothing to do. They do so up
to two things about doubles (`second_pass`): no base value changes exactly if the diff-clamps among
the computed nodes rest, and then a props node that the first pass has computed has another update
to hand out exactly if one of its numbers is undefined.

By the first pass every computed node is what computing makes of it (`node?_propagate_of_mem`), from
values that taking updates does not change (`SameOutline`). Computing it again leaves it, if it is
no diff-clamp (`computed_computed`), and if none of them moves the whole graph stays
(`evaluateAll_of_fixed`).
-/

namespace MotionGraph

namespace Node

/-! ### Computing twice -/

variable {g : Graph} {n : Node}

/-- Computing a node that is no diff-clamp with an input twice is computing it once. -/
theorem computed_computed_of_ne (hk : ∀ input clamp, n.kind ≠ .diffClamp (some input) clamp) :
    (n.computed g).computed g = n.computed g := by
  have hkind : (n.computed g).kind = n.kind := by
    rw [computed_of_ne_diffClamp hk]
    split <;> rfl
  rw [computed_of_ne_diffClamp (n := n.computed g) (hkind ▸ hk), hkind, computed_of_ne_diffClamp hk]
  cases n.kind.compute? g.value? <;> rfl

/-- Computing a node twice from the same values changes its base value at most. -/
theorem computed_computed (g : Graph) (n : Node) :
    (n.computed g).computed g = (n.computed g).setBase ((n.computed g).computed g).base := by
  by_cases hk : ∃ input clamp, n.kind = .diffClamp (some input) clamp
  · obtain ⟨input, clamp, hk⟩ := hk
    rw [computed_diffClamp hk, computed_diffClamp rfl]
    rfl
  · rw [computed_computed_of_ne fun input clamp h => hk ⟨input, clamp, h⟩]
    rfl

/-- Computing twice leaves the base value of computing once exactly if the node is no diff-clamp
that moves at the input that it has just seen. -/
theorem base_computed_computed_iff (hb : n.kind.Bounded) :
    ((n.computed g).computed g).base = (n.computed g).base ↔
      ∀ input clamp, (n.computed g).kind = .diffClamp (some input) clamp →
        DiffClamp.Rests (n.computed g).base (g.read input) := by
  by_cases hk : ∃ input clamp, n.kind = .diffClamp (some input) clamp
  · obtain ⟨input, clamp, hk⟩ := hk
    have hbounds : DiffClamp.areBounds clamp.low clamp.high = true := by
      rw [hk] at hb
      exact hb
    have hlast : (clamp.step n.base (g.read input)).1.last = some (g.read input) := rfl
    have hiff := DiffClamp.base_step_self_iff hlast (clamp.clamp_step hbounds n.base (g.read input))
    rw [computed_diffClamp hk, computed_diffClamp rfl]
    refine hiff.trans ⟨?_, fun h => h input _ rfl⟩
    rintro h _ _ ⟨⟩
    exact h
  · have hne : ∀ input clamp, n.kind ≠ .diffClamp (some input) clamp := fun input clamp h =>
      hk ⟨input, clamp, h⟩
    have hkind : (n.computed g).kind = n.kind := by
      rw [computed_of_ne_diffClamp hne]
      split <;> rfl
    rw [computed_computed_of_ne hne, hkind]
    exact ⟨fun _ input clamp h => absurd h (hne input clamp), fun _ => rfl⟩

/-- A props node is computed without effect. -/
theorem computed_props {p : Props} (hk : n.kind = .props p) : n.computed g = n := by
  rw [computed_of_ne_diffClamp fun input clamp h => by rw [hk] at h; cases h]
  simp only [hk, Kind.compute?]

/-- Nodes of the same outline are the same, if the one is no props node. -/
theorem eq_of_outline {n n' : Node} (hp : ∀ p, n.kind ≠ .props p) (h : n.outline = n'.outline) :
    n = n' := by
  have hk : n.kind = n'.kind := by
    have ho := kind_of_outline h
    cases hn : n.kind <;> cases hn' : n'.kind <;> simp_all [Kind.outline]
  calc
    n = { n.outline with kind := n.kind } := rfl
    _ = { n'.outline with kind := n'.kind } := by rw [h, hk]
    _ = n' := rfl

end Node

namespace Graph

variable {g g' : Graph}

/-- Property maps are known from what nodes show. -/
theorem propsOf_congr (h : g'.shown? = g.shown?) {p p' : Props} (hp : p'.sources = p.sources) :
    g'.propsOf p' = g.propsOf p := by
  have hoperand : g'.operand = g.operand := by
    funext o
    cases o with
    | node c => rw [operand, operand, read, read, value?_eq_shown?, value?_eq_shown?, h]
    | constant x => rfl
  have hvalue : g'.propValue? = g.propValue? := by
    funext t
    rw [propValue?_eq, propValue?_eq, h, hoperand]
  have hinsert : g'.insertProp = g.insertProp := by
    funext m name t
    rw [insertProp, insertProp, hvalue]
  have hsource : g'.insertSource = g.insertSource := by
    funext m name t
    rw [insertSource_eq, insertSource_eq, h, hinsert]
  rw [propsOf, propsOf, hp, hsource]

/-! ### Marks and what views have received -/

/-- A request to mark a node marks it if it is there. -/
theorem after_mark (g : Graph) (t : Tag) :
    g.after (.mark t) = if g.contains t then g.touch t else g := by
  unfold after
  split
  · next hg =>
    obtain ⟨n, hn, rfl⟩ := mark_eq_ok.1 hg
    rw [if_pos (contains_of_node? hn)]
  · next cause hg =>
    refine (if_neg fun hlive => ?_).symm
    obtain ⟨n, hn⟩ := exists_node?_of_contains hlive
    rw [show g.perform (.mark t) = .ok (g.touch t) from mark_eq_ok.2 ⟨n, hn, rfl⟩] at hg
    cases hg

/-- Two graphs that differ in marks and in what is kept about views at most. -/
structure SameOutline (g g' : Graph) : Prop where
  edges : g'.edges = g.edges
  node : ∀ t, (g'.node? t).map Node.outline = (g.node? t).map Node.outline

namespace SameOutline

/-- A graph has its own outline. -/
theorem refl (g : Graph) : SameOutline g g := ⟨rfl, fun _ => rfl⟩

/-- Sameness of outline goes on from step to step. -/
theorem trans {g'' : Graph} (h : SameOutline g g') (h' : SameOutline g' g'') : SameOutline g g'' :=
  ⟨h'.edges.trans h.edges, fun t => (h'.node t).trans (h.node t)⟩

/-- Replacing what is kept about a view keeps the outline. -/
theorem setProps {t : Tag} {n : Node} {p q : Props} (hn : g.node? t = some n)
    (hp : n.kind = .props p) (hq : q.sources = p.sources) : SameOutline g (g.setProps t q) := by
  refine ⟨rfl, fun u => ?_⟩
  rw [Graph.setProps, node?_update]
  by_cases hu : u = t
  · subst hu
    simp [hn, Node.outline, hp, Kind.outline, hq]
  · rw [if_neg hu]

/-- Taking an update keeps the outline. -/
theorem takeUpdate (g : Graph) (t : Tag) : SameOutline g (g.takeUpdate t).1 := by
  rcases takeUpdate_cases g t with ⟨he, -⟩ | ⟨n, p, view, hn, hk, -, -, he⟩
  · rw [he]
    exact refl g
  · rw [he]
    exact setProps hn hk rfl

/-- Marking keeps the outline. -/
theorem mark (g : Graph) (t : Tag) : SameOutline g (g.after (.mark t)) := by
  rw [after_mark]
  split
  · exact ⟨rfl, fun _ => rfl⟩
  · exact refl g

/-- What one request keeps, several keep. -/
theorem afterAll {f : Tag → Request} (h : ∀ g t, SameOutline g (g.after (f t))) (g : Graph)
    (ts : List Tag) : SameOutline g (g.afterAll (ts.map f)) := by
  induction ts generalizing g with
  | nil => exact refl g
  | cons t ts ih => exact (h g t).trans (ih _)

/-- Marking several nodes keeps the outline. -/
theorem marks (g : Graph) (ts : List Tag) : SameOutline g (g.afterAll (ts.map .mark)) :=
  afterAll mark g ts

/-- Taking several updates keeps the outline. -/
theorem updates (g : Graph) (ts : List Tag) : SameOutline g (g.afterAll (ts.map .takeUpdate)) :=
  afterAll (f := .takeUpdate) takeUpdate g ts

variable (h : SameOutline g g')

include h

/-- The node of a name has a counterpart of the same outline. -/
theorem exists_node? {t : Tag} {n' : Node} (hn : g'.node? t = some n') :
    ∃ n, g.node? t = some n ∧ n'.outline = n.outline := by
  have ht := h.node t
  rw [hn, Option.map_some, eq_comm, Option.map_eq_some_iff] at ht
  obtain ⟨n, hn, ho⟩ := ht
  exact ⟨n, hn, ho.symm⟩

/-- The same nodes are there. -/
theorem contains (t : Tag) : g'.contains t = g.contains t := by
  have ht := congrArg Option.isSome (h.node t)
  simpa [contains_eq_isSome] using ht

/-- All values are the same. -/
theorem value? : g'.value? = g.value? := by
  funext t
  have ht := congrArg (Option.map Node.value) (h.node t)
  rw [Option.map_map, Option.map_map] at ht
  exact ht

/-- Base values are the same. -/
theorem base? (t : Tag) : g'.base? t = g.base? t := by
  have ht := congrArg (Option.map Node.base) (h.node t)
  rw [Option.map_map, Option.map_map] at ht
  exact ht

/-- No call has come. -/
theorem callFree (hc : g.CallFree) : g'.CallFree := by
  intro t n' hn'
  obtain ⟨n, hn, ho⟩ := h.exists_node? hn'
  have hk := Node.kind_of_outline ho
  rw [← Kind.isCall_outline, hk, Kind.isCall_outline]
  exact hc t n hn

/-- What nodes observe is read by edges. -/
theorem readsWired (hw : g.ReadsWired) : g'.ReadsWired := by
  intro t n' hn' c hcn
  obtain ⟨n, hn, ho⟩ := h.exists_node? hn'
  have hk := Node.kind_of_outline ho
  rw [← Kind.observes_outline, hk, Kind.observes_outline] at hcn
  rw [h.edges]
  exact hw t n hn c hcn

/-- What is computed of a node is the same. -/
theorem computed (n : Node) : n.computed g' = n.computed g :=
  computed_congr fun c _ => congrFun h.value? c

/-- All nodes show the same. -/
theorem shown? : g'.shown? = g.shown? := by
  funext t
  have hf : (fun n : Node => (n.outline.kind.facade, n.outline.value)) =
      fun n => (n.kind.facade, n.value) :=
    funext fun n => Prod.ext (Kind.facade_outline n.kind) rfl
  have ht := congrArg (Option.map fun n : Node => (n.kind.facade, n.value)) (h.node t)
  rw [Option.map_map, Option.map_map, Function.comp_def, hf] at ht
  exact ht

/-- All props nodes have the same property maps. -/
theorem propsOf {p p' : Props} (hp : p'.sources = p.sources) : g'.propsOf p' = g.propsOf p :=
  propsOf_congr h.shown? hp

end SameOutline

/-! ### Nodes with nothing to hand out -/

/-- Whether a props node has nothing to hand out: it has no view, or the view has
received a map that agrees. -/
def Quiet (p : Props) (m : PropMap) : Prop :=
  p.view = none ∨ ∃ last, p.lastSent = some last ∧ last.agrees m = true

/-- When no update is handed out. -/
theorem takeUpdate_eq_none_iff {t : Tag} {n : Node} {p : Props} (hn : g.node? t = some n)
    (hk : n.kind = .props p) : (g.takeUpdate t).2 = none ↔ Quiet p (g.propsOf p) := by
  have same : ∀ m q, g.node? t = some m → m.kind = .props q → q = p := by
    intro m q hm hq
    obtain rfl : n = m := Option.some.inj (hn.symm.trans hm)
    rw [hk] at hq
    cases hq
    rfl
  rcases takeUpdate_cases g t with ⟨he, hq⟩ | ⟨m, q, view, hm, hq, hv, hsent, he⟩
  · rw [he]
    refine iff_of_true rfl ?_
    cases hv : p.view with
    | none => exact Or.inl hv
    | some view => exact Or.inr (hq n p hn hk (by rw [hv]; rfl))
  · obtain rfl := same m q hm hq
    rw [he]
    refine iff_of_false nofun ?_
    rintro (hv' | ⟨last, hlast, ha⟩)
    · rw [hv] at hv'
      cases hv'
    · rw [hsent last hlast] at ha
      cases ha

/-- What taking the update of a node makes of a props node: it has nothing to hand out afterwards if
its own was taken and its numbers are defined, or if another was taken and it had nothing before. -/
theorem quiet_takeUpdate (u : Tag) {t : Tag} {n : Node} {p : Props} (hn : g.node? t = some n)
    (hk : n.kind = .props p) :
    ∃ n' p', (g.takeUpdate u).1.node? t = some n' ∧ n'.kind = .props p' ∧ p'.sources = p.sources ∧
      p'.view = p.view ∧
      (Quiet p' (g.propsOf p) ↔
        if t = u then p.view = none ∨ (g.propsOf p).isDefined = true
        else Quiet p (g.propsOf p)) := by
  rcases takeUpdate_cases g u with ⟨he, hq⟩ | ⟨m, q, view, hm, hq, hv, -, he⟩
  · refine ⟨n, p, by rw [he]; exact hn, hk, rfl, rfl, ?_⟩
    split
    · next hu =>
      subst hu
      refine or_congr_right' fun hv => ?_
      obtain ⟨last, hlast, ha⟩ := hq n p hn hk (Option.isSome_iff_ne_none.2 hv)
      exact iff_of_true ⟨last, hlast, ha⟩ (PropMap.isDefined_of_agrees ha)
    · rfl
  · by_cases hu : t = u
    · subst hu
      obtain rfl : n = m := Option.some.inj (hn.symm.trans hm)
      obtain rfl : p = q := by
        rw [hk] at hq
        cases hq
        rfl
      let p' : Props := { p with lastSent := some (g.propsOf p) }
      refine ⟨{ n with kind := .props p' }, p', ?_, rfl, rfl, rfl, ?_⟩
      · rw [he]
        show (g.setProps t _).node? t = _
        rw [setProps, node?_update, if_pos rfl, hn]
        rfl
      · simp [Quiet, p', PropMap.agrees_self]
    · refine ⟨n, p, ?_, hk, rfl, rfl, by rw [if_neg hu]⟩
      rw [he]
      show (g.setProps u _).node? t = _
      rw [setProps, node?_update, if_neg hu]
      exact hn

/-- What taking the updates of several nodes makes of a props node. -/
theorem quiet_afterAll_takeUpdate (ts : List Tag) {t : Tag} {n : Node} {p : Props}
    (hn : g.node? t = some n) (hk : n.kind = .props p) :
    ∃ n' p', (g.afterAll (ts.map .takeUpdate)).node? t = some n' ∧ n'.kind = .props p' ∧
      p'.sources = p.sources ∧ p'.view = p.view ∧
      (Quiet p' (g.propsOf p) ↔
        if t ∈ ts then p.view = none ∨ (g.propsOf p).isDefined = true
        else Quiet p (g.propsOf p)) := by
  induction ts generalizing g n p with
  | nil => exact ⟨n, p, hn, hk, rfl, rfl, by simp⟩
  | cons u ts ih =>
    obtain ⟨n₁, p₁, hn₁, hk₁, hp₁, hv₁, hq₁⟩ := quiet_takeUpdate u hn hk
    have hm : (g.takeUpdate u).1.propsOf p₁ = g.propsOf p :=
      (SameOutline.takeUpdate g u).propsOf hp₁
    obtain ⟨n₂, p₂, hn₂, hk₂, hp₂, hv₂, hq₂⟩ := ih hn₁ hk₁
    refine ⟨n₂, p₂, hn₂, hk₂, hp₂.trans hp₁, hv₂.trans hv₁, ?_⟩
    rw [hm, hv₁] at hq₂
    simp only [hq₂, hq₁, List.mem_cons]
    by_cases hts : t ∈ ts <;> simp [hts]

/-! ### Rounds -/

/-- Whether a node stays where it is when it sees the same inputs again: if it is a diff-clamp with
an input, it rests there. -/
def RestsAt (g : Graph) (t : Tag) : Prop :=
  ∀ n, g.node? t = some n → ∀ input clamp, n.kind = .diffClamp (some input) clamp →
    DiffClamp.Rests n.base (g.read input)

instance (g : Graph) (t : Tag) : Decidable (g.RestsAt t) :=
  decidable_of_iff
    (((g.node? t).all fun n =>
      match n.kind with
      | .diffClamp (some input) _ => decide (DiffClamp.Rests n.base (g.read input))
      | _ => true) = true) <| by
    unfold RestsAt
    cases g.node? t with
    | none => simp
    | some n => cases hk : n.kind with
      | diffClamp input clamp => cases input <;> simp [hk]
      | _ => simp [hk]

/-- Marks nodes and propagates values. -/
def pass (g : Graph) (tags : List Tag) : Graph × Pass := (g.afterAll (tags.map .mark)).propagate

/-- Marks nodes, propagates values, and takes the updates of all props nodes that were computed. -/
def round (g : Graph) (tags : List Tag) : Graph :=
  (g.pass tags).1.afterAll ((g.pass tags).2.sinks.toList.map .takeUpdate)

/-- Marking several nodes marks those that are there. -/
theorem mem_marked_afterAll_mark (tags : List Tag) {t : Tag} :
    t ∈ (g.afterAll (tags.map .mark)).marked ↔ t ∈ g.marked ∨ t ∈ tags ∧ g.contains t = true := by
  induction tags generalizing g with
  | nil => simp [afterAll]
  | cons u tags ih =>
    have hmark : t ∈ (g.after (.mark u)).marked ↔ t ∈ g.marked ∨ t = u ∧ g.contains u = true := by
      rw [after_mark]
      split
      · next hu => simp [hu]
      · next hu => simp [hu]
    show t ∈ ((g.after (.mark u)).afterAll (tags.map .mark)).marked ↔ _
    rw [ih, hmark, (SameOutline.mark g u).contains, List.mem_cons]
    constructor
    · rintro ((h | ⟨rfl, h⟩) | ⟨h, h'⟩)
      · exact Or.inl h
      · exact Or.inr ⟨Or.inl rfl, h⟩
      · exact Or.inr ⟨Or.inr h, h'⟩
    · rintro (h | ⟨rfl | h, h'⟩)
      · exact Or.inl (Or.inl h)
      · exact Or.inl (Or.inr ⟨rfl, h'⟩)
      · exact Or.inr ⟨h, h'⟩

/-- Taking updates marks nothing. -/
theorem marked_afterAll_takeUpdate (ts : List Tag) :
    (g.afterAll (ts.map .takeUpdate)).marked = g.marked := by
  induction ts generalizing g with
  | nil => rfl
  | cons t ts ih => exact ih.trans (marked_takeUpdate g t)

/-- Marks leave the nodes. -/
theorem node?_afterAll_mark (tags : List Tag) (t : Tag) :
    (g.afterAll (tags.map .mark)).node? t = g.node? t := by
  induction tags generalizing g with
  | nil => rfl
  | cons u tags ih =>
    refine ih.trans ?_
    rw [after_mark]
    split <;> rfl

section Round

variable (g) (tags : List Tag)

/-- A pass leaves no marks. -/
theorem not_mem_marked_pass {t : Tag} : t ∉ (g.pass tags).1.marked := by
  rw [pass, (sameDesign_propagate _).marked]
  exact List.not_mem_nil

/-- Updates are taken without changing the outline. -/
theorem sameOutline_round : SameOutline (g.pass tags).1 (g.round tags) := SameOutline.updates _ _

/-- The same nodes are there after a round. -/
theorem contains_round (t : Tag) : (g.round tags).contains t = g.contains t := by
  have hpass : (g.pass tags).1.contains t = (g.afterAll (tags.map .mark)).contains t :=
    (sameDesign_propagate (g.afterAll (tags.map .mark))).contains t
  rw [(sameOutline_round g tags).contains, hpass, (SameOutline.marks g tags).contains]

/-- So are the same edges. -/
theorem edges_round : (g.round tags).edges = g.edges := by
  have hpass : (g.pass tags).1.edges = (g.afterAll (tags.map .mark)).edges :=
    (sameDesign_propagate (g.afterAll (tags.map .mark))).edges
  rw [(sameOutline_round g tags).edges, hpass, (SameOutline.marks g tags).edges]

variable {g}

/-- No call has come. -/
theorem callFree_round (hc : g.CallFree) : (g.round tags).CallFree :=
  (sameOutline_round g tags).callFree
    (CallFree.of_sameDesign (g := { g.afterAll (tags.map .mark) with marked := ∅ })
      ((SameOutline.marks g tags).callFree hc) (sameDesign_propagate _))

/-- What nodes observe is read by edges. -/
theorem readsWired_round (hw : g.ReadsWired) : (g.round tags).ReadsWired :=
  (sameOutline_round g tags).readsWired
    (ReadsWired.of_sameDesign (g := { g.afterAll (tags.map .mark) with marked := ∅ })
      ((SameOutline.marks g tags).readsWired hw) (sameDesign_propagate _))

/-- A pass leaves props nodes. -/
theorem node?_pass_props (hc : g.CallFree) (hw : g.ReadsWired) (hs : g.Sound) {t : Tag} {n : Node}
    {p : Props} (hn : g.node? t = some n) (hk : n.kind = .props p) :
    (g.pass tags).1.node? t = some n := by
  have hmarks := SameOutline.marks g tags
  have hn' := (node?_afterAll_mark tags t).trans hn
  by_cases ht : t ∈ (g.afterAll (tags.map .mark)).affected
  · rw [pass, node?_propagate_of_mem (hs.afterAll _) (hmarks.callFree hc) (hmarks.readsWired hw)
      ht hn', Node.computed_props hk]
  · rw [pass, node?_propagate_of_notMem (hmarks.callFree hc) ht, hn']

variable (hs : g.Sound)

include hs

/-- A round keeps the invariant. -/
theorem sound_round : (g.round tags).Sound :=
  ((hs.afterAll _).perform (r := .propagate) rfl).afterAll _

/-- The second pass computes nothing that the first has not computed. -/
theorem affected_round_subset :
    ((g.round tags).afterAll (tags.map .mark)).affected ⊆
      (g.afterAll (tags.map .mark)).affected := by
  intro t ht
  rw [mem_affected_iff ((sound_round tags hs).afterAll _)] at ht
  rw [mem_affected_iff (hs.afterAll _)]
  obtain ⟨m, hm, hd⟩ := ht
  refine ⟨m, ?_, ?_⟩
  · rw [mem_marked_afterAll_mark] at hm ⊢
    rcases hm with hm | ⟨hm, hlive⟩
    · rw [round, marked_afterAll_takeUpdate] at hm
      exact absurd hm (not_mem_marked_pass g tags)
    · exact Or.inr ⟨hm, contains_round g tags m ▸ hlive⟩
  · rw [(SameOutline.marks _ _).edges, edges_round] at hd
    rw [(SameOutline.marks _ _).edges]
    exact hd

variable (hc : g.CallFree) (hw : g.ReadsWired) (hb : Everywhere Kind.Bounded g)

include hc hw hb

/-- **What the second pass computes is as the first pass has made it**, so that computing it once
more changes its base value at most, and that only if it is a diff-clamp that does not rest. -/
theorem computed_round {t : Tag} (ht : t ∈ ((g.round tags).afterAll (tags.map .mark)).affected)
    {n : Node} (hn : (g.round tags).node? t = some n) :
    n.computed (g.round tags) = n.setBase (n.computed (g.round tags)).base ∧
      ((n.computed (g.round tags)).base = n.base ↔
        ∀ input clamp, n.kind = .diffClamp (some input) clamp →
          DiffClamp.Rests n.base ((g.round tags).read input)) := by
  have hout := sameOutline_round g tags
  have hmarks := SameOutline.marks g tags
  obtain ⟨n₁, hn₁, ho⟩ := hout.exists_node? hn
  obtain ⟨n₀, hn₀, -⟩ := (sameDesign_propagate (g.afterAll (tags.map .mark))).exists_node? hn₁
  have hfirst := node?_propagate_of_mem (hs.afterAll _) (hmarks.callFree hc) (hmarks.readsWired hw)
    (affected_round_subset tags hs ht) hn₀
  have hmade : n₁ = n₀.computed (g.pass tags).1 := Option.some.inj (hn₁.symm.trans hfirst)
  have hbounded : n₀.kind.Bounded := hb t n₀ ((node?_afterAll_mark tags t).symm.trans hn₀)
  by_cases hp : ∃ p, n.kind = .props p
  · obtain ⟨p, hp⟩ := hp
    rw [Node.computed_props hp]
    refine ⟨rfl, iff_of_true rfl fun input clamp h => ?_⟩
    rw [hp] at h
    cases h
  · have hsame : n = n₁ := Node.eq_of_outline (fun p h => hp ⟨p, h⟩) ho
    rw [hsame, hmade, hout.computed]
    have hread : (g.round tags).read = (g.pass tags).1.read := by
      funext c
      rw [read, hout.value?, read]
    rw [hread]
    exact ⟨Node.computed_computed _ n₀, Node.base_computed_computed_iff hbounded⟩

/-- The second pass computes the nodes as it finds them, if they rest. -/
theorem second_pass_eq
    (h : ∀ t ∈ ((g.round tags).pass tags).2.recomputed, (g.round tags).RestsAt t) :
    ((g.round tags).pass tags).1 =
      { (g.round tags).afterAll (tags.map .mark) with marked := ∅ } := by
  have hmarks := SameOutline.marks (g.round tags) tags
  rw [pass, recomputed_propagate] at h
  refine evaluateAll_of_fixed fun t ht n hn => ?_
  have hn' : (g.round tags).node? t = some n := (node?_afterAll_mark tags t).symm.trans hn
  obtain ⟨hsame, hiff⟩ := computed_round tags hs hc hw hb ht hn'
  have hcomputed : n.computed ((g.round tags).afterAll (tags.map .mark)) = n := by
    rw [hmarks.computed, hsame, hiff.2 (h t ht n hn')]
    rfl
  exact ⟨callFree_round tags hc t n hn', hcomputed⟩

/-- **When the second pass changes no base value**: exactly if the diff-clamps that it computes
rest. -/
theorem base?_second_pass_iff :
    (∀ t, ((g.round tags).pass tags).1.base? t = (g.round tags).base? t) ↔
      ∀ t ∈ ((g.round tags).pass tags).2.recomputed, (g.round tags).RestsAt t := by
  have hmarks := SameOutline.marks (g.round tags) tags
  constructor
  · intro h t ht n hn input clamp hk
    rw [pass, recomputed_propagate] at ht
    obtain ⟨-, hiff⟩ := computed_round tags hs hc hw hb ht hn
    refine hiff.1 ?_ input clamp hk
    -- the pass has computed the node from the values that are still there
    have hd : SameDesign { (g.round tags).afterAll (tags.map .mark) with marked := ∅ }
        ((g.round tags).pass tags).1 := sameDesign_propagate _
    have hvalue : ((g.round tags).pass tags).1.value? = (g.round tags).value? := by
      funext c
      exact (hd.value?_eq ((h c).trans (hmarks.base? c).symm)).trans (congrFun hmarks.value? c)
    have hmade : ((g.round tags).pass tags).1.node? t =
        some (n.computed ((g.round tags).pass tags).1) :=
      node?_propagate_of_mem ((sound_round tags hs).afterAll _)
        (hmarks.callFree (callFree_round tags hc)) (hmarks.readsWired (readsWired_round tags hw)) ht
        ((node?_afterAll_mark tags t).trans hn)
    have hbase := h t
    rw [base?, base?, hmade, hn, computed_congr fun c _ => congrFun hvalue c] at hbase
    exact Option.some.inj hbase
  · intro h t
    rw [second_pass_eq tags hs hc hw hb h]
    exact hmarks.base? t

/-- **Who has an update to hand out after the second pass**, if that changes no base value: of the
props nodes that the first pass computed those with an undefined number, and of the others those
that had one at the start. -/
theorem takeUpdate_second_pass
    (h : ∀ t, ((g.round tags).pass tags).1.base? t = (g.round tags).base? t) {t : Tag} {n : Node}
    {p : Props} (hn : g.node? t = some n) (hk : n.kind = .props p) :
    (((g.round tags).pass tags).1.takeUpdate t).2 = none ↔
      if (g.pass tags).2.sinks.contains t then
        p.view = none ∨ ((g.pass tags).1.propsOf p).isDefined = true
      else (g.takeUpdate t).2 = none := by
  have hmarks := SameOutline.marks g tags
  have hfirst := node?_pass_props tags hc hw hs hn hk
  obtain ⟨n', p', hn', hk', hp', -, hquiet⟩ :=
    quiet_afterAll_takeUpdate (g.pass tags).2.sinks.toList hfirst hk
  have hagain := second_pass_eq tags hs hc hw hb ((base?_second_pass_iff tags hs hc hw hb).1 h)
  have hnode : ((g.round tags).pass tags).1.node? t = some n' := by
    rw [hagain]
    exact (node?_afterAll_mark tags t).trans hn'
  have hmap : ((g.round tags).pass tags).1.propsOf p' = (g.pass tags).1.propsOf p := by
    rw [hagain]
    exact ((sameOutline_round g tags).trans (SameOutline.marks _ tags)).propsOf hp'
  rw [takeUpdate_eq_none_iff hnode hk', hmap, hquiet]
  by_cases ht : t ∈ (g.pass tags).2.sinks.toList
  · rw [if_pos ht, if_pos (OrderedSet.contains_iff.2 ht)]
  · rw [if_neg ht, if_neg (mt OrderedSet.contains_iff.1 ht), takeUpdate_eq_none_iff hn hk]
    -- nothing below the node is computed
    have hn₀ := (node?_afterAll_mark tags t).trans hn
    have haffected : t ∉ (g.afterAll (tags.map .mark)).affected := fun ha =>
      ht (mem_sinks_evaluateAll (g := { g.afterAll (tags.map .mark) with marked := ∅ }) ha hn₀
        (by rw [Node.isSink, hk]; rfl))
    have hbelow := sameBelow_propagate (hs.afterAll (tags.map .mark)) (hmarks.callFree hc) haffected
    have hwired : (g.pass tags).1.ReadsWired :=
      ReadsWired.of_sameDesign (g := { g.afterAll (tags.map .mark) with marked := ∅ })
        (hmarks.readsWired hw) (sameDesign_propagate _)
    have hfirstMap : (g.pass tags).1.propsOf p = (g.afterAll (tags.map .mark)).propsOf p :=
      hbelow.propsOf (hwired.propsWired hfirst hk) rfl rfl
    rw [hfirstMap, hmarks.propsOf rfl]

end Round

/-- **The same marks again**: in a graph of a run without calls whose nodes read by edges what
they observe, the second pass changes no base value exactly if the diff-clamps that it computes
rest. Then a props node that the first pass has computed has an update to hand out afterwards
exactly if it has a view and a number of its property map is undefined, and any other one if it
had one at the start. -/
theorem second_pass {rs : List Request} (hc : (empty.afterAll rs).CallFree)
    (hw : (empty.afterAll rs).ReadsWired) (tags : List Tag) :
    let g := empty.afterAll rs
    let again := ((g.round tags).pass tags)
    ((∀ t, again.1.base? t = (g.round tags).base? t) ↔
      ∀ t ∈ again.2.recomputed, (g.round tags).RestsAt t) ∧
    ((∀ t, again.1.base? t = (g.round tags).base? t) →
      ∀ t n p, g.node? t = some n → n.kind = .props p →
        ((again.1.takeUpdate t).2 = none ↔
          if (g.pass tags).2.sinks.contains t then
            p.view = none ∨ ((g.pass tags).1.propsOf p).isDefined = true
          else (g.takeUpdate t).2 = none)) := by
  have hs : (empty.afterAll rs).Sound := sound_empty.afterAll rs
  have hb := everywhere_afterAll Kind.lasting_bounded rs
  exact ⟨base?_second_pass_iff tags hs hc hw hb,
    fun h t n p hn hk => takeUpdate_second_pass tags hs hc hw hb h hn hk⟩

/-- The sum of a value and of what a diff-clamp makes of it is shown by view `7`. -/
def settledRun : List Request :=
  [.make ⟨1⟩ (.value 1.0 0.0), .make ⟨2⟩ (.diffClamp none (-5.0) 5.0),
   .make ⟨3⟩ (.arithmetic .addition []), .make ⟨4⟩ (.props (OrderedMap.ofList [("opacity", ⟨3⟩)])),
   .connect ⟨2⟩ ⟨1⟩, .connect ⟨3⟩ ⟨1⟩, .connect ⟨3⟩ ⟨2⟩, .connect ⟨4⟩ ⟨3⟩, .attachView ⟨4⟩ ⟨7⟩]

set_option maxRecDepth 2000 in
/-- Marking the value again changes no base value, and there is nothing to hand out. -/
theorem settledRun_second_pass :
    let g := empty.afterAll settledRun
    let again := (g.round [⟨1⟩]).pass [⟨1⟩]
    g.CallFree ∧ g.ReadsWired ∧ again.2.recomputed = [⟨1⟩, ⟨2⟩, ⟨3⟩, ⟨4⟩] ∧
      (∀ t, again.1.base? t = (g.round [⟨1⟩]).base? t) ∧ (again.1.takeUpdate ⟨4⟩).2 = none := by
  have hc : (empty.afterAll settledRun).CallFree := by decide +kernel
  have hw : (empty.afterAll settledRun).ReadsWired := by decide +kernel
  have hkind : ((empty.afterAll settledRun).node? ⟨4⟩).map Node.kind =
      some (.props { sources := OrderedMap.ofList [("opacity", ⟨3⟩)], view := some ⟨7⟩ }) := by
    with_unfolding_all rfl
  have hrecomputed : (((empty.afterAll settledRun).round [⟨1⟩]).pass [⟨1⟩]).2.recomputed =
      [⟨1⟩, ⟨2⟩, ⟨3⟩, ⟨4⟩] := by decide +kernel
  have hrests : ∀ t ∈ (((empty.afterAll settledRun).round [⟨1⟩]).pass [⟨1⟩]).2.recomputed,
      ((empty.afterAll settledRun).round [⟨1⟩]).RestsAt t := by decide +kernel
  obtain ⟨hbase, hquiet⟩ := second_pass hc hw [⟨1⟩]
  have hsame := hbase.2 hrests
  obtain ⟨n, hn, hk⟩ := Option.map_eq_some_iff.1 hkind
  refine ⟨hc, hw, hrecomputed, hsame, (hquiet hsame ⟨4⟩ n _ hn hk).2 ?_⟩
  decide +kernel

/-- Node `2` accumulates the changes of an input too large for a number, and node `3`, whose value
is undefined, is shown by view `7`. -/
def unsettledRun : List Request :=
  let infinite : Expr := .fold .multiply [.number 1e308, .number 10.0]
  [.make ⟨1⟩ (.expression infinite), .make ⟨2⟩ (.diffClamp none 0.0 50.0),
   .make ⟨3⟩ (.expression (.unary .sqrt (.number (-1.0)))),
   .make ⟨4⟩ (.props (OrderedMap.ofList [("opacity", ⟨3⟩)])),
   .connect ⟨2⟩ ⟨1⟩, .connect ⟨4⟩ ⟨3⟩, .attachView ⟨4⟩ ⟨7⟩]

/-- The diff-clamp changes in the second pass, and the view is to receive its
undefined number again. -/
theorem unsettledRun_second_pass :
    let g := empty.afterAll unsettledRun
    let before := g.round [⟨1⟩, ⟨3⟩]
    let again := before.pass [⟨1⟩, ⟨3⟩]
    g.CallFree ∧ g.ReadsWired ∧ (g.contains ⟨1⟩ = true ∧ g.contains ⟨3⟩ = true) ∧
      before.base? ⟨2⟩ = some 0.0 ∧ again.1.base? ⟨2⟩ = some Double.nan ∧
      (again.1.takeUpdate ⟨4⟩).2.isSome = true := by
  decide +kernel

end Graph

end MotionGraph
