import MotionGraph.Proofs.Graph.Current
import MotionGraph.Proofs.Node.Matches

/-!
# What the property map of a node depends on

A props node shows its sources, the entries of those that are styles, and the operands of those that
are transforms (`Graph.Shows`). If it reads all of this by edges (`Graph.PropsWired`), its property
map depends on what is below it alone: graphs that are the same below it give the same map
(`SameBelow.propsOf`).

Announced changes leave graphs the same below a node that is not stale (`Announced.sameBelow`), and
a propagation below a node that it does not compute (`sameBelow_propagate`).
-/

namespace MotionGraph

/-- A kind as far as it shows in property maps. -/
def Kind.facade : Kind → Kind
  | .style sources => .style sources
  | .transform entries => .transform entries
  | .props _ => .props { sources := ∅ }
  | _ => .value

namespace Kind

/-- A style shows its sources. -/
theorem facade_eq_style {k : Kind} {sources : OrderedMap String Tag} :
    k.facade = .style sources ↔ k = .style sources := by
  cases k <;> simp [facade]

/-- A transform shows its operations. -/
theorem facade_eq_transform {k : Kind} {entries : List TransformEntry} :
    k.facade = .transform entries ↔ k = .transform entries := by
  cases k <;> simp [facade]

/-- What concerns a view does not show. -/
@[simp] theorem facade_outline (k : Kind) : k.outline.facade = k.facade := by
  cases k <;> rfl

/-- Memory does not show. -/
@[simp] theorem facade_plan (k : Kind) : k.plan.facade = k.facade := by
  cases k <;> rfl

end Kind

namespace Graph

/-- What a node shows in property maps. -/
def shown? (g : Graph) (t : Tag) : Option (Kind × Float) :=
  (g.node? t).map fun n => (n.kind.facade, n.value)

/-- Whether a node is shown by a props node with the given sources: it is one of them, or an entry
of one that is a style. -/
def Shows (g : Graph) (sources : OrderedMap String Tag) (u : Tag) : Prop :=
  u ∈ sources.values ∨
    ∃ s ∈ sources.values, ∃ n entries, g.node? s = some n ∧ n.kind = .style entries ∧
      u ∈ entries.values

/-- What a props node shows is read by edges: it reads its sources, its styles read their entries,
and its transforms read the operands that are nodes. -/
structure PropsWired (g : Graph) (t : Tag) (sources : OrderedMap String Tag) : Prop where
  source : ∀ s ∈ sources.values, g.edges.Reads t s
  entry : ∀ s ∈ sources.values, ∀ n entries, g.node? s = some n → n.kind = .style entries →
    ∀ c ∈ entries.values, g.edges.Reads s c
  operand : ∀ u, g.Shows sources u → ∀ n entries, g.node? u = some n →
    n.kind = .transform entries → ∀ e ∈ entries, ∀ c, e.operand.tag? = some c → g.edges.Reads u c

/-- What is shown is below. -/
theorem PropsWired.dependsOn {g : Graph} {t : Tag} {sources : OrderedMap String Tag}
    (hw : g.PropsWired t sources) {u : Tag} (hu : g.Shows sources u) : g.edges.DependsOn t u := by
  rcases hu with hu | ⟨s, hs, n, entries, hn, hk, hu⟩
  · exact .single (hw.source u hu)
  · exact .tail (.single (hw.source s hs)) (hw.entry s hs n entries hn hk u hu)

/-! ### Property maps from what nodes show -/

/-- What nodes show tells their values. -/
theorem value?_eq_shown? (g : Graph) (t : Tag) : g.value? t = (g.shown? t).map Prod.snd := by
  rw [value?, shown?, Option.map_map]
  rfl

/-- What nodes show tells what they are worth as properties, but for operands. -/
theorem propValue?_eq (g : Graph) (t : Tag) :
    g.propValue? t = (g.shown? t).bind fun s =>
      match s.1 with
      | .transform entries =>
        some (.transform (entries.map fun e => ⟨e.property, g.operand e.operand⟩))
      | .style _ | .props _ => none
      | _ => some (.number s.2) := by
  unfold propValue? shown?
  cases g.node? t with
  | none => rfl
  | some n => cases hk : n.kind <;> simp [hk, Kind.facade]

/-- What nodes show tells which of them are styles. -/
theorem insertSource_eq (g : Graph) (m : PropMap) (name : String) (t : Tag) :
    g.insertSource m name t =
      match (g.shown? t).map Prod.fst with
      | some (.style sources) => sources.toList.foldl (fun m s => g.insertProp m s.1 s.2) m
      | _ => g.insertProp m name t := by
  unfold insertSource shown?
  cases g.node? t with
  | none => rfl
  | some n => cases hk : n.kind <;> simp [hk, Kind.facade]

/-! ### Graphs that are the same below a node -/

/-- Below a node the second graph has no other edges than the first, and every node shows the
same. -/
structure SameBelow (g g' : Graph) (t : Tag) : Prop where
  edge : ∀ u c, g'.edges.DependsOn t u → g'.edges.Reads u c → g.edges.Reads u c
  shown : ∀ u, g'.edges.DependsOn t u → g'.shown? u = g.shown? u

namespace SameBelow

variable {g g' : Graph} {t : Tag} {sources : OrderedMap String Tag} (h : SameBelow g g' t)

include h

/-- A node below has a counterpart that shows the same. -/
theorem exists_node? {u : Tag} (hu : g'.edges.DependsOn t u) {n : Node} (hn : g.node? u = some n) :
    ∃ n', g'.node? u = some n' ∧ n'.kind.facade = n.kind.facade := by
  have hs := h.shown u hu
  rw [shown?, shown?, hn, Option.map_some, Option.map_eq_some_iff] at hs
  obtain ⟨n', hn', he⟩ := hs
  exact ⟨n', hn', congrArg Prod.fst he⟩

/-- Styles are styles with the same entries. -/
theorem exists_style {u : Tag} (hu : g'.edges.DependsOn t u) {n : Node} (hn : g.node? u = some n)
    {entries : OrderedMap String Tag} (hk : n.kind = .style entries) :
    ∃ n', g'.node? u = some n' ∧ n'.kind = .style entries := by
  obtain ⟨n', hn', hf⟩ := h.exists_node? hu hn
  exact ⟨n', hn', Kind.facade_eq_style.1 (hf.trans (Kind.facade_eq_style.2 hk))⟩

/-- Transforms are transforms with the same operations. -/
theorem exists_transform {u : Tag} (hu : g'.edges.DependsOn t u) {n : Node}
    (hn : g.node? u = some n) {entries : List TransformEntry} (hk : n.kind = .transform entries) :
    ∃ n', g'.node? u = some n' ∧ n'.kind = .transform entries := by
  obtain ⟨n', hn', hf⟩ := h.exists_node? hu hn
  exact ⟨n', hn', Kind.facade_eq_transform.1 (hf.trans (Kind.facade_eq_transform.2 hk))⟩

variable (hw : g'.PropsWired t sources)

include hw

/-- What was shown is shown. -/
theorem shows_of_shows {u : Tag} (hu : g.Shows sources u) : g'.Shows sources u := by
  rcases hu with hu | ⟨s, hs, n, entries, hn, hk, hu⟩
  · exact Or.inl hu
  · obtain ⟨n', hn', hk'⟩ := h.exists_style (.single (hw.source s hs)) hn hk
    exact Or.inr ⟨s, hs, n', entries, hn', hk', hu⟩

/-- A props node that is wired was wired. -/
theorem propsWired : g.PropsWired t sources where
  source s hs := h.edge t s .refl (hw.source s hs)
  entry s hs n entries hn hk c hc := by
    have hd : g'.edges.DependsOn t s := .single (hw.source s hs)
    obtain ⟨n', hn', hk'⟩ := h.exists_style hd hn hk
    exact h.edge s c hd (hw.entry s hs n' entries hn' hk' c hc)
  operand u hu n entries hn hk e he c hc := by
    have hu' := h.shows_of_shows hw hu
    have hd := hw.dependsOn hu'
    obtain ⟨n', hn', hk'⟩ := h.exists_transform hd hn hk
    exact h.edge u c hd (hw.operand u hu' n' entries hn' hk' e he c hc)

/-- A shown node is worth the same. -/
theorem propValue?_eq {u : Tag} (hu : g'.Shows sources u) : g'.propValue? u = g.propValue? u := by
  have hd := hw.dependsOn hu
  rw [Graph.propValue?_eq, Graph.propValue?_eq, h.shown u hd]
  cases hn : g.node? u with
  | none => rw [shown?, hn]; rfl
  | some n =>
    cases hk : n.kind with
    | transform entries =>
      obtain ⟨n', hn', hk'⟩ := h.exists_transform hd hn hk
      have hop : ∀ e ∈ entries, g'.operand e.operand = g.operand e.operand := by
        intro e he
        cases ho : e.operand with
        | constant x => rfl
        | node c =>
          have hr := hw.operand u hu n' entries hn' hk' e he c (by rw [ho]; rfl)
          rw [operand, operand, read, read, value?_eq_shown?, value?_eq_shown?,
            h.shown c (hd.tail hr)]
      have hmap : (entries.map fun e => (⟨e.property, g'.operand e.operand⟩ : TransformValue)) =
          entries.map fun e => ⟨e.property, g.operand e.operand⟩ :=
        List.map_congr_left fun e he => by rw [hop e he]
      simp only [shown?, hn, Option.map_some, hk, Kind.facade, Option.bind_some, hmap]
    | _ => simp only [shown?, hn, Option.map_some, hk, Kind.facade, Option.bind_some]

/-- **A wired props node has the same property map** in graphs that are the same below it. -/
theorem propsOf {p p' : Props} (hp : p.sources = sources) (hp' : p'.sources = sources) :
    g'.propsOf p' = g.propsOf p := by
  subst hp
  have hprop :
      ∀ u, g'.Shows p.sources u → ∀ m name, g'.insertProp m name u = g.insertProp m name u := by
    intro u hu m name
    rw [insertProp, insertProp, h.propValue?_eq hw hu]
  unfold Graph.propsOf
  rw [hp']
  refine List.foldl_ext _ _ _ fun m e he => ?_
  have hs : e.2 ∈ p.sources.values := List.mem_map_of_mem he
  have hd : g'.edges.DependsOn t e.2 := .single (hw.source e.2 hs)
  rw [insertSource_eq, insertSource_eq, h.shown e.2 hd]
  split
  · next entries hk =>
    obtain ⟨⟨k, x⟩, hsh, rfl⟩ := Option.map_eq_some_iff.1 hk
    obtain ⟨n, hn, he'⟩ := Option.map_eq_some_iff.1 hsh
    have hkind : n.kind = .style entries := Kind.facade_eq_style.1 (congrArg Prod.fst he')
    obtain ⟨n', hn', hkind'⟩ := h.exists_style hd hn hkind
    refine List.foldl_ext _ _ _ fun m c hc => hprop c.2 (Or.inr ?_) m c.1
    exact ⟨e.2, hs, n', entries, hn', hkind', List.mem_map_of_mem hc⟩
  · exact hprop e.2 (Or.inl hs) m e.1

end SameBelow

/-! ### Where graphs stay the same below a node -/

section Same

variable {g g' : Graph}

/-- Nodes of the same outline show the same. -/
theorem shown?_of_outline {t : Tag} {n n' : Node} (hn : g.node? t = some n)
    (hn' : g'.node? t = some n') (ho : n'.outline = n.outline) : g'.shown? t = g.shown? t := by
  have hv := value?_of_outline hn hn' ho
  rw [value?, value?, hn, hn', Option.map_some, Option.map_some, Option.some.injEq] at hv
  rw [shown?, shown?, hn, hn', Option.map_some, Option.map_some, hv, ← Kind.facade_outline n'.kind,
    Node.kind_of_outline ho, Kind.facade_outline]

/-- A node that computing has left its base value shows the same. -/
theorem SameDesign.shown?_eq (hd : SameDesign g g') {t : Tag} (hb : g'.base? t = g.base? t) :
    g'.shown? t = g.shown? t := by
  have hv := hd.value?_eq hb
  cases hn' : g'.node? t with
  | none =>
    rw [value?, value?, hn', Option.map_none, eq_comm, Option.map_eq_none_iff] at hv
    rw [shown?, shown?, hn', hv]
  | some n' =>
    obtain ⟨n, hn, hnd⟩ := hd.exists_node? hn'
    have hk : n'.kind.plan = n.kind.plan := congrArg Node.kind hnd
    rw [value?, value?, hn, hn', Option.map_some, Option.map_some, Option.some.injEq] at hv
    rw [shown?, shown?, hn, hn', Option.map_some, Option.map_some, hv, ← Kind.facade_plan n'.kind,
      hk, Kind.facade_plan]

/-- Announced changes leave a graph the same below a node that is not stale. -/
theorem Announced.sameBelow (ha : Announced g g') (hs : g.Sound) (hs' : g'.Sound) {t : Tag}
    (ht : g.contains t = true) (ht' : g'.contains t = true) (hn : ¬g'.Stale t) :
    SameBelow g g' t := by
  have hm : ∀ u, g'.edges.DependsOn t u → u ∉ g'.marked := fun u hd hu => hn ⟨u, hu, hd⟩
  have hedge : ∀ u c, g'.edges.DependsOn t u → g'.edges.Reads u c → g.edges.Reads u c :=
    fun u c hd hr => (ha.new_edge u c hr).resolve_right (hm u hd)
  refine ⟨hedge, fun u hd => ?_⟩
  have hlive : g.contains u = true ∧ g'.contains u = true := by
    rcases Relation.ReflTransGen.cases_tail hd with rfl | ⟨p, hp, hr⟩
    · exact ⟨ht, ht'⟩
    · exact ⟨hs.child_live p u (hedge p u hp hr), hs'.child_live p u hr⟩
  obtain ⟨n', hn'⟩ := exists_node?_of_contains hlive.2
  rcases ha.node u n' hn' with ⟨n, hn, -, hu | ho⟩ | ⟨hfree, -⟩
  · exact absurd hu (hm u hd)
  · exact shown?_of_outline hn hn' ho
  · rw [hlive.1] at hfree
    cases hfree

/-- A propagation leaves a graph the same below a node that it does not compute. -/
theorem sameBelow_propagate (hs : g.Sound) (hc : g.CallFree) {t : Tag} (ht : t ∉ g.affected) :
    SameBelow g g.propagate.1 t := by
  have hd : SameDesign { g with marked := ∅ } g.propagate.1 := sameDesign_propagate g
  refine ⟨fun u c _ hr => hd.edges ▸ hr, fun u hu => ?_⟩
  have hu' : g.edges.DependsOn t u := hd.edges ▸ hu
  have hn : u ∉ g.affected := fun ha =>
    ht ((mem_affected_iff hs).2 (((mem_affected_iff hs).1 ha).above hu'))
  exact SameDesign.shown?_eq hd (CallFree.base?_evaluateAll (g := { g with marked := ∅ }) hc hn)

/-- Replacing what is kept about a view leaves a graph the same below every node. -/
theorem sameBelow_setProps {t : Tag} {n : Node} {p q : Props} (hn : g.node? t = some n)
    (hp : n.kind = .props p) (u : Tag) : SameBelow g (g.setProps t q) u := by
  refine ⟨fun _ _ _ hr => hr, fun c _ => ?_⟩
  rw [shown?, shown?, setProps, node?_update]
  by_cases hc : c = t
  · subst hc
    simp [hn, hp, Kind.facade, Node.value]
  · rw [if_neg hc]

end Same

end Graph

end MotionGraph
