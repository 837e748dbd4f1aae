import MotionGraph.Proofs.Graph.Evaluation

/-!
# The invariant of graphs

`Graph.Sound` says that edges run in no circle, that both maps of edges hold the same ones, that
they join nodes that are there and lead to no sink, and that only nodes that are there are marked.

Every request keeps this, granted or refused (`Sound.after`), and so every run from the graph
without nodes (`sound_afterAll`). Two requests carry the argument. A new edge closes no chain
because the search that guards it finds exactly what depends on the reader, which needs the maps
mirrored (`Edges.isAncestor_iff`). A dropped node takes all its edges and its mark with it, which
needs the maps mirrored as well (`Edges.reads_detach`); so nothing is left of it when its name is
used again.
-/

namespace MotionGraph.Graph

/-- The invariant of graphs. -/
structure Sound (g : Graph) : Prop where
  /-- No node depends on itself. -/
  acyclic : g.edges.Acyclic
  /-- The two maps hold the same edges. -/
  mirrored : g.edges.Mirrored
  /-- The reader of an edge is there. -/
  parent_live : ∀ p c, g.edges.Reads p c → g.contains p = true
  /-- What an edge reads is there. -/
  child_live : ∀ p c, g.edges.Reads p c → g.contains c = true
  /-- What an edge reads hands no values to a view. -/
  child_not_sink : ∀ p c n, g.edges.Reads p c → g.node? c = some n → n.isSink = false
  /-- What is marked is there. -/
  marked_live : ∀ t ∈ g.marked, g.contains t = true

/-- The graph without nodes. -/
theorem sound_empty : empty.Sound where
  acyclic := Edges.acyclic_empty
  mirrored := Edges.mirrored_empty
  parent_live p c h := absurd h (Edges.not_reads_empty p c)
  child_live p c h := absurd h (Edges.not_reads_empty p c)
  child_not_sink p c _ h := absurd h (Edges.not_reads_empty p c)
  marked_live _ h := absurd h List.not_mem_nil

namespace Sound

variable {g g' : Graph}

/-! ### Steps that leave the edges -/

/-- The invariant stays if the edges stay, if the same nodes are there and are sinks, and if the
marked nodes were marked before or are there. -/
theorem of_same_edges (h : g.Sound) (he : g'.edges = g.edges)
    (hn : ∀ t, (g'.node? t).map Node.isSink = (g.node? t).map Node.isSink)
    (hm : ∀ t ∈ g'.marked, t ∈ g.marked ∨ g.contains t = true) : g'.Sound := by
  have hc : ∀ t, g'.contains t = g.contains t := fun t => by
    have ht := congrArg Option.isSome (hn t)
    simpa [contains_eq_isSome] using ht
  refine ⟨he ▸ h.acyclic, he ▸ h.mirrored, fun p c hr => ?_, fun p c hr => ?_,
    fun p c n hr hc => ?_, fun t ht => ?_⟩
  · rw [hc]
    exact h.parent_live p c (he ▸ hr)
  · rw [hc]
    exact h.child_live p c (he ▸ hr)
  · have hs := hn c
    rw [hc, Option.map_some, eq_comm, Option.map_eq_some_iff] at hs
    obtain ⟨m, hm, hs⟩ := hs
    rw [← hs]
    exact h.child_not_sink p c m (he ▸ hr) hm
  · rw [hc]
    exact (hm t ht).elim (h.marked_live t) id

/-- Rewriting a node keeps the invariant if it makes no sink. -/
theorem update (h : g.Sound) (t : Tag) {f : Node → Node}
    (hf : ∀ n, g.node? t = some n → (f n).isSink = n.isSink) : (g.update t f).Sound := by
  refine h.of_same_edges rfl (fun u => ?_) fun u hu => Or.inl hu
  rw [node?_update]
  by_cases hu : u = t
  · subst hu
    cases hn : g.node? u with
    | none => simp
    | some n => simp [hf n hn]
  · simp [hu]

/-- Marking a node that is there keeps the invariant. -/
theorem touch (h : g.Sound) {t : Tag} (ht : g.contains t = true) : (g.touch t).Sound :=
  h.of_same_edges rfl (fun _ => rfl) fun u hu =>
    (mem_marked_touch.1 hu).imp id fun (hu : u = t) => hu ▸ ht

/-- Base values and memories do not matter. -/
theorem of_sameDesign (h : g.Sound) (hd : SameDesign g g') : g'.Sound := by
  refine h.of_same_edges hd.edges (fun t => ?_) fun t ht => Or.inl (hd.marked ▸ ht)
  have hs : Node.isSink ∘ Node.design = Node.isSink := funext fun n => Kind.isSink_plan n.kind
  simpa only [Option.map_map, hs] using congrArg (Option.map Node.isSink) (hd.node t)

/-- Rewriting what is kept about a props node keeps the invariant. -/
theorem setProps (h : g.Sound) {t : Tag} {n : Node} {p : Props} (hn : g.node? t = some n)
    (hp : n.kind = .props p) (q : Props) : (g.setProps t q).Sound := by
  refine h.update t fun m hm => ?_
  obtain rfl : n = m := Option.some.inj (hn.symm.trans hm)
  simp [Node.isSink, hp, Kind.isSink]

/-- Setting a base value keeps the invariant. -/
theorem setBase (h : g.Sound) {t : Tag} {x : Float} {r : Graph × Bool}
    (hr : g.setBase t x = .ok r) : r.1.Sound := by
  obtain ⟨n, hn, -, -, hr⟩ := setBase_eq_ok hr
  have hu : (g.update t fun n => n.setBase x).Sound := h.update t fun _ _ => rfl
  rw [hr]
  split
  · exact hu.touch (by simp [contains_eq_isSome, node?_update, hn])
  · exact hu

/-- Carrying out writes keeps the invariant. -/
theorem applyWrites (h : g.Sound) (writes : Writes) : (g.applyWrites writes).1.Sound :=
  applyWrites_induction (fun _ _ _ _ _ h hs => h.setBase hs) h

/-! ### Steps that change the edges -/

/-- A new node keeps the invariant: nothing has led to its name. -/
theorem make (h : g.Sound) {t : Tag} {config : NodeConfig} (hg : g.make t config = .ok g') :
    g'.Sound := by
  obtain ⟨ht, n, -, rfl⟩ := make_eq_ok.1 hg
  have hnode : ∀ u, ({ g with nodes := g.nodes.insert t n } : Graph).node? u =
      if u = t then some n else g.node? u := fun u => OrderedMap.get?_insert g.nodes t u n
  have hlive : ∀ u, g.contains u = true →
      ({ g with nodes := g.nodes.insert t n } : Graph).contains u = true := by
    intro u hu
    rw [contains_eq_isSome] at hu ⊢
    rw [hnode]
    split
    · rfl
    · exact hu
  refine ⟨h.acyclic, h.mirrored, fun p c hr => hlive p (h.parent_live p c hr),
    fun p c hr => hlive c (h.child_live p c hr), fun p c m hr hm => ?_,
    fun u hu => hlive u (h.marked_live u hu)⟩
  have hc : c ≠ t := by
    rintro rfl
    simpa [ht] using h.child_live p c hr
  rw [hnode, if_neg hc] at hm
  exact h.child_not_sink p c m hr hm

/-- A new edge keeps the invariant: the search has found no chain from the input up to the
reader. -/
theorem connect (h : g.Sound) {parent child : Tag} (hg : g.connect parent child = .ok g') :
    g'.Sound := by
  obtain ⟨p, c, hp, hc, hs, ⟨-, rfl⟩ | ⟨hne, ha, rfl⟩⟩ := connect_eq_ok hg
  · exact h
  have hchain : ¬g.edges.DependsOn child parent := by
    intro hd
    rcases Relation.reflTransGen_iff_eq_or_transGen.1 hd with he | ht
    · exact hne he
    · rw [(Edges.isAncestor_iff h.mirrored).2 ht] at ha
      cases ha
  have hlink : ({ g with edges := g.edges.link parent child } : Graph).Sound :=
    { acyclic := h.acyclic.link hchain
      mirrored := h.mirrored.link parent child
      parent_live := fun a b hr => by
        rcases Edges.reads_link.1 hr with hr | ⟨rfl, -⟩
        · exact h.parent_live a b hr
        · exact contains_of_node? hp
      child_live := fun a b hr => by
        rcases Edges.reads_link.1 hr with hr | ⟨-, rfl⟩
        · exact h.child_live a b hr
        · exact contains_of_node? hc
      child_not_sink := fun a b n hr hn => by
        rcases Edges.reads_link.1 hr with hr | ⟨-, rfl⟩
        · exact h.child_not_sink a b n hr hn
        · exact Option.some.inj (hc.symm.trans hn) ▸ hs
      marked_live := h.marked_live }
  refine (hlink.update parent fun n _ => ?_).touch ?_
  · exact Kind.isSink_attach child n.kind
  · rw [contains_update]
    exact contains_of_node? hp

/-- Removing an edge keeps the invariant. -/
theorem disconnect (h : g.Sound) {parent child : Tag} (hg : g.disconnect parent child = .ok g') :
    g'.Sound := by
  obtain ⟨p, c, hp, -, -, rfl⟩ := disconnect_eq_ok hg
  have hsub : ∀ a b, (g.edges.unlink parent child).Reads a b → g.edges.Reads a b :=
    fun a b hr => (Edges.reads_unlink.1 hr).1
  have hunlink : ({ g with edges := g.edges.unlink parent child } : Graph).Sound :=
    { acyclic := h.acyclic.mono hsub
      mirrored := h.mirrored.unlink parent child
      parent_live := fun a b hr => h.parent_live a b (hsub a b hr)
      child_live := fun a b hr => h.child_live a b (hsub a b hr)
      child_not_sink := fun a b n hr => h.child_not_sink a b n (hsub a b hr)
      marked_live := h.marked_live }
  refine (hunlink.update parent fun n _ => ?_).touch ?_
  · exact Kind.isSink_forget child n.kind
  · rw [contains_update]
    exact contains_of_node? hp

/-- Removing a node keeps the invariant: no edge and no mark of it is left. -/
theorem drop (h : g.Sound) {t : Tag} {holders : List Holder} {r : Graph × Node}
    (hr : g.drop t holders = .ok r) : r.1.Sound := by
  have hnode := node?_drop hr
  have hreads := reads_drop h.mirrored hr
  have hmirrored : r.1.edges.Mirrored := by
    obtain ⟨n, -, -, -, hr⟩ := drop_eq_ok hr
    rw [hr]
    exact h.mirrored.detach t
  have hlive : ∀ u, u ≠ t → g.contains u = true → r.1.contains u = true := by
    intro u hu hc
    rw [contains_eq_isSome] at hc ⊢
    rw [hnode, if_neg hu, Option.isSome_map]
    exact hc
  refine ⟨h.acyclic.mono fun a b hab => ((hreads a b).1 hab).1, hmirrored, fun a b hab => ?_,
    fun a b hab => ?_, fun a b m hab hm => ?_, fun u hu => ?_⟩
  · obtain ⟨hab, ha, -⟩ := (hreads a b).1 hab
    exact hlive a ha (h.parent_live a b hab)
  · obtain ⟨hab, -, hb⟩ := (hreads a b).1 hab
    exact hlive b hb (h.child_live a b hab)
  · obtain ⟨hab, -, hb⟩ := (hreads a b).1 hab
    rw [hnode, if_neg hb, Option.map_eq_some_iff] at hm
    obtain ⟨k, hk, rfl⟩ := hm
    exact (Kind.isSink_forget t k.kind).trans (h.child_not_sink a b k hab hk)
  · obtain ⟨hu | hu, hne⟩ := (mem_marked_drop h.mirrored hr u).1 hu
    · exact hlive u hne (h.marked_live u hu)
    · exact hlive u hne (h.parent_live u t hu)

/-! ### All requests -/

/-- What a granted request keeps. -/
theorem perform (h : g.Sound) {r : Request} (hg : g.perform r = .ok g') : g'.Sound := by
  cases r with
  | create t config =>
    obtain ⟨c, -, hg⟩ := create_eq_ok.1 hg
    exact h.make hg
  | make t config => exact h.make hg
  | connect parent child => exact h.connect hg
  | disconnect parent child => exact h.disconnect hg
  | drop t holders =>
    obtain ⟨r, hr, rfl⟩ := except_map_eq_ok.1 hg
    exact h.drop hr
  | setBase t x =>
    obtain ⟨r, hr, rfl⟩ := except_map_eq_ok.1 hg
    exact h.setBase hr
  | setOffset t x =>
    obtain ⟨r, hr, rfl⟩ := except_map_eq_ok.1 hg
    obtain ⟨n, hn, -, -, hr⟩ := setOffset_eq_ok hr
    have hu : (g.update t fun n => n.setOffset x).Sound := h.update t fun _ _ => rfl
    rw [hr]
    split
    · exact hu.touch (by rw [contains_update]; exact contains_of_node? hn)
    · exact hu
  | flattenOffset t =>
    obtain ⟨n, ⟨hn, -⟩, rfl⟩ := flattenOffset_eq_ok.1 hg
    have hu : (g.update t Node.flattenOffset).Sound := h.update t fun _ _ => rfl
    exact hu.touch (by rw [contains_update]; exact contains_of_node? hn)
  | extractOffset t =>
    obtain ⟨n, ⟨hn, -⟩, rfl⟩ := extractOffset_eq_ok.1 hg
    have hu : (g.update t Node.extractOffset).Sound := h.update t fun _ _ => rfl
    exact hu.touch (by rw [contains_update]; exact contains_of_node? hn)
  | attachView t view =>
    obtain ⟨n, p, hn, hp, ⟨-, rfl⟩ | ⟨-, rfl⟩⟩ := attachView_eq_ok hg
    · exact h
    · refine (h.setProps hn hp _).touch ?_
      rw [Graph.setProps, contains_update]
      exact contains_of_node? hn
  | detachView t view =>
    obtain ⟨n, p, hn, hp, -, rfl⟩ := detachView_eq_ok hg
    exact h.setProps hn hp _
  | mark t =>
    obtain ⟨n, hn, rfl⟩ := mark_eq_ok.1 hg
    exact h.touch (contains_of_node? hn)
  | applyWrites writes =>
    cases hg
    exact h.applyWrites writes
  | propagate =>
    cases hg
    have hm : ({ g with marked := ∅ } : Graph).Sound :=
      h.of_same_edges rfl (fun _ => rfl) fun u hu => absurd hu List.not_mem_nil
    exact hm.of_sameDesign (sameDesign_propagate g)
  | takeUpdate t =>
    cases hg
    rcases takeUpdate_cases g t with ⟨he, -⟩ | ⟨n, p, view, hn, hp, -, -, he⟩
    · rw [he]
      exact h
    · rw [he]
      exact h.setProps hn hp _
  | restoreDefaults t =>
    obtain ⟨r, hr, rfl⟩ := except_map_eq_ok.1 hg
    obtain ⟨n, p, hn, hp, hr, -⟩ := restoreDefaults_eq_ok hr
    rw [hr]
    exact h.setProps hn hp _

/-- Every request keeps the invariant, granted or refused. -/
theorem after (h : g.Sound) (r : Request) : (g.after r).Sound := by
  unfold Graph.after
  split
  · next hg => exact h.perform hg
  · exact h

/-- Every run keeps the invariant. -/
theorem afterAll (h : g.Sound) (rs : List Request) : (g.afterAll rs).Sound := by
  induction rs generalizing g with
  | nil => exact h
  | cons r rs ih => exact ih (h.after r)

end Sound

/-- **The invariant of graphs**: whatever is asked of the graph without nodes, in whatever order,
granted or refused, edges run in no circle and are the same in both maps, join nodes that are there
and lead to no sink, and only nodes that are there are marked. -/
theorem sound_afterAll (rs : List Request) : (empty.afterAll rs).Sound :=
  sound_empty.afterAll rs

end MotionGraph.Graph
