import MotionGraph.Proofs.Graph.Current
import MotionGraph.Proofs.Node.References

/-!
# Names that nothing refers to

`Graph.Unmentioned` says that nothing in a graph refers to a name: no edge, no node and no mark. It
is so right after a node was removed (`unmentioned_drop`), and stays so until a request mentions the
name (`Unmentioned.perform`), whatever requests make the other nodes do: what these write, animate
and mark are nodes that they refer to or read. So a node that is made under the name of a removed
one stays as it was made until a request mentions it (`Unmentioned.node?_perform`), and no pass has
to do with it (`Unmentioned.spares_propagate`).
-/

namespace MotionGraph

/-- Memory is no reference. -/
@[simp] theorem Kind.references_plan (k : Kind) : k.plan.references = k.references := by
  cases k <;> rfl

/-- A pass has nothing to do with a node. -/
structure Pass.Spares (p : Pass) (t : Tag) : Prop where
  recomputed : t ∉ p.recomputed
  sinks : t ∉ p.sinks
  writes : ∀ w ∈ p.writes, w.1 ≠ t
  requests : ∀ r ∈ p.requests, r.target ≠ t

/-- A pass that notes no props node and asks for no animations has to do with what it
lists and writes alone. -/
theorem Pass.Spares.listed {ts : List Tag} {writes : Writes} {t : Tag} (h : t ∉ ts)
    (hw : ∀ w ∈ writes, w.1 ≠ t) : Pass.Spares { recomputed := ts, writes } t where
  recomputed := h
  sinks := List.not_mem_nil
  writes := hw
  requests _ hr := absurd hr List.not_mem_nil

/-- Two passes one after the other have nothing to do with a node that neither has to do with. -/
theorem Pass.Spares.append {p q : Pass} {t : Tag} (hp : p.Spares t) (hq : q.Spares t) :
    (p.append q).Spares t where
  recomputed h := (List.mem_append.1 h).elim hp.recomputed hq.recomputed
  sinks h := (OrderedSet.mem_insertAll.1 h).elim hp.sinks hq.sinks
  writes w h := (List.mem_append.1 h).elim (hp.writes w) (hq.writes w)
  requests r h := (List.mem_append.1 h).elim (hp.requests r) (hq.requests r)

namespace Graph

/-- No node refers to a name. -/
def Unreferenced (g : Graph) (t : Tag) : Prop := ∀ u n, g.node? u = some n → t ∉ n.kind.references

/-- Nothing in a graph refers to a name. -/
structure Unmentioned (g : Graph) (t : Tag) : Prop where
  unreferenced : g.Unreferenced t
  /-- No edge leads from the name. -/
  not_reads : ∀ u, ¬g.edges.Reads t u
  /-- No edge leads to the name. -/
  not_read : ∀ u, ¬g.edges.Reads u t
  unmarked : t ∉ g.marked

/-- What a node refers to as it is made, if it is made. -/
def referencesMade : Except ConfigError Node → List Tag
  | .ok n => n.kind.references
  | .error _ => []

/-- The nodes that a request is about or makes another one refer to. -/
def Request.mentions : Request → List Tag
  | .create t config => referencesMade (Node.ofJson t config)
  | .make t config => referencesMade (config.build t)
  | .connect parent child | .disconnect parent child => [parent, child]
  | .drop t _ | .setBase t _ | .setOffset t _ | .flattenOffset t | .extractOffset t
  | .attachView t _ | .detachView t _ | .mark t | .takeUpdate t | .restoreDefaults t => [t]
  | .applyWrites writes => writes.map Prod.fst
  | .propagate => []

/-- The name under which a request makes a node, if it makes one. -/
def Request.made? : Request → Option Tag
  | .create t _ | .make t _ => some t
  | _ => none

/-- What a request leaves of a node that it does not mention: one that is removed is forgotten. -/
def Request.leaves : Request → Node → Node
  | .drop t _, n => n.forget t
  | _, n => n

variable {g g' : Graph} {t : Tag}

/-! ### Removing a node -/

/-- Nothing refers to a node that was removed. -/
theorem unmentioned_drop (hs : g.Sound) {holders : List Holder} {r : Graph × Node}
    (h : g.drop t holders = .ok r) : r.1.contains t = false ∧ r.1.Unmentioned t := by
  have hreads := reads_drop hs.mirrored h
  refine ⟨Bool.eq_false_iff.2 fun ht => ne_of_contains_drop h ht rfl, fun u n hn => ?_,
    fun u hu => ((hreads t u).1 hu).2.1 rfl, fun u hu => ((hreads u t).1 hu).2.2 rfl,
    fun hm => ((mem_marked_drop hs.mirrored h t).1 hm).2 rfl⟩
  rw [node?_drop h] at hn
  split at hn
  · cases hn
  · obtain ⟨m, -, rfl⟩ := Option.map_eq_some_iff.1 hn
    exact fun ht => (Kind.mem_references_forget ht).2 rfl

/-! ### Computing nodes -/

/-- Computing makes no references. -/
theorem Unreferenced.of_sameDesign (h : g.Unreferenced t) (hd : SameDesign g g') :
    g'.Unreferenced t := by
  intro u n' hn'
  obtain ⟨n, hn, hnd⟩ := hd.exists_node? hn'
  have hk : n'.kind.plan = n.kind.plan := congrArg Node.kind hnd
  rw [← Kind.references_plan, hk, Kind.references_plan]
  exact h u n hn

/-- Rewriting a node leaves the other nodes. -/
theorem node?_update_of_ne {u : Tag} (hu : u ≠ t) (f : Node → Node) :
    (g.update u f).node? t = g.node? t := by
  rw [node?_update, if_neg hu.symm]

/-- Handing values to nodes leaves the other nodes. -/
theorem node?_handOver {ws : Writes} (h : ∀ w ∈ ws, w.1 ≠ t) :
    (ws.foldl (fun g (b : Tag × Float) =>
      g.update b.1 fun n => if n.holdsValue then n.setBase b.2 else n) g).node? t = g.node? t := by
  induction ws generalizing g with
  | nil => rfl
  | cons w ws ih =>
    rw [List.foldl_cons, ih fun v hv => h v (List.mem_cons_of_mem _ hv),
      node?_update_of_ne (h w List.mem_cons_self)]

/-- A call leaves the nodes that nothing refers to, and asks for no writes to them. -/
theorem Unreferenced.call (h : g.Unreferenced t) {u : Tag} {n : Node} {p : Proc} (hu : u ≠ t)
    (hn : g.node? u = some n) (hk : n.kind = .proc p) :
    (g.call u p).1.node? t = g.node? t ∧ ∀ w ∈ (g.call u p).2, w.1 ≠ t := by
  have hrefs : t ∉ (Kind.proc p).references := hk ▸ h u n hn
  simp only [Kind.references, Kind.reads, Kind.targets, List.mem_append, not_or] at hrefs
  have hbind : (g.bind p).node? t = g.node? t := by
    refine node?_handOver fun w hw => ?_
    obtain ⟨b, hb, rfl⟩ := List.mem_map.1 hw
    rintro rfl
    exact hrefs.2 (List.mem_map_of_mem hb)
  have hbound : (g.bind p).Unreferenced t := h.of_sameDesign (sameDesign_handOver _ g)
  have silent : ∀ w ∈ ([] : Writes), w.1 ≠ t := fun w hw => absurd hw List.not_mem_nil
  unfold Graph.call
  cases hc : p.expression with
  | none => exact ⟨hbind, silent⟩
  | some callee =>
    have hcallee : callee ≠ t := by
      rintro rfl
      exact hrefs.1.2 (by simp [hc])
    dsimp only
    split
    · next tree htree =>
      obtain ⟨m, hm, hmk⟩ := Option.map_eq_some_iff.1 htree
      refine ⟨by
        rw [store, node?_update_of_ne hu, store, node?_update_of_ne hcallee, hbind], fun w hw => ?_⟩
      rintro rfl
      refine hbound callee m hm ?_
      rw [hmk]
      exact List.mem_append_left _ (Expr.mem_tags.2 (Expr.mem_mentions_of_evaluate hw))
    · exact ⟨hbind, silent⟩

/-- Computing another node leaves a node that nothing refers to, and has nothing to do with it. -/
theorem Unreferenced.evaluate (h : g.Unreferenced t) {u : Tag} (hu : u ≠ t) :
    (g.evaluate u).1.node? t = g.node? t ∧ (g.evaluate u).2.Spares t := by
  have listed : t ∉ [u] := by simpa using hu.symm
  have silent : ∀ w ∈ ([] : Writes), w.1 ≠ t := fun w hw => absurd hw List.not_mem_nil
  unfold Graph.evaluate
  split
  · exact ⟨rfl, .listed listed silent⟩
  · next n hn =>
    split
    · exact ⟨node?_update_of_ne hu _, .listed listed silent⟩
    · next p hk =>
      obtain ⟨hcall, hwrites⟩ := h.call hu hn hk
      exact ⟨hcall, .listed listed hwrites⟩
    · have spared : ({ recomputed := [u]
                       sinks := if n.kind.isSink then OrderedSet.empty.insert u else ∅
                       writes := n.kind.asks g.value?
                       requests := n.kind.requests g.value? } : Pass).Spares t := by
        refine ⟨listed, fun hs => ?_, fun w hw => ?_, fun r hr => ?_⟩
        · dsimp only at hs
          split at hs
          · exact (OrderedSet.mem_insert.1 hs).elim List.not_mem_nil fun he => hu he.symm
          · exact absurd hs List.not_mem_nil
        · rintro rfl
          exact h u n hn (Kind.mem_references_of_asks hw)
        · rintro rfl
          exact h u n hn (Kind.mem_references_of_requests hr)
      dsimp only
      split
      · exact ⟨node?_update_of_ne hu _, spared⟩
      · exact ⟨rfl, spared⟩

/-- Computing other nodes leaves a node that nothing refers to, and has nothing to do with it. -/
theorem Unreferenced.evaluateAll (h : g.Unreferenced t) {ts : List Tag} (ht : t ∉ ts) :
    (g.evaluateAll ts).1.node? t = g.node? t ∧ (g.evaluateAll ts).2.Spares t := by
  induction ts generalizing g with
  | nil => exact ⟨rfl, .listed ht fun w hw => absurd hw List.not_mem_nil⟩
  | cons u us ih =>
    rw [List.mem_cons, not_or] at ht
    obtain ⟨hnode, hpass⟩ := h.evaluate (Ne.symm ht.1)
    obtain ⟨hrest, hpasses⟩ := ih (h.of_sameDesign (sameDesign_evaluate g u)) ht.2
    exact ⟨hrest.trans hnode, hpass.append hpasses⟩

namespace Unmentioned

variable (h : g.Unmentioned t)

include h

/-- Nothing is computed again on account of a name that nothing refers to. -/
theorem notMem_affected (hs : g.Sound) : t ∉ g.affected := by
  rw [mem_affected_iff hs]
  rintro ⟨m, hm, hd⟩
  rcases Relation.ReflTransGen.cases_head hd with rfl | ⟨c, hr, -⟩
  · exact h.unmarked hm
  · exact h.not_reads c hr

/-- A propagation has nothing to do with a name that nothing refers to. -/
theorem spares_propagate (hs : g.Sound) : g.propagate.2.Spares t :=
  (Unreferenced.evaluateAll (g := { g with marked := ∅ }) h.unreferenced (h.notMem_affected hs)).2

/-! ### Requests -/

/-- Rewriting and marking a node and changing its edges mentions nothing that was not mentioned, if
the node refers and leads to nothing new. -/
theorem rewrite {u : Tag} {edges : Edges} {f : Node → Node} (hu : u ≠ t)
    (he : ∀ a b, edges.Reads a b → g.edges.Reads a b ∨ (a = u ∧ b ≠ t))
    (hf : ∀ n, t ∈ (f n).kind.references → t ∈ n.kind.references) :
    (({ g with edges } : Graph).update u f).touch u |>.Unmentioned t where
  unreferenced w n hn := by
    rw [node?_touch, node?_update] at hn
    split at hn
    · obtain ⟨m, hm, rfl⟩ := Option.map_eq_some_iff.1 hn
      exact fun ht => h.unreferenced w m hm (hf m ht)
    · exact h.unreferenced w n hn
  not_reads w hw := (he t w hw).elim (h.not_reads w) fun hut => hu hut.1.symm
  not_read w hw := (he w t hw).elim (h.not_read w) fun hut => hut.2 rfl
  unmarked hm := (mem_marked_touch.1 hm).elim h.unmarked fun hut => hu hut.symm

/-- Rewriting a node without new references mentions nothing that was not mentioned. -/
theorem update {u : Tag} {f : Node → Node}
    (hf : ∀ n, g.node? u = some n → (f n).kind.references = n.kind.references) :
    (g.update u f).Unmentioned t where
  unreferenced w n hn := by
    rw [node?_update] at hn
    split at hn
    · next hw =>
      obtain ⟨m, hm, rfl⟩ := Option.map_eq_some_iff.1 hn
      rw [hf m (hw ▸ hm)]
      exact h.unreferenced w m hm
    · exact h.unreferenced w n hn
  not_reads := h.not_reads
  not_read := h.not_read
  unmarked := h.unmarked

/-- Marking another node mentions nothing that was not mentioned. -/
theorem touch {u : Tag} (hu : u ≠ t) : (g.touch u).Unmentioned t where
  unreferenced := h.unreferenced
  not_reads := h.not_reads
  not_read := h.not_read
  unmarked hm := (mem_marked_touch.1 hm).elim h.unmarked fun hut => hu hut.symm

/-- What is kept about a view is no reference. -/
theorem setProps {u : Tag} {n : Node} {p q : Props} (hn : g.node? u = some n)
    (hp : n.kind = .props p) (hq : q.sources = p.sources) : (g.setProps u q).Unmentioned t := by
  refine h.update fun m hm => ?_
  obtain rfl : n = m := Option.some.inj (hn.symm.trans hm)
  simp only [hp, Kind.references, Kind.reads, Kind.targets, hq]

/-- A base value is no reference. -/
theorem setBase {u : Tag} (hu : u ≠ t) {x : Float} {r : Graph × Bool} (hr : g.setBase u x = .ok r) :
    r.1.Unmentioned t := by
  obtain ⟨n, -, -, -, hr⟩ := setBase_eq_ok hr
  have set : (g.update u fun n => n.setBase x).Unmentioned t := h.update fun _ _ => rfl
  rw [hr]
  split
  · exact set.touch hu
  · exact set

/-- A new node mentions what it refers to. -/
theorem make {u : Tag} {config : NodeConfig} (hm : t ∉ referencesMade (config.build u))
    (hg : g.make u config = .ok g') : g'.Unmentioned t := by
  obtain ⟨-, n, hb, rfl⟩ := make_eq_ok.1 hg
  rw [hb] at hm
  refine ⟨fun w m hw => ?_, h.not_reads, h.not_read, h.unmarked⟩
  rw [node?, OrderedMap.get?_insert] at hw
  split at hw
  · cases hw
    exact hm
  · exact h.unreferenced w m hw

/-- Removing another node mentions nothing that was not mentioned. -/
theorem drop (hs : g.Sound) {u : Tag} {holders : List Holder} {r : Graph × Node}
    (hr : g.drop u holders = .ok r) : r.1.Unmentioned t := by
  have hreads : ∀ a b, r.1.edges.Reads a b → g.edges.Reads a b :=
    fun a b hab => ((reads_drop hs.mirrored hr a b).1 hab).1
  refine ⟨fun w n hn => ?_, fun w hw => h.not_reads w (hreads t w hw),
    fun w hw => h.not_read w (hreads w t hw), fun hm => ?_⟩
  · rw [node?_drop hr] at hn
    split at hn
    · cases hn
    · obtain ⟨m, hm, rfl⟩ := Option.map_eq_some_iff.1 hn
      exact fun ht => h.unreferenced w m hm (Kind.mem_references_forget ht).1
  · obtain ⟨hm | hm, -⟩ := (mem_marked_drop hs.mirrored hr t).1 hm
    · exact h.unmarked hm
    · exact h.not_reads u hm

/-- **A name that nothing refers to stays so until a request mentions it.** -/
theorem perform (hs : g.Sound) {r : Request} (hm : t ∉ r.mentions) (hg : g.perform r = .ok g') :
    g'.Unmentioned t := by
  cases r with
  | create u config =>
    obtain ⟨c, hc, hg⟩ := create_eq_ok.1 hg
    rw [Request.mentions, Node.ofJson, hc] at hm
    exact h.make hm hg
  | make u config => exact h.make hm hg
  | connect parent child =>
    have hchild : t ≠ child := List.ne_of_not_mem_cons (List.not_mem_of_not_mem_cons hm)
    obtain ⟨p, c, -, -, -, ⟨-, rfl⟩ | ⟨-, -, rfl⟩⟩ := connect_eq_ok hg
    · exact h
    · refine h.rewrite (List.ne_of_not_mem_cons hm).symm (fun a b hr => ?_) fun n hn => ?_
      · rcases Edges.reads_link.1 hr with hr | ⟨ha, hb⟩
        · exact Or.inl hr
        · exact Or.inr ⟨ha, hb ▸ hchild.symm⟩
      · exact (Kind.mem_references_attach hn).resolve_right hchild
  | disconnect parent child =>
    obtain ⟨p, c, -, -, -, rfl⟩ := disconnect_eq_ok hg
    refine h.rewrite (List.ne_of_not_mem_cons hm).symm (fun a b hr => ?_)
      fun n hn => (Kind.mem_references_forget hn).1
    exact Or.inl (Edges.reads_unlink.1 hr).1
  | drop u holders =>
    obtain ⟨r, hr, rfl⟩ := except_map_eq_ok.1 hg
    exact h.drop hs hr
  | setBase u x =>
    obtain ⟨r, hr, rfl⟩ := except_map_eq_ok.1 hg
    exact h.setBase (List.ne_of_not_mem_cons hm).symm hr
  | setOffset u x =>
    have hu : u ≠ t := (List.ne_of_not_mem_cons hm).symm
    obtain ⟨r, hr, rfl⟩ := except_map_eq_ok.1 hg
    obtain ⟨n, -, -, -, hr⟩ := setOffset_eq_ok hr
    have set : (g.update u fun n => n.setOffset x).Unmentioned t := h.update fun _ _ => rfl
    rw [hr]
    split
    · exact set.touch hu
    · exact set
  | flattenOffset u =>
    obtain ⟨n, -, rfl⟩ := flattenOffset_eq_ok.1 hg
    exact (h.update (f := Node.flattenOffset) fun _ _ => rfl).touch
      (List.ne_of_not_mem_cons hm).symm
  | extractOffset u =>
    obtain ⟨n, -, rfl⟩ := extractOffset_eq_ok.1 hg
    exact (h.update (f := Node.extractOffset) fun _ _ => rfl).touch
      (List.ne_of_not_mem_cons hm).symm
  | attachView u view =>
    obtain ⟨n, p, hn, hp, ⟨-, rfl⟩ | ⟨-, rfl⟩⟩ := attachView_eq_ok hg
    · exact h
    · refine (h.setProps (q := { p with view := some view, lastSent := none }) hn hp rfl).touch ?_
      exact (List.ne_of_not_mem_cons hm).symm
  | detachView u view =>
    obtain ⟨n, p, hn, hp, -, rfl⟩ := detachView_eq_ok hg
    exact h.setProps hn hp rfl
  | mark u =>
    obtain ⟨n, -, rfl⟩ := mark_eq_ok.1 hg
    exact h.touch (List.ne_of_not_mem_cons hm).symm
  | applyWrites writes =>
    cases hg
    refine applyWrites_induction (P := fun g => g.Unmentioned t) (fun g u x r hw h hr => ?_) h
    refine h.setBase ?_ hr
    rintro rfl
    exact hm (List.mem_map_of_mem hw)
  | propagate =>
    cases hg
    have hd := sameDesign_propagate g
    have unmarked : ({ g with marked := ∅ } : Graph).Unreferenced t := h.unreferenced
    exact ⟨unmarked.of_sameDesign hd, hd.edges ▸ h.not_reads, hd.edges ▸ h.not_read,
      hd.marked ▸ List.not_mem_nil⟩
  | takeUpdate u =>
    cases hg
    rcases takeUpdate_cases g u with ⟨he, -⟩ | ⟨n, p, view, hn, hp, -, -, he⟩
    · rw [he]
      exact h
    · rw [he]
      exact h.setProps hn hp rfl
  | restoreDefaults u =>
    obtain ⟨r, hr, rfl⟩ := except_map_eq_ok.1 hg
    obtain ⟨n, p, hn, hp, hr, -⟩ := restoreDefaults_eq_ok hr
    rw [hr]
    exact h.setProps hn hp rfl

end Unmentioned

/-! ### The node of a name that is not mentioned -/

/-- Setting a base value leaves the other nodes. -/
theorem node?_setBase {u : Tag} (hu : u ≠ t) {x : Float} {r : Graph × Bool}
    (hr : g.setBase u x = .ok r) : r.1.node? t = g.node? t := by
  obtain ⟨n, -, -, -, hr⟩ := setBase_eq_ok hr
  have set := node?_update_of_ne (g := g) hu fun n => n.setBase x
  rw [hr]
  split <;> exact set

/-- **The node of a name that nothing refers to stays as it is until a request mentions it**, except
that it forgets nodes that are removed. -/
theorem Unmentioned.node?_perform (h : g.Unmentioned t) (hs : g.Sound) {r : Request}
    (hm : t ∉ r.mentions) (hmade : r.made? ≠ some t) (hg : g.perform r = .ok g') :
    g'.node? t = (g.node? t).map r.leaves := by
  have same : ∀ n : Option Node, n = n.map fun n => n := fun n => by simp
  have made : ∀ u config, u ≠ t → g.make u config = .ok g' → g'.node? t = g.node? t := by
    intro u config hu hg
    obtain ⟨-, n, -, rfl⟩ := make_eq_ok.1 hg
    rw [node?, OrderedMap.get?_insert, if_neg hu.symm]
    rfl
  cases r with
  | drop u holders =>
    have hu : u ≠ t := (List.ne_of_not_mem_cons hm).symm
    obtain ⟨r, hr, rfl⟩ := except_map_eq_ok.1 hg
    rw [node?_drop hr, if_neg hu.symm]
    rfl
  | create u config =>
    obtain ⟨c, -, hg⟩ := create_eq_ok.1 hg
    exact (made u c (fun hu => hmade (congrArg some hu)) hg).trans (same _)
  | make u config => exact (made u config (fun hu => hmade (congrArg some hu)) hg).trans (same _)
  | connect parent child =>
    obtain ⟨p, c, -, -, -, ⟨-, rfl⟩ | ⟨-, -, rfl⟩⟩ := connect_eq_ok hg
    · exact same _
    · exact (node?_update_of_ne (List.ne_of_not_mem_cons hm).symm _).trans (same _)
  | disconnect parent child =>
    obtain ⟨p, c, -, -, -, rfl⟩ := disconnect_eq_ok hg
    exact (node?_update_of_ne (List.ne_of_not_mem_cons hm).symm _).trans (same _)
  | setBase u x =>
    obtain ⟨r, hr, rfl⟩ := except_map_eq_ok.1 hg
    exact (node?_setBase (List.ne_of_not_mem_cons hm).symm hr).trans (same _)
  | setOffset u x =>
    have hu : u ≠ t := (List.ne_of_not_mem_cons hm).symm
    obtain ⟨r, hr, rfl⟩ := except_map_eq_ok.1 hg
    obtain ⟨n, -, -, -, hr⟩ := setOffset_eq_ok hr
    have set := node?_update_of_ne (g := g) hu fun n => n.setOffset x
    rw [hr]
    split <;> exact set.trans (same _)
  | flattenOffset u =>
    obtain ⟨n, -, rfl⟩ := flattenOffset_eq_ok.1 hg
    exact (node?_update_of_ne (List.ne_of_not_mem_cons hm).symm _).trans (same _)
  | extractOffset u =>
    obtain ⟨n, -, rfl⟩ := extractOffset_eq_ok.1 hg
    exact (node?_update_of_ne (List.ne_of_not_mem_cons hm).symm _).trans (same _)
  | attachView u view =>
    have hu : u ≠ t := (List.ne_of_not_mem_cons hm).symm
    obtain ⟨n, p, -, -, ⟨-, rfl⟩ | ⟨-, rfl⟩⟩ := attachView_eq_ok hg
    · exact same _
    · exact (node?_update_of_ne hu _).trans (same _)
  | detachView u view =>
    obtain ⟨n, p, -, -, -, rfl⟩ := detachView_eq_ok hg
    exact (node?_update_of_ne (List.ne_of_not_mem_cons hm).symm _).trans (same _)
  | mark u =>
    obtain ⟨n, -, rfl⟩ := mark_eq_ok.1 hg
    exact same _
  | applyWrites writes =>
    cases hg
    refine Eq.trans ?_ (same _)
    refine applyWrites_induction (P := fun g' => g'.node? t = g.node? t)
      (fun g' u x r hw hn hr => (node?_setBase ?_ hr).trans hn) rfl
    rintro rfl
    exact hm (List.mem_map_of_mem hw)
  | propagate =>
    cases hg
    exact (Unreferenced.evaluateAll (g := { g with marked := ∅ }) h.unreferenced
      (h.notMem_affected hs)).1.trans (same _)
  | takeUpdate u =>
    have hu : u ≠ t := (List.ne_of_not_mem_cons hm).symm
    cases hg
    rcases takeUpdate_cases g u with ⟨he, -⟩ | ⟨n, p, view, -, -, -, -, he⟩
    · rw [he]
      exact same _
    · rw [he]
      exact (node?_update_of_ne hu _).trans (same _)
  | restoreDefaults u =>
    have hu : u ≠ t := (List.ne_of_not_mem_cons hm).symm
    obtain ⟨r, hr, rfl⟩ := except_map_eq_ok.1 hg
    obtain ⟨n, p, -, -, hr, -⟩ := restoreDefaults_eq_ok hr
    rw [hr]
    exact (node?_update_of_ne hu _).trans (same _)

/-- A sound graph in which nothing refers to a name, with the node of that name. -/
structure Apart (g : Graph) (t : Tag) (n : Option Node) : Prop where
  sound : g.Sound
  unmentioned : g.Unmentioned t
  node : g.node? t = n

namespace Apart

variable {n : Option Node} (h : g.Apart t n)

include h

/-- A request that does not mention the name leaves its node. -/
theorem perform {r : Request} (hm : t ∉ r.mentions) (hmade : r.made? ≠ some t)
    (hg : g.perform r = .ok g') : g'.Apart t (n.map r.leaves) where
  sound := h.sound.perform hg
  unmentioned := h.unmentioned.perform h.sound hm hg
  node := by rw [h.unmentioned.node?_perform h.sound hm hmade hg, h.node]

/-- A request that neither mentions the name nor removes a node leaves the node as it is. -/
theorem own {r : Request} (hd : r.dropped? = none) (hm : t ∉ r.mentions) (hmade : r.made? ≠ some t)
    (hg : g.perform r = .ok g') : g'.Apart t n := by
  have same : r.leaves = id := by
    cases r <;> first | rfl | cases hd
  have next := h.perform hm hmade hg
  rwa [same, Option.map_id, id_eq] at next

/-- Setting the base value of another node leaves the node. -/
theorem setBase {u : Tag} (hu : u ≠ t) {x : Float} {r : Graph × Bool} (hr : g.setBase u x = .ok r) :
    r.1.Apart t n where
  sound := h.sound.setBase hr
  unmentioned := h.unmentioned.setBase hu hr
  node := (node?_setBase hu hr).trans h.node

/-- Propagating and carrying out the writes asked for leaves the node. -/
theorem settled : (g.propagate.1.applyWrites g.propagate.2.writes).1.Apart t n := by
  have spared := h.unmentioned.spares_propagate h.sound
  have propagated : g.propagate.1.Apart t n :=
    h.own (r := .propagate) rfl List.not_mem_nil (by simp [Request.made?]) rfl
  exact applyWrites_induction (P := fun g => g.Apart t n)
    (fun g u x r hw h hr => h.setBase (spared.writes _ hw) hr) propagated

end Apart

end Graph

end MotionGraph
