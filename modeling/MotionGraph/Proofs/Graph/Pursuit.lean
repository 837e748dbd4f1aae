import MotionGraph.Proofs.Graph.Deferred
import MotionGraph.Proofs.Graph.Reordered

/-!
# A node that follows another one

A `Pursuit` is a tracking node with the node whose value it follows and the one that it keeps
animating. It is set up in a graph if the tracking node refers to the two and reads the followed one
by an edge (`Pursuit.SetIn`).

A change lasts a pursuit if it leaves it set up and if the tracking node waits to be computed
afterwards or nothing has changed for it (`Pursuit.LastsTo`). Whatever is noticed does so
(`LastsTo.of_noticed`), and so do writes. When a pass computes the tracking node, the last
animation asked for under its name goes to the value that the followed node has at the end of the
pass (`SparedBy.requested`).
-/

namespace MotionGraph

/-- The animation that a kind asks for when it is computed. -/
def Kind.animates : Kind → Option AnimationId
  | .tracking t => if t.followed.isSome && t.follower.isSome then some t.animation else none
  | _ => none

namespace Kind

/-- Memory does not animate. -/
@[simp] theorem animates_plan (k : Kind) : k.plan.animates = k.animates := by
  cases k <;> rfl

/-- A tracking node has no memory. -/
theorem plan_eq_tracking {k : Kind} {t : Tracking} : k.plan = .tracking t ↔ k = .tracking t := by
  cases k <;> simp [plan]

/-- A node that only holds a value has none either. -/
theorem plan_eq_value {k : Kind} : k.plan = .value ↔ k = .value := by
  cases k <;> simp [plan]

/-- A kind asks for no other animation than its own. -/
theorem animates_of_mem_requests {read : Tag → Option Float} {k : Kind} {r : TrackingRequest}
    (h : r ∈ k.requests read) : k.animates = some r.animation := by
  unfold requests at h
  split at h
  · split at h
    · next t followed follower hfollowed hfollower =>
      rw [List.mem_singleton.1 h, animates, hfollowed, hfollower]
      rfl
    · cases h
  · cases h

end Kind

namespace Graph

variable {g : Graph}

/-- Computing nodes in two parts. -/
theorem evaluateAll_append (g : Graph) (ts us : List Tag) :
    (g.evaluateAll (ts ++ us)).1 = ((g.evaluateAll ts).1.evaluateAll us).1 ∧
      (g.evaluateAll (ts ++ us)).2.requests =
        (g.evaluateAll ts).2.requests ++ ((g.evaluateAll ts).1.evaluateAll us).2.requests := by
  induction ts generalizing g with
  | nil => exact ⟨rfl, rfl⟩
  | cons t ts ih =>
    obtain ⟨hgraph, hrequests⟩ := ih (g.evaluate t).1
    refine ⟨hgraph, ?_⟩
    show (g.evaluate t).2.requests ++ ((g.evaluate t).1.evaluateAll (ts ++ us)).2.requests =
      ((g.evaluate t).2.requests ++ ((g.evaluate t).1.evaluateAll ts).2.requests) ++
        (((g.evaluate t).1.evaluateAll ts).1.evaluateAll us).2.requests
    rw [hrequests, List.append_assoc]

/-- Every animation that is asked for is that of a node computed. -/
theorem CallFree.animates_of_mem_requests (h : g.CallFree) {ts : List Tag} {r : TrackingRequest}
    (hr : r ∈ (g.evaluateAll ts).2.requests) :
    ∃ t ∈ ts, ∃ n, g.node? t = some n ∧ n.kind.animates = some r.animation := by
  induction ts generalizing g with
  | nil => cases hr
  | cons t ts ih =>
    have parts : r ∈ (g.evaluate t).2.requests ∨ r ∈ ((g.evaluate t).1.evaluateAll ts).2.requests :=
      List.mem_append.1 hr
    rcases parts with hr | hr
    · cases hn : g.node? t with
      | none =>
        rw [snd_evaluate_of_none hn] at hr
        cases hr
      | some n =>
        rw [snd_evaluate hn (h t n hn)] at hr
        exact ⟨t, List.mem_cons_self, n, hn, Kind.animates_of_mem_requests hr⟩
    · have hd : SameDesign g (g.evaluate t).1 := sameDesign_evaluate g t
      obtain ⟨u, hu, n', hn', ha⟩ := ih (h.of_sameDesign hd) hr
      obtain ⟨n, hn, hnd⟩ := hd.exists_node? hn'
      have hk : n'.kind.plan = n.kind.plan := congrArg Node.kind hnd
      refine ⟨u, List.mem_cons_of_mem t hu, n, hn, ?_⟩
      rw [← Kind.animates_plan, ← hk, Kind.animates_plan, ha]

/-- Computing leaves a node that only holds a value. -/
theorem CallFree.node?_evaluateAll_of_value (h : g.CallFree) {t : Tag} {n : Node}
    (hn : g.node? t = some n) (hk : n.kind = .value) (ts : List Tag) :
    (g.evaluateAll ts).1.node? t = some n := by
  induction ts generalizing g with
  | nil => exact hn
  | cons u ts ih =>
    refine ih (g := (g.evaluate u).1) (h.of_sameDesign (sameDesign_evaluate g u)) ?_
    rw [node?_evaluate (h u), hn]
    split
    · rw [Option.map_some, Node.computed_of_ne_diffClamp (by simp [hk]), hk]
      rfl
    · rfl

/-! ### Base values that requests leave -/

/-- The node of which a request sets the base value. -/
def Request.rebases? : Request → Option Tag
  | .setBase t _ | .flattenOffset t | .extractOffset t => some t
  | _ => none

/-- Rewriting nodes without their base values leaves these. -/
theorem base?_update {f : Node → Node} (hf : ∀ n, (f n).base = n.base) (g : Graph) (t u : Tag) :
    (g.update t f).base? u = g.base? u := by
  rw [base?, node?_update, base?]
  split
  · rw [Option.map_map]
    exact congrArg (Option.map · (g.node? u)) (funext hf)
  · rfl

/-- Rewriting another node leaves the base value of a node. -/
theorem base?_update_of_ne {f : Node → Node} (g : Graph) {t u : Tag} (hu : u ≠ t) :
    (g.update t f).base? u = g.base? u := by
  rw [base?, node?_update, if_neg hu, base?]

/-- A node that is there before and after a request keeps its base value, unless the request sets
it. -/
theorem base?_perform {g' : Graph} {r : Request} (hr : r.isCompound = false) {u : Tag}
    (hb : r.rebases? ≠ some u) (hg : g.perform r = .ok g') (hu : g.contains u = true)
    (hu' : g'.contains u = true) : g'.base? u = g.base? u := by
  have made : ∀ {t config}, g.make t config = .ok g' → g'.base? u = g.base? u := by
    intro t config hg
    obtain ⟨ht, n, -, rfl⟩ := make_eq_ok.1 hg
    have hut : u ≠ t := by
      rintro rfl
      rw [hu] at ht
      cases ht
    rw [base?, node?, OrderedMap.get?_insert, if_neg hut]
    rfl
  have kept : ∀ t q, (g.setProps t q).base? u = g.base? u := fun t q =>
    base?_update (f := fun n => { n with kind := .props q }) (fun _ => rfl) g t u
  cases r with
  | create t config =>
    obtain ⟨c, -, hg⟩ := create_eq_ok.1 hg
    exact made hg
  | make t config => exact made hg
  | connect parent child =>
    obtain ⟨p, c, -, -, -, ⟨-, rfl⟩ | ⟨-, -, rfl⟩⟩ := connect_eq_ok hg
    · rfl
    · exact base?_update (f := fun n => n.attach child) (fun _ => rfl) _ parent u
  | disconnect parent child =>
    obtain ⟨p, c, -, -, -, rfl⟩ := disconnect_eq_ok hg
    exact base?_update (f := fun n => n.forget child) (fun _ => rfl) _ parent u
  | drop t holders =>
    obtain ⟨r, hr, rfl⟩ := except_map_eq_ok.1 hg
    rw [contains_eq_isSome, node?_drop hr] at hu'
    rw [base?, node?_drop hr]
    split at hu'
    · cases hu'
    · next hut =>
      rw [if_neg hut, Option.map_map]
      rfl
  | setBase t x =>
    obtain ⟨r, hr, rfl⟩ := except_map_eq_ok.1 hg
    have hut : u ≠ t := fun he => hb (congrArg some he.symm)
    obtain ⟨n, -, -, -, hr⟩ := setBase_eq_ok hr
    rw [hr]
    split <;> exact base?_update_of_ne g hut
  | setOffset t x =>
    obtain ⟨r, hr, rfl⟩ := except_map_eq_ok.1 hg
    obtain ⟨n, -, -, -, hr⟩ := setOffset_eq_ok hr
    rw [hr]
    split <;> exact base?_update (f := fun n => n.setOffset x) (fun _ => rfl) g t u
  | flattenOffset t =>
    obtain ⟨n, -, rfl⟩ := flattenOffset_eq_ok.1 hg
    exact base?_update_of_ne g fun he => hb (congrArg some he.symm)
  | extractOffset t =>
    obtain ⟨n, -, rfl⟩ := extractOffset_eq_ok.1 hg
    exact base?_update_of_ne g fun he => hb (congrArg some he.symm)
  | attachView t view =>
    obtain ⟨n, p, -, -, ⟨-, rfl⟩ | ⟨-, rfl⟩⟩ := attachView_eq_ok hg
    · rfl
    · exact kept _ _
  | detachView t view =>
    obtain ⟨n, p, -, -, -, rfl⟩ := detachView_eq_ok hg
    exact kept _ _
  | mark t =>
    obtain ⟨n, -, rfl⟩ := mark_eq_ok.1 hg
    rfl
  | applyWrites writes => cases hr
  | propagate => cases hr
  | takeUpdate t =>
    cases hg
    rcases takeUpdate_cases g t with ⟨he, -⟩ | ⟨n, p, view, -, -, -, -, he⟩ <;> rw [he]
    exact kept _ _
  | restoreDefaults t =>
    obtain ⟨r, hr, rfl⟩ := except_map_eq_ok.1 hg
    obtain ⟨n, p, -, -, hr, -⟩ := restoreDefaults_eq_ok hr
    rw [hr]
    exact kept _ _

end Graph

/-- A tracking node, the node whose value it follows, and the node that it keeps animating. -/
structure Pursuit where
  tracker : Tag
  followed : Tag
  follower : Tag
  animation : AnimationId
  /-- The settings of the animation, without its end value. -/
  template : List (String × Json)

namespace Pursuit

variable {p : Pursuit} {g g' g'' : Graph}

/-- The kind of the tracking node. -/
def kind (p : Pursuit) : Kind :=
  .tracking ⟨p.animation, some p.followed, some p.follower, p.template⟩

/-- The animation that the tracking node asks for when the followed node has a value. -/
def request (p : Pursuit) (x : Float) : TrackingRequest :=
  ⟨p.animation, p.follower, .object (Json.insertField "toValue" (Json.ofFloat x) p.template)⟩

/-- The tracking node refers to the two others and reads the followed one by an edge, the follower
only holds a value, and no node is a call. -/
structure SetIn (p : Pursuit) (g : Graph) : Prop where
  callFree : g.CallFree
  edge : g.edges.Reads p.tracker p.followed
  tracker : (g.node? p.tracker).map Node.kind = some p.kind
  follower : (g.node? p.follower).map Node.kind = some .value

namespace SetIn

/-- The follower holds a number. -/
theorem holds (h : p.SetIn g) : g.holds p.follower = true := by
  obtain ⟨n, hn, hk⟩ := Option.map_eq_some_iff.1 h.follower
  rw [Graph.holds, hn, Option.map_some, Option.getD_some, Node.holdsValue, hk]
  rfl

/-- The follower is there. -/
theorem contains_follower (h : p.SetIn g) : g.contains p.follower = true := by
  obtain ⟨n, hn, -⟩ := Option.map_eq_some_iff.1 h.follower
  exact Graph.contains_of_node? hn

/-- The followed node has a value. -/
theorem exists_value (h : p.SetIn g) (hs : g.Sound) : ∃ v, g.value? p.followed = some v := by
  obtain ⟨n, hn⟩ := Graph.exists_node?_of_contains (hs.child_live _ _ h.edge)
  exact ⟨n.value, by rw [Graph.value?, hn, Option.map_some]⟩

/-- When the followed node is to be computed, so is the tracking node. -/
theorem stale_of_followed (h : p.SetIn g) (hm : g.Stale p.followed) : g.Stale p.tracker :=
  hm.above (.single h.edge)

/-- A pursuit stays set up where edges stay and nodes keep their kinds. -/
theorem of_same_kinds (h : p.SetIn g) (he : g'.edges = g.edges)
    (hk : ∀ t, (g'.node? t).map Node.kind = (g.node? t).map Node.kind) : p.SetIn g' where
  callFree t n' hn' := by
    have hkt := hk t
    rw [hn', Option.map_some, eq_comm, Option.map_eq_some_iff] at hkt
    obtain ⟨n, hn, hkind⟩ := hkt
    rw [← hkind]
    exact h.callFree t n hn
  edge := he ▸ h.edge
  tracker := (hk _).trans h.tracker
  follower := (hk _).trans h.follower

/-- Setting a base value leaves a pursuit set up. -/
theorem setBase (h : p.SetIn g) {t : Tag} {x : Float} {r : Graph × Bool}
    (hr : g.setBase t x = .ok r) : p.SetIn r.1 := by
  obtain ⟨n, -, -, -, hr⟩ := Graph.setBase_eq_ok hr
  have rewritten : p.SetIn (g.update t fun n => n.setBase x) := by
    refine h.of_same_kinds rfl fun u => ?_
    rw [Graph.node?_update]
    split
    · rw [Option.map_map]
      rfl
    · rfl
  rw [hr]
  split
  · exact rewritten.of_same_kinds rfl fun _ => rfl
  · exact rewritten

/-- Computing nodes leaves a pursuit set up. -/
theorem of_sameDesign (h : p.SetIn g) (hd : Graph.SameDesign g g') : p.SetIn g' := by
  have plan : ∀ {t k}, (g.node? t).map Node.kind = some k →
      (g'.node? t).map (fun n => n.kind.plan) = some k.plan := by
    intro t k hk
    have hdt := congrArg (Option.map Node.kind) (hd.node t)
    simp only [Option.map_map, Function.comp_def, Node.design] at hdt
    rw [hdt]
    have hp := congrArg (Option.map Kind.plan) hk
    simpa only [Option.map_map, Function.comp_def, Option.map_some] using hp
  refine ⟨h.callFree.of_sameDesign hd, hd.edges ▸ h.edge, ?_, ?_⟩
  · obtain ⟨n, hn, hk⟩ := Option.map_eq_some_iff.1 (plan h.tracker)
    rw [hn, Option.map_some, Kind.plan_eq_tracking.1 hk]
    rfl
  · obtain ⟨n, hn, hk⟩ := Option.map_eq_some_iff.1 (plan h.follower)
    rw [hn, Option.map_some, Kind.plan_eq_value.1 hk]

/-- Taking the update of a props node leaves a pursuit set up. -/
theorem takeUpdate (h : p.SetIn g) (hs : g.Sound) (t : Tag) : p.SetIn (g.takeUpdate t).1 := by
  have callFree : (g.takeUpdate t).1.CallFree :=
    h.callFree.of_announced (.perform hs (r := .takeUpdate t) trivial rfl rfl)
  rcases Graph.takeUpdate_cases g t with ⟨he, -⟩ | ⟨n, q, view, hn, hk, -, -, he⟩
  · rw [he]
    exact h
  · rw [he] at callFree ⊢
    have kept : ∀ {u k}, k.isSink = false → (g.node? u).map Node.kind = some k →
        ((g.setProps t { q with lastSent := some (g.propsOf q) }).node? u).map Node.kind =
          some k := by
      intro u k hother hu
      have hut : u ≠ t := by
        rintro rfl
        rw [hn, Option.map_some, hk, Option.some.injEq] at hu
        rw [← hu] at hother
        cases hother
      rw [Graph.setProps, Graph.node?_update, if_neg hut, hu]
    exact ⟨callFree, h.edge, kept rfl h.tracker, kept rfl h.follower⟩

end SetIn

/-! ### Changes that a pursuit outlasts -/

/-- From one graph to another a pursuit stays set up, and its tracking node waits to be computed, or
has not waited and the followed node has the same value. -/
structure LastsTo (p : Pursuit) (g g' : Graph) : Prop where
  sound : g'.Sound
  set : p.SetIn g'
  heeded : g'.Stale p.tracker ∨
    (¬g.Stale p.tracker ∧ g'.value? p.followed = g.value? p.followed)

namespace LastsTo

/-- A pursuit lasts where nothing happens. -/
theorem refl (hs : g.Sound) (h : p.SetIn g) : p.LastsTo g g := by
  by_cases hst : g.Stale p.tracker
  · exact ⟨hs, h, Or.inl hst⟩
  · exact ⟨hs, h, Or.inr ⟨hst, rfl⟩⟩

/-- A pursuit lasts from step to step. -/
theorem trans (h : p.LastsTo g g') (h' : p.LastsTo g' g'') : p.LastsTo g g'' := by
  refine ⟨h'.sound, h'.set, h'.heeded.imp id fun ⟨hst', hv'⟩ => ?_⟩
  obtain ⟨hst, hv⟩ := h.heeded.resolve_left hst'
  exact ⟨hst, hv'.trans hv⟩

/-- **A pursuit lasts where changes are noticed**, as long as it is set up. -/
theorem of_noticed (hs : g.Sound) (h : p.SetIn g) (hs' : g'.Sound) (h' : p.SetIn g')
    (hn : Graph.Noticed g g') : p.LastsTo g g' := by
  refine ⟨hs', h', ?_⟩
  by_cases hst' : g'.Stale p.tracker
  · exact Or.inl hst'
  refine Or.inr ⟨fun hst => hst' (hn.stale hs' hst (hs'.parent_live _ _ h'.edge)), ?_⟩
  refine (hn.value _ (hs.child_live _ _ h.edge) (hs'.child_live _ _ h'.edge)).resolve_left
    fun hm => ?_
  exact hst' (h'.stale_of_followed ⟨_, hm, .refl⟩)

/-- A pursuit lasts when a base value is set. -/
theorem setBase (h : p.LastsTo g g') {t : Tag} {x : Float} {r : Graph × Bool}
    (hr : g'.setBase t x = .ok r) : p.LastsTo g r.1 :=
  h.trans (of_noticed h.sound h.set (h.sound.setBase hr) (h.set.setBase hr)
    (Graph.Announced.setBase hr).noticed)

/-- A pursuit lasts when writes are carried out. -/
theorem applyWrites (hs : g.Sound) (h : p.SetIn g) (ws : Writes) :
    p.LastsTo g (g.applyWrites ws).1 :=
  Graph.applyWrites_induction (P := p.LastsTo g) (fun _ _ _ _ _ h hr => h.setBase hr) (refl hs h)

end LastsTo

/-! ### A pass -/

/-- A propagation writes nothing into the follower, and no other node that it computes asks for the
animation. -/
def SparedBy (p : Pursuit) (g : Graph) : Prop :=
  (∀ w ∈ g.propagate.2.writes, w.1 ≠ p.follower) ∧
    ∀ t ∈ g.propagate.2.recomputed, t ≠ p.tracker →
      (g.node? t).bind (fun n => n.kind.animates) ≠ some p.animation

instance (p : Pursuit) (g : Graph) : Decidable (p.SparedBy g) := by
  unfold SparedBy
  infer_instance

/-- A propagation that does not compute the tracking node asks for no animation under its name. -/
theorem SparedBy.not_requested (hp : p.SparedBy g) (h : p.SetIn g) (ht : p.tracker ∉ g.affected) :
    ∀ r ∈ g.propagate.2.requests, r.animation ≠ p.animation := by
  intro r hr he
  obtain ⟨t, hta, n, hn, ha⟩ :=
    Graph.CallFree.animates_of_mem_requests (g := { g with marked := ∅ }) h.callFree hr
  have hne : t ≠ p.tracker := fun hp => ht (hp ▸ hta)
  refine hp.2 t (by rwa [Graph.recomputed_propagate]) hne ?_
  rw [show g.node? t = some n from hn, Option.bind_some, ha, he]

/-- **What the tracking node asks for**: if a propagation computes it, the last animation asked for
under its name is led to the value that the followed node has afterwards. -/
theorem SparedBy.requested (hp : p.SparedBy g) (h : p.SetIn g) (hs : g.Sound)
    (ht : p.tracker ∈ g.affected) {v : Float} (hv : g.propagate.1.value? p.followed = some v) :
    ∃ earlier later, g.propagate.2.requests = earlier ++ p.request v :: later ∧
      ∀ r ∈ later, r.animation ≠ p.animation := by
  let g₀ : Graph := { g with marked := ∅ }
  have set₀ : p.SetIn g₀ := h.of_same_kinds rfl fun _ => rfl
  obtain ⟨front, back, happ⟩ := List.append_of_mem ht
  let g₁ := (g₀.evaluateAll front).1
  have hd₁ : Graph.SameDesign g₀ g₁ := Graph.sameDesign_evaluateAll front g₀
  have set₁ : p.SetIn g₁ := set₀.of_sameDesign hd₁
  have hself : ∀ t, ¬g₁.edges.Reads t t := fun t hr => hs.acyclic t (.single (hd₁.edges ▸ hr))
  -- when its turn comes, the followed node has its last value
  have order : (p.tracker :: back).Pairwise fun a b => ¬g₁.edges.Reads a b := by
    have all := Edges.pairwise_order hs.mirrored (g.marked.toList.filter g.contains)
    rw [show g.edges.order _ = front ++ p.tracker :: back from happ, List.pairwise_append] at all
    rw [hd₁.edges]
    exact all.2.1
  have last : g₁.value? p.followed = some v := by
    rw [← hv, ← set₁.callFree.value?_evaluateAll_of_reads hself (List.pairwise_cons.1 order).1
      set₁.edge]
    show _ = (g₀.evaluateAll g.affected).1.value? p.followed
    rw [happ, (Graph.evaluateAll_append g₀ front _).1]
  obtain ⟨n, hn, hk⟩ := Option.map_eq_some_iff.1 set₁.tracker
  have own : (g₁.evaluate p.tracker).2.requests = [p.request v] := by
    rw [Graph.snd_evaluate hn (set₁.callFree _ n hn)]
    show n.kind.requests g₁.value? = _
    rw [hk]
    show [p.request ((g₁.value? p.followed).getD 0.0)] = _
    rw [last, Option.getD_some]
  refine ⟨(g₀.evaluateAll front).2.requests,
    ((g₁.evaluate p.tracker).1.evaluateAll back).2.requests, ?_, fun r hr he => ?_⟩
  · show (g₀.evaluateAll g.affected).2.requests = _
    rw [happ, (Graph.evaluateAll_append g₀ front _).2]
    show _ ++ ((g₁.evaluate p.tracker).2.requests ++ _) = _
    rw [own]
    rfl
  · have hd₂ : Graph.SameDesign g₀ (g₁.evaluate p.tracker).1 :=
      hd₁.trans (Graph.sameDesign_evaluate g₁ p.tracker)
    obtain ⟨t, htb, n', hn', ha⟩ :=
      (set₀.callFree.of_sameDesign hd₂).animates_of_mem_requests hr
    obtain ⟨n, hn, hnd⟩ := hd₂.exists_node? hn'
    have hkind : n'.kind.plan = n.kind.plan := congrArg Node.kind hnd
    have once : t ≠ p.tracker := by
      have all := Edges.nodup_order hs.mirrored (g.marked.toList.filter g.contains)
      rw [show g.edges.order _ = front ++ p.tracker :: back from happ] at all
      rintro rfl
      exact (List.nodup_cons.1 (List.nodup_append.1 all).2.1).1 htb
    have computed : t ∈ g.propagate.2.recomputed := by
      rw [Graph.recomputed_propagate, happ]
      exact List.mem_append_right _ (List.mem_cons_of_mem _ htb)
    refine hp.2 t computed once ?_
    rw [show g.node? t = some n from hn, Option.bind_some, ← Kind.animates_plan, ← hkind,
      Kind.animates_plan, ha, he]

end Pursuit

end MotionGraph
