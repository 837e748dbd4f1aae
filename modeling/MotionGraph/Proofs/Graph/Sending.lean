import MotionGraph.Proofs.Graph.Evaluation
import MotionGraph.Proofs.Node.Inputs
import MotionGraph.Proofs.Ordered.Lookup

/-!
# What is sent for nodes and taken back

A props node keeps its view and the map that it received last (`Kind.sending`), and only requests
about its view change this (`Graph.sending_perform`). A property map sets every name that it has
(`Graph.sets_propsOf`), and restoring the defaults takes back the names that the node shows and
those of the map that was sent last, and no others (`Graph.get?_resetMap`).
-/

namespace MotionGraph

/-! ### What nodes keep about their views -/

/-- What a kind keeps about its view: the view and what it received last. -/
def Kind.sending : Kind → Option (Option ViewId × Option PropMap)
  | .props p => some (p.view, p.lastSent)
  | _ => none

namespace Kind

/-- Taking an input does not concern a view. -/
@[simp] theorem sending_attach (child : Tag) (k : Kind) : (k.attach child).sending = k.sending := by
  fun_cases Kind.attach child k <;> rfl

/-- Forgetting a node does not concern a view. -/
@[simp] theorem sending_forget (child : Tag) (k : Kind) : (k.forget child).sending = k.sending := by
  fun_cases Kind.forget child k <;> simp_all [sending]

/-- Memory does not concern a view. -/
@[simp] theorem sending_plan (k : Kind) : k.plan.sending = k.sending := by
  cases k <;> rfl

/-- Only a props node keeps anything about a view. -/
theorem exists_props_of_sending {k : Kind} {v : Option ViewId} {m : Option PropMap}
    (h : k.sending = some (v, m)) : ∃ p, k = .props p ∧ p.view = v ∧ p.lastSent = m := by
  cases k with
  | props p =>
    cases h
    exact ⟨p, rfl, rfl, rfl⟩
  | _ => cases h

end Kind

namespace Graph

variable {g g' : Graph} {u : Tag} {n' : Node}

/-- The node whose view a request is about. -/
def Request.onView : Request → Option Tag
  | .attachView t _ => some t
  | .detachView t _ => some t
  | .takeUpdate t => some t
  | .restoreDefaults t => some t
  | _ => none

/-- A node has a counterpart that keeps the same about its view. -/
def SendsAlike (g : Graph) (u : Tag) (n' : Node) : Prop :=
  ∃ n, g.node? u = some n ∧ n'.kind.sending = n.kind.sending

/-- A rewriting that leaves alone what a node keeps about its view. -/
theorem SendsAlike.update {t : Tag} {f : Node → Node}
    (hf : ∀ n, (f n).kind.sending = n.kind.sending ∨ u ≠ t)
    (hn' : (g.update t f).node? u = some n') : g.SendsAlike u n' := by
  rw [node?_update] at hn'
  by_cases hu : u = t
  · rw [if_pos hu, Option.map_eq_some_iff] at hn'
    obtain ⟨n, hn, rfl⟩ := hn'
    exact ⟨n, hn, (hf n).resolve_right fun hne => hne hu⟩
  · rw [if_neg hu] at hn'
    exact ⟨n', hn', rfl⟩

/-- Setting a base value leaves what a node keeps about its view. -/
theorem SendsAlike.setBase {t : Tag} {x : Float} {r : Graph × Bool} (hr : g.setBase t x = .ok r)
    (hn' : r.1.node? u = some n') : g.SendsAlike u n' := by
  obtain ⟨n, -, -, -, hr⟩ := setBase_eq_ok hr
  refine .update (t := t) (f := fun n => n.setBase x) (fun _ => Or.inl rfl) ?_
  rw [← hn', hr]
  split <;> rfl

/-- A new node has no view. -/
theorem sending_make {t : Tag} {config : NodeConfig} (hg : g.make t config = .ok g')
    (hn' : g'.node? u = some n') :
    g.SendsAlike u n' ∨
      g.contains u = false ∧ ∀ v m, n'.kind.sending = some (v, m) → v = none ∧ m = none := by
  obtain ⟨hfree, n, hb, rfl⟩ := make_eq_ok.1 hg
  rw [node?, OrderedMap.get?_insert] at hn'
  by_cases hu : u = t
  · subst hu
    rw [if_pos rfl, Option.some.injEq] at hn'
    subst hn'
    refine Or.inr ⟨hfree, fun v m hk => ?_⟩
    obtain ⟨p, hp, rfl, rfl⟩ := Kind.exists_props_of_sending hk
    exact (NodeConfig.build_eq_ok hb).detached p hp
  · rw [if_neg hu] at hn'
    exact Or.inl ⟨n', hn', rfl⟩

/-- **Only requests about its view change what a node keeps about it**; one that is new has no
view. -/
theorem sending_perform {r : Request} (h : g.perform r = .ok g') (hu : r.onView ≠ some u)
    (hn' : g'.node? u = some n') :
    g.SendsAlike u n' ∨
      g.contains u = false ∧ ∀ v m, n'.kind.sending = some (v, m) → v = none ∧ m = none := by
  have other : ∀ {t : Tag}, r.onView = some t → u ≠ t := fun ht he =>
    hu (ht.trans (congrArg some he.symm))
  cases r with
  | create t config =>
    obtain ⟨c, -, hg⟩ := create_eq_ok.1 h
    exact sending_make hg hn'
  | make t config => exact sending_make h hn'
  | connect parent child =>
    obtain ⟨p, c, -, -, -, ⟨-, rfl⟩ | ⟨-, -, rfl⟩⟩ := connect_eq_ok h
    · exact Or.inl ⟨n', hn', rfl⟩
    · exact Or.inl (SendsAlike.update (g := { g with edges := g.edges.link parent child })
        (fun n => Or.inl (Kind.sending_attach child n.kind)) hn')
  | disconnect parent child =>
    obtain ⟨p, c, -, -, -, rfl⟩ := disconnect_eq_ok h
    exact Or.inl (SendsAlike.update (g := { g with edges := g.edges.unlink parent child })
      (fun n => Or.inl (Kind.sending_forget child n.kind)) hn')
  | drop t holders =>
    obtain ⟨r, hr, rfl⟩ := except_map_eq_ok.1 h
    rw [node?_drop hr] at hn'
    split at hn'
    · cases hn'
    · obtain ⟨m, hm, rfl⟩ := Option.map_eq_some_iff.1 hn'
      exact Or.inl ⟨m, hm, Kind.sending_forget t m.kind⟩
  | setBase t x =>
    obtain ⟨r, hr, rfl⟩ := except_map_eq_ok.1 h
    exact Or.inl (.setBase hr hn')
  | setOffset t x =>
    obtain ⟨r, hr, rfl⟩ := except_map_eq_ok.1 h
    obtain ⟨m, -, -, -, hr⟩ := setOffset_eq_ok hr
    refine Or.inl (.update (t := t) (f := fun n => n.setOffset x) (fun _ => Or.inl rfl) ?_)
    rw [← hn', hr]
    split <;> rfl
  | flattenOffset t =>
    obtain ⟨-, -, rfl⟩ := flattenOffset_eq_ok.1 h
    exact Or.inl (.update (f := Node.flattenOffset) (fun _ => Or.inl rfl) hn')
  | extractOffset t =>
    obtain ⟨-, -, rfl⟩ := extractOffset_eq_ok.1 h
    exact Or.inl (.update (f := Node.extractOffset) (fun _ => Or.inl rfl) hn')
  | attachView t view =>
    obtain ⟨-, p, -, -, ⟨-, rfl⟩ | ⟨-, rfl⟩⟩ := attachView_eq_ok h
    · exact Or.inl ⟨n', hn', rfl⟩
    · exact Or.inl (.update (fun _ => Or.inr (other rfl)) hn')
  | detachView t view =>
    obtain ⟨-, p, -, -, -, rfl⟩ := detachView_eq_ok h
    exact Or.inl (.update (fun _ => Or.inr (other rfl)) hn')
  | mark t =>
    obtain ⟨-, -, rfl⟩ := mark_eq_ok.1 h
    exact Or.inl ⟨n', hn', rfl⟩
  | applyWrites writes =>
    cases h
    refine Or.inl (applyWrites_induction
      (P := fun g' => ∀ n', g'.node? u = some n' → g.SendsAlike u n')
      (fun _ _ _ _ _ hp hr n' hn' => ?_) (fun n' hn' => ⟨n', hn', rfl⟩) n' hn')
    obtain ⟨m, hm, hk⟩ := SendsAlike.setBase hr hn'
    obtain ⟨n, hn, hk'⟩ := hp m hm
    exact ⟨n, hn, hk.trans hk'⟩
  | propagate =>
    cases h
    obtain ⟨n, hn, hd⟩ := (sameDesign_propagate g).exists_node? hn'
    have hk : n'.kind.plan = n.kind.plan := congrArg Node.kind hd
    refine Or.inl ⟨n, hn, ?_⟩
    rw [← Kind.sending_plan, hk, Kind.sending_plan]
  | takeUpdate t =>
    cases h
    rcases takeUpdate_cases g t with ⟨he, -⟩ | ⟨m, p, view, -, -, -, -, he⟩
    · rw [he] at hn'
      exact Or.inl ⟨n', hn', rfl⟩
    · rw [he] at hn'
      exact Or.inl (.update (fun _ => Or.inr (other rfl)) hn')
  | restoreDefaults t =>
    obtain ⟨r, hr, rfl⟩ := except_map_eq_ok.1 h
    obtain ⟨m, p, -, -, hr, -⟩ := restoreDefaults_eq_ok hr
    rw [hr] at hn'
    exact Or.inl (.update (fun _ => Or.inr (other rfl)) hn')

/-- A node that was there keeps about its view what it kept. -/
theorem sending_perform_eq {r : Request} (h : g.perform r = .ok g') (hu : r.onView ≠ some u)
    {n : Node} (hn : g.node? u = some n) (hn' : g'.node? u = some n') :
    n'.kind.sending = n.kind.sending := by
  rcases sending_perform h hu hn' with ⟨m, hm, hk⟩ | ⟨hfree, -⟩
  · obtain rfl : n = m := Option.some.inj (hn.symm.trans hm)
    exact hk
  · rw [contains_of_node? hn] at hfree
    cases hfree

end Graph

/-! ### What updates set and resets take back -/

/-- Whether a map sets the property of a name, to another value than the view's own. -/
def PropMap.sets (m : PropMap) (name : String) : Bool :=
  match m.get? name with
  | some .viewDefault | none => false
  | some _ => true

namespace Graph

/-- Nodes are worth no defaults. -/
theorem propValue?_ne_viewDefault (g : Graph) (t : Tag) : g.propValue? t ≠ some .viewDefault := by
  unfold propValue?
  cases g.node? t with
  | none => nofun
  | some n => cases hk : n.kind <;> simp [hk]

/-- Property maps hold no defaults. -/
theorem propsOf_ne_viewDefault (g : Graph) (p : Props) (name : String) :
    (g.propsOf p).get? name ≠ some .viewDefault := by
  have hprop : ∀ (m : PropMap), (∀ name, m.get? name ≠ some .viewDefault) →
      ∀ name t name', (g.insertProp m name t).get? name' ≠ some .viewDefault := by
    intro m hm name t name'
    unfold insertProp
    split
    · next v hv =>
      rw [OrderedMap.get?_insert]
      split
      · rintro ⟨⟩
        exact propValue?_ne_viewDefault g t hv
      · exact hm name'
    · exact hm name'
  have hsource : ∀ (m : PropMap), (∀ name, m.get? name ≠ some .viewDefault) →
      ∀ name t name', (g.insertSource m name t).get? name' ≠ some .viewDefault := by
    intro m hm name t
    unfold insertSource
    split
    · exact List.foldlRecOn _ _ hm fun m hm s _ => hprop m hm s.1 s.2
    · exact hprop m hm name t
  have hempty : ∀ name, (∅ : PropMap).get? name ≠ some .viewDefault := fun _ h => by cases h
  exact List.foldlRecOn (motive := fun m : PropMap => ∀ name, m.get? name ≠ some .viewDefault) _ _
    hempty (fun m hm s _ => hsource m hm s.1 s.2) name

/-- Property maps set every name that they have. -/
theorem sets_propsOf (g : Graph) (p : Props) (name : String) :
    (g.propsOf p).sets name = (g.propsOf p).contains name := by
  have hne := propsOf_ne_viewDefault g p name
  rw [OrderedMap.contains_eq_isSome, PropMap.sets]
  cases h : (g.propsOf p).get? name with
  | none => rfl
  | some v => cases v <;> simp_all

/-- Adding names with defaults to a map of defaults gives one. -/
theorem get?_foldl_viewDefault (names : List String) (m : PropMap)
    (hm : ∀ name, m.get? name = if m.contains name then some .viewDefault else none)
    (name : String) :
    (names.foldl (fun m k => if m.contains k then m else m.insert k .viewDefault) m).get? name =
      if m.contains name || names.contains name then some .viewDefault else none := by
  induction names generalizing m with
  | nil => simpa using hm name
  | cons k names ih =>
    rw [List.foldl_cons]
    by_cases hk : m.contains k = true
    · rw [if_pos hk, ih m hm]
      by_cases hn : name = k <;> simp [hn, hk]
    · have hinsert :
          ∀ name, (m.insert k .viewDefault).contains name = (m.contains name || name == k) := by
        intro name
        rw [OrderedMap.contains_eq_isSome, OrderedMap.contains_eq_isSome, OrderedMap.get?_insert]
        by_cases hn : name = k <;> simp [hn]
      rw [if_neg hk, ih]
      · by_cases hn : name = k <;> simp [hinsert, hn]
      · intro name
        rw [hinsert, OrderedMap.get?_insert]
        by_cases hn : name = k <;> simp [hn, hm name]

/-- **What a reset takes back**: the names that the node shows and those of the map that its view
received last. -/
theorem get?_resetMap (g : Graph) (p : Props) (name : String) :
    (g.resetMap p).get? name =
      if (g.propsOf p).contains name || p.lastSent.any (·.contains name) then some .viewDefault
      else none := by
  have hnow : ∀ name, ((g.propsOf p).map fun _ _ => PropValue.viewDefault).contains name =
      (g.propsOf p).contains name := by
    intro name
    simp [OrderedMap.contains_eq_isSome]
  have hlast : ((p.lastSent.map OrderedMap.keys).getD []).contains name =
      p.lastSent.any (·.contains name) := by
    cases p.lastSent with
    | none => rfl
    | some m =>
      rw [Option.map_some, Option.getD_some, Option.any_some, Bool.eq_iff_iff,
        List.contains_iff_mem, OrderedMap.contains_iff]
  rw [resetMap, get?_foldl_viewDefault, hnow, hlast]
  intro name
  rw [OrderedMap.get?_map, hnow, OrderedMap.contains_eq_isSome]
  cases (g.propsOf p).get? name <;> rfl

end Graph

end MotionGraph
