import MotionGraph.Proofs.Graph.Calls
import MotionGraph.Proofs.Graph.Sound
import MotionGraph.Proofs.Node.References

/-!
# What part nodes have

Whether a node holds a number and whether it hands values to a view is settled when it is made: of
all requests only its removal takes it away (`Graph.role?_perform`). So what refers to a node for
its number stays right as long as the node is there.
-/

namespace MotionGraph

/-- Whether a node holds a number, and whether it hands values to a view. -/
def Node.role (n : Node) : Bool × Bool := (n.holdsValue, n.isSink)

namespace Graph

/-- The part of the node of a name. -/
def role? (g : Graph) (t : Tag) : Option (Bool × Bool) := (g.node? t).map Node.role

variable {g g' : Graph}

/-- A node of any part is there. -/
theorem contains_iff_role? {t : Tag} : g.contains t = true ↔ ∃ x, g.role? t = some x := by
  rw [contains_eq_isSome, role?]
  cases g.node? t <;> simp

/-- A node holds a number when that is its part. -/
theorem holds_iff_role? {t : Tag} : g.holds t = true ↔ ∃ s, g.role? t = some (true, s) := by
  rw [holds, role?]
  cases g.node? t <;> simp [Node.role]

/-- A node that was looked up holds a number if its part says so. -/
theorem holds_of_node? {t : Tag} {n : Node} (hn : g.node? t = some n) (hv : n.holdsValue = true) :
    g.holds t = true := by
  rw [holds, hn]
  exact hv

/-- A node hands values to a view when that is its part. -/
theorem props_iff_role? {t : Tag} :
    (∃ r, g.props t = .ok r) ↔ ∃ v, g.role? t = some (v, true) := by
  rw [role?]
  constructor
  · rintro ⟨⟨n, p⟩, h⟩
    obtain ⟨hn, hp⟩ := props_eq_ok.1 h
    exact ⟨n.holdsValue, by simp [hn, Node.role, Node.isSink, hp, Kind.isSink]⟩
  · rintro ⟨v, h⟩
    obtain ⟨n, hn, hr⟩ := Option.map_eq_some_iff.1 h
    have hs : n.kind.isSink = true := congrArg Prod.snd hr
    cases hk : n.kind <;> rw [hk] at hs <;> cases hs
    exact ⟨(n, _), props_eq_ok.2 ⟨hn, hk⟩⟩

/-- A node that holds a number is found as such. -/
theorem exists_holder_of_holds {t : Tag} (h : g.holds t = true) : ∃ n, g.holder t = .ok n := by
  rw [holds] at h
  cases hn : g.node? t with
  | none => simp [hn] at h
  | some n => exact ⟨n, holder_eq_ok.2 ⟨hn, by simpa [hn] using h⟩⟩

/-- Marks and edges do not matter. -/
theorem role?_of_node? {t : Tag} (h : g'.node? t = g.node? t) : g'.role? t = g.role? t := by
  rw [role?, role?, h]

/-- Rewriting a node without changing its part changes no part. -/
theorem role?_update {t : Tag} {f : Node → Node}
    (hf : ∀ n, g.node? t = some n → (f n).role = n.role) (u : Tag) :
    (g.update t f).role? u = g.role? u := by
  rw [role?, role?, node?_update]
  by_cases hu : u = t
  · subst hu
    cases hn : g.node? u with
    | none => simp
    | some n => simp [hf n hn]
  · simp [hu]

/-- What is kept about a props node does not change its part. -/
theorem role?_setProps {t : Tag} {n : Node} {p : Props} (hn : g.node? t = some n)
    (hp : n.kind = .props p) (q : Props) (u : Tag) : (g.setProps t q).role? u = g.role? u := by
  refine role?_update (fun m hm => ?_) u
  obtain rfl : n = m := Option.some.inj (hn.symm.trans hm)
  simp [Node.role, Node.holdsValue, Node.isSink, hp, Kind.holdsValue, Kind.isSink]

/-- Computing nodes changes no part. -/
theorem role?_of_sameDesign (h : SameDesign g g') (t : Tag) : g'.role? t = g.role? t := by
  have hr : Node.role ∘ Node.design = Node.role := by
    funext n
    simp [Node.role, Node.holdsValue, Node.isSink, Node.design]
  simpa only [role?, Option.map_map, hr] using congrArg (Option.map Node.role) (h.node t)

/-- Setting a base value changes no part. -/
theorem role?_setBase {t : Tag} {x : Float} {r : Graph × Bool} (hr : g.setBase t x = .ok r)
    (u : Tag) : r.1.role? u = g.role? u := by
  obtain ⟨n, -, -, -, hr⟩ := setBase_eq_ok hr
  have set : (g.update t fun n => n.setBase x).role? u = g.role? u :=
    role?_update (f := fun n => n.setBase x) (fun _ _ => rfl) u
  rw [hr]
  split <;> exact set

/-- **A node keeps its part until it is removed.** -/
theorem role?_perform {r : Request} {u : Tag} {x : Bool × Bool} (hd : r.dropped? ≠ some u)
    (hg : g.perform r = .ok g') (h : g.role? u = some x) : g'.role? u = some x := by
  have made : ∀ t config, g.make t config = .ok g' → g'.role? u = some x := by
    intro t config hg
    obtain ⟨ht, n, -, rfl⟩ := make_eq_ok.1 hg
    have hu : u ≠ t := by
      rintro rfl
      rw [contains_iff_role?.2 ⟨x, h⟩] at ht
      cases ht
    rw [← h]
    refine role?_of_node? ((OrderedMap.get?_insert g.nodes t u n).trans ?_)
    rw [if_neg hu]
    rfl
  rw [← h]
  cases r with
  | create t config =>
    obtain ⟨c, -, hg⟩ := create_eq_ok.1 hg
    rw [made t c hg, h]
  | make t config => rw [made t config hg, h]
  | connect parent child =>
    obtain ⟨p, c, -, -, -, ⟨-, rfl⟩ | ⟨-, -, rfl⟩⟩ := connect_eq_ok hg
    · rfl
    · exact role?_update (fun n _ => by
        simp [Node.role, Node.holdsValue, Node.isSink, Node.attach]) u
  | disconnect parent child =>
    obtain ⟨p, c, -, -, -, rfl⟩ := disconnect_eq_ok hg
    exact role?_update (fun n _ => by
      simp [Node.role, Node.holdsValue, Node.isSink, Node.forget]) u
  | drop t holders =>
    obtain ⟨r, hr, rfl⟩ := except_map_eq_ok.1 hg
    have hu : u ≠ t := fun hu => hd (congrArg some hu.symm)
    have hforget : Node.role ∘ (fun m => m.forget t) = Node.role := by
      funext m
      simp [Node.role, Node.holdsValue, Node.isSink, Node.forget]
    rw [role?, node?_drop hr, if_neg hu, Option.map_map, hforget]
    rfl
  | setBase t y =>
    obtain ⟨r, hr, rfl⟩ := except_map_eq_ok.1 hg
    exact role?_setBase hr u
  | setOffset t y =>
    obtain ⟨r, hr, rfl⟩ := except_map_eq_ok.1 hg
    obtain ⟨n, -, -, -, hr⟩ := setOffset_eq_ok hr
    have set : (g.update t fun n => n.setOffset y).role? u = g.role? u :=
      role?_update (f := fun n => n.setOffset y) (fun _ _ => rfl) u
    rw [hr]
    split <;> exact set
  | flattenOffset t =>
    obtain ⟨n, -, rfl⟩ := flattenOffset_eq_ok.1 hg
    exact role?_update (f := Node.flattenOffset) (fun _ _ => rfl) u
  | extractOffset t =>
    obtain ⟨n, -, rfl⟩ := extractOffset_eq_ok.1 hg
    exact role?_update (f := Node.extractOffset) (fun _ _ => rfl) u
  | attachView t view =>
    obtain ⟨n, p, hn, hp, ⟨-, rfl⟩ | ⟨-, rfl⟩⟩ := attachView_eq_ok hg
    · rfl
    · exact role?_setProps hn hp _ u
  | detachView t view =>
    obtain ⟨n, p, hn, hp, -, rfl⟩ := detachView_eq_ok hg
    exact role?_setProps hn hp _ u
  | mark t =>
    obtain ⟨n, -, rfl⟩ := mark_eq_ok.1 hg
    rfl
  | applyWrites writes =>
    cases hg
    exact applyWrites_induction (P := fun g' => g'.role? u = g.role? u)
      (fun g' t y r _ h hs => (role?_setBase hs u).trans h) rfl
  | propagate =>
    cases hg
    exact role?_of_sameDesign (sameDesign_propagate g) u
  | takeUpdate t =>
    cases hg
    rcases takeUpdate_cases g t with ⟨he, -⟩ | ⟨n, p, view, hn, hp, -, -, he⟩
    · rw [he]
    · rw [he]
      exact role?_setProps hn hp _ u
  | restoreDefaults t =>
    obtain ⟨r, hr, rfl⟩ := except_map_eq_ok.1 hg
    obtain ⟨n, p, hn, hp, hr, -⟩ := restoreDefaults_eq_ok hr
    rw [hr]
    exact role?_setProps hn hp _ u

/-- Computing a node notes props nodes only. -/
theorem role?_of_mem_sinks_evaluate {t u : Tag} (h : u ∈ (g.evaluate t).2.sinks) :
    ∃ v, g.role? u = some (v, true) := by
  unfold evaluate at h
  split at h
  · cases h
  · next n hn =>
    split at h
    · cases h
    · cases h
    · have noted : u ∈ (if n.kind.isSink then OrderedSet.empty.insert t else ∅) := by
        dsimp only at h
        split at h <;> exact h
      split at noted
      · next hs =>
        obtain rfl : u = t := (OrderedSet.mem_insert.1 noted).resolve_left List.not_mem_nil
        exact ⟨n.holdsValue, by rw [role?, hn, Option.map_some, Node.role, Node.isSink, hs]⟩
      · cases noted

/-- Computing several nodes notes props nodes only. -/
theorem role?_of_mem_sinks_evaluateAll {ts : List Tag} {u : Tag}
    (h : u ∈ (g.evaluateAll ts).2.sinks) : ∃ v, g.role? u = some (v, true) := by
  induction ts generalizing g with
  | nil => cases h
  | cons t ts ih =>
    rcases OrderedSet.mem_insertAll.1 h with h | h
    · exact role?_of_mem_sinks_evaluate h
    · obtain ⟨v, hv⟩ := ih h
      exact ⟨v, role?_of_sameDesign (sameDesign_evaluate g t) u ▸ hv⟩

/-! ### Nodes that stay what they are -/

/-- Nodes keep their parts from one graph to another; new ones may have come. -/
def Steady (g g' : Graph) : Prop := ∀ t x, g.role? t = some x → g'.role? t = some x

namespace Steady

/-- Nodes keep their parts where nothing happens. -/
theorem refl (g : Graph) : Steady g g := fun _ _ => id

/-- Nodes keep their parts from step to step. -/
theorem trans {g'' : Graph} (h : Steady g g') (h' : Steady g' g'') : Steady g g'' :=
  fun t x hx => h' t x (h t x hx)

/-- Nodes keep their parts when no node is removed. -/
theorem perform {r : Request} (hd : r.dropped? = none) (hg : g.perform r = .ok g') : Steady g g' :=
  fun _ _ hx => role?_perform (by simp [hd]) hg hx

/-- What holds a number goes on holding one. -/
theorem holds (h : Steady g g') {t : Tag} (ht : g.holds t = true) : g'.holds t = true := by
  obtain ⟨s, hs⟩ := holds_iff_role?.1 ht
  exact holds_iff_role?.2 ⟨s, h t _ hs⟩

/-- What is there stays there. -/
theorem contains (h : Steady g g') {t : Tag} (ht : g.contains t = true) : g'.contains t = true := by
  obtain ⟨x, hx⟩ := contains_iff_role?.1 ht
  exact contains_iff_role?.2 ⟨x, h t x hx⟩

/-- What hands values to a view goes on doing so. -/
theorem props (h : Steady g g') {t : Tag} (ht : ∃ r, g.props t = .ok r) :
    ∃ r, g'.props t = .ok r := by
  obtain ⟨v, hv⟩ := props_iff_role?.1 ht
  exact props_iff_role?.2 ⟨v, h t _ hv⟩

end Steady

end Graph

end MotionGraph
