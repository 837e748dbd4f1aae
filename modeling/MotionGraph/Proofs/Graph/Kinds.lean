import MotionGraph.Proofs.Graph.Evaluation

/-!
# What nodes are made with and keep

Some properties of a kind hold from the making of a node on, because nothing that happens to the
node touches what they are about (`Kind.Lasting`). In every reachable graph all nodes have them
(`Graph.everywhere_afterAll`). That the bounds of diff-clamps are numbers in order is one of them
(`Kind.lasting_bounded`).
-/

namespace MotionGraph

namespace Kind

/-- A property of kinds that every new node has and that taking and losing inputs, computing, and
what views receive leave to it. -/
structure Lasting (K : Kind → Prop) : Prop where
  made : ∀ config t n, NodeConfig.build t config = .ok n → K n.kind
  attach : ∀ k child, K k → K (k.attach child)
  forget : ∀ k child, K k → K (k.forget child)
  plan : ∀ k, K k.plan ↔ K k
  props : ∀ p q, q.sources = p.sources → K (.props p) → K (.props q)

/-- The bounds of a diff-clamp are numbers in order. -/
def Bounded : Kind → Prop
  | .diffClamp _ clamp => DiffClamp.areBounds clamp.low clamp.high = true
  | _ => True

/-- Diff-clamps are made with bounds in order, and keep their bounds. -/
theorem lasting_bounded : Lasting Bounded where
  made config t n h := by
    cases config with
    | diffClamp input low high =>
      simp only [NodeConfig.build] at h
      split at h <;> cases h
      assumption
    | transform entries =>
      simp only [NodeConfig.build] at h
      cases hm : entries.mapM TransformConfig.build <;> rw [hm] at h <;> cases h
      trivial
    | interpolation input inputs outputs both left right =>
      simp only [NodeConfig.build] at h
      split at h <;> cases h
      trivial
    | tracking animation followed follower template =>
      simp only [NodeConfig.build] at h
      split at h <;> cases h
      trivial
    | proc callee args params =>
      simp only [NodeConfig.build] at h
      split at h <;> cases h
      trivial
    | _ =>
      cases h
      trivial
  attach k child h := by
    fun_cases Kind.attach child k <;> exact h
  forget k child h := by
    fun_cases Kind.forget child k <;> exact h
  plan k := by cases k <;> rfl
  props p q _ _ := trivial

end Kind

namespace Graph

/-- Whether the kinds of all nodes have a property. -/
def Everywhere (K : Kind → Prop) (g : Graph) : Prop := ∀ t n, g.node? t = some n → K n.kind

namespace Everywhere

variable {K : Kind → Prop} {g g' : Graph}

/-- Rewriting a node so that it keeps the property. -/
theorem update (h : Everywhere K g) (t : Tag) {f : Node → Node}
    (hf : ∀ n, g.node? t = some n → K n.kind → K (f n).kind) : Everywhere K (g.update t f) := by
  intro u n' hn'
  rw [node?_update] at hn'
  split at hn'
  · next hu =>
    subst hu
    obtain ⟨n, hn, rfl⟩ := Option.map_eq_some_iff.1 hn'
    exact hf n hn (h u n hn)
  · exact h u n' hn'

variable (hK : Kind.Lasting K)

include hK

/-- What is kept about a props node may change. -/
theorem setProps (h : Everywhere K g) {t : Tag} {n : Node} {p q : Props} (hn : g.node? t = some n)
    (hp : n.kind = .props p) (hq : q.sources = p.sources) : Everywhere K (g.setProps t q) := by
  refine h.update t fun m hm hk => ?_
  obtain rfl : n = m := Option.some.inj (hn.symm.trans hm)
  rw [hp] at hk
  exact hK.props p q hq hk

/-- Base values and memories may change. -/
theorem of_sameDesign (h : Everywhere K g) (hd : SameDesign g g') : Everywhere K g' := by
  intro t n' hn'
  obtain ⟨n, hn, hnd⟩ := hd.exists_node? hn'
  have hk : n'.kind.plan = n.kind.plan := congrArg Node.kind hnd
  rw [← hK.plan, hk, hK.plan]
  exact h t n hn

/-- New nodes have what all are made with. -/
theorem make (h : Everywhere K g) {t : Tag} {config : NodeConfig} (hg : g.make t config = .ok g') :
    Everywhere K g' := by
  obtain ⟨-, n, hb, rfl⟩ := make_eq_ok.1 hg
  intro u m hm
  rw [node?, OrderedMap.get?_insert] at hm
  split at hm
  · obtain rfl : n = m := Option.some.inj hm
    exact hK.made config t n hb
  · exact h u m hm

/-- What is left of a graph when a node is removed keeps the property. -/
theorem drop (h : Everywhere K g) {t : Tag} {holders : List Holder} {r : Graph × Node}
    (hr : g.drop t holders = .ok r) : Everywhere K r.1 := by
  intro u m hm
  rw [node?_drop hr] at hm
  split at hm
  · cases hm
  · obtain ⟨n, hn, rfl⟩ := Option.map_eq_some_iff.1 hm
    exact hK.forget n.kind t (h u n hn)

omit hK in
/-- Setting a base value keeps all kinds. -/
theorem setBase (h : Everywhere K g) {t : Tag} {x : Float} {r : Graph × Bool}
    (hr : g.setBase t x = .ok r) : Everywhere K r.1 := by
  obtain ⟨n, -, -, -, hr⟩ := setBase_eq_ok hr
  have hu : Everywhere K (g.update t fun n => n.setBase x) := h.update t fun _ _ hk => hk
  rw [hr]
  split <;> exact hu

/-- What a granted request keeps. -/
theorem perform (h : Everywhere K g) {r : Request} (hg : g.perform r = .ok g') :
    Everywhere K g' := by
  cases r with
  | create t config =>
    obtain ⟨c, -, hg⟩ := create_eq_ok.1 hg
    exact h.make hK hg
  | make t config => exact h.make hK hg
  | connect parent child =>
    obtain ⟨-, -, -, -, -, ⟨-, rfl⟩ | ⟨-, -, rfl⟩⟩ := connect_eq_ok hg
    · exact h
    · exact h.update parent fun n _ hk => hK.attach n.kind child hk
  | disconnect parent child =>
    obtain ⟨-, -, -, -, -, rfl⟩ := disconnect_eq_ok hg
    exact h.update parent fun n _ hk => hK.forget n.kind child hk
  | drop t holders =>
    obtain ⟨r, hr, rfl⟩ := except_map_eq_ok.1 hg
    exact h.drop hK hr
  | setBase t x =>
    obtain ⟨r, hr, rfl⟩ := except_map_eq_ok.1 hg
    exact h.setBase hr
  | setOffset t x =>
    obtain ⟨r, hr, rfl⟩ := except_map_eq_ok.1 hg
    obtain ⟨n, -, -, -, hr⟩ := setOffset_eq_ok hr
    have hu : Everywhere K (g.update t fun n => n.setOffset x) := h.update t fun _ _ hk => hk
    rw [hr]
    split <;> exact hu
  | flattenOffset t =>
    obtain ⟨n, -, rfl⟩ := flattenOffset_eq_ok.1 hg
    exact h.update t fun _ _ hk => hk
  | extractOffset t =>
    obtain ⟨n, -, rfl⟩ := extractOffset_eq_ok.1 hg
    exact h.update t fun _ _ hk => hk
  | attachView t view =>
    obtain ⟨n, p, hn, hp, ⟨-, rfl⟩ | ⟨-, rfl⟩⟩ := attachView_eq_ok hg
    · exact h
    · exact h.setProps hK hn hp rfl
  | detachView t view =>
    obtain ⟨n, p, hn, hp, -, rfl⟩ := detachView_eq_ok hg
    exact h.setProps hK hn hp rfl
  | mark t =>
    obtain ⟨n, -, rfl⟩ := mark_eq_ok.1 hg
    exact h
  | applyWrites writes =>
    cases hg
    exact applyWrites_induction (P := Everywhere K) (fun _ _ _ _ _ h hs => h.setBase hs) h
  | propagate =>
    cases hg
    exact of_sameDesign (g := { g with marked := ∅ }) hK h (sameDesign_propagate g)
  | takeUpdate t =>
    cases hg
    rcases takeUpdate_cases g t with ⟨he, -⟩ | ⟨n, p, view, hn, hp, -, -, he⟩
    · rw [he]
      exact h
    · rw [he]
      exact h.setProps hK hn hp rfl
  | restoreDefaults t =>
    obtain ⟨r, hr, rfl⟩ := except_map_eq_ok.1 hg
    obtain ⟨n, p, hn, hp, hr, -⟩ := restoreDefaults_eq_ok hr
    rw [hr]
    exact h.setProps hK hn hp rfl

/-- What a run keeps. -/
theorem afterAll (h : Everywhere K g) (rs : List Request) : Everywhere K (g.afterAll rs) := by
  induction rs generalizing g with
  | nil => exact h
  | cons r rs ih =>
    refine ih (g := g.after r) ?_
    unfold Graph.after
    split
    · next hg => exact h.perform hK hg
    · exact h

end Everywhere

/-- **What all nodes are made with and keep, all nodes of a reachable graph have.** -/
theorem everywhere_afterAll {K : Kind → Prop} (hK : Kind.Lasting K) (rs : List Request) :
    Everywhere K (empty.afterAll rs) :=
  Everywhere.afterAll hK (fun _ _ h => by cases h) rs

end Graph

end MotionGraph
