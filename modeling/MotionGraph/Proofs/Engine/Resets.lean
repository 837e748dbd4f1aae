import MotionGraph.Proofs.Engine.Remembered

/-!
# What restoring defaults takes back

When the defaults of an attached node are restored, the update that waits for its view takes back
the properties that the node shows and those that the update given last sets, and no others
(`Engine.restored_exactly`). Every property that its view was given since the node was attached or
restored before is thus taken back exactly if what earlier updates set is still shown or was in the
last one. It need not be: a property that the node has lost is forgotten with the next update
(`Engine.prunedRun_forgets`).
-/

namespace MotionGraph

namespace Graph

/-- An attached node is a props node with a view. -/
theorem exists_props_of_isAttached {g : Graph} {t : Tag} (h : g.isAttached t = true) :
    ∃ n p view, g.node? t = some n ∧ n.kind = .props p ∧ p.view = some view := by
  unfold isAttached at h
  split at h
  · next n p hp =>
    obtain ⟨hn, hk⟩ := props_eq_ok.1 hp
    obtain ⟨view, hv⟩ := Option.isSome_iff_exists.1 h
    exact ⟨n, p, view, hn, hk, hv⟩
  · cases h

end Graph

namespace Engine

variable {κ : Type} {e : Engine κ} {h : History} {t : Tag} {n : Node} {p : Props} {view : ViewId}

/-- Restoring the defaults of an attached node is granted, and an update waits for its view. -/
theorem restoreDefaultValues_of_view (hn : e.graph.node? t = some n) (hk : n.kind = .props p)
    (hv : p.view = some view) :
    ∃ e', e.restoreDefaultValues t = .ok e' ∧
      e'.resets = e.resets ++ [⟨view, e.graph.resetMap p⟩] := by
  have hr : e.graph.restoreDefaults t =
      .ok (e.graph.setProps t { p with lastSent := none }, some ⟨view, e.graph.resetMap p⟩) := by
    rw [Graph.restoreDefaults, Graph.props_eq_ok.2 ⟨hn, hk⟩]
    simp [bind, Except.bind, hv]
  refine ⟨_, by rw [restoreDefaultValues, hr], ?_⟩
  exact resets_of_content (content_schedule _)

/-- What an update that waits for an attached node takes back, if nodes remember what
their views were given. -/
theorem Recalls.get?_resetMap (hm : e.Recalls h) (hn : e.graph.node? t = some n)
    (hk : n.kind = .props p) (hv : p.view = some view) (name : String) :
    (e.graph.resetMap p).get? name =
      if (e.graph.propsOf p).contains name || h.shows t name then some .viewDefault else none := by
  rw [Graph.get?_resetMap, hm.shown t n p hn hk (by rw [hv]; rfl)]

/-- **What restoring defaults takes back**: whenever in a run the defaults of an attached node are
restored, at once or from the queue, the update that waits for its view takes back the properties
that the node shows and those that the update given last sets. All that the view was given before is
taken back exactly if what the earlier updates set is among these. -/
theorem restored_exactly (settings : Settings) (host : Host κ)
    (calls : List (Call κ)) (call : Call κ)
    (hmoment : (e, h, .restoreDefaultValues t) ∈
      ((Engine.new settings host).afterAll [] calls).1.momentsOf
        ((Engine.new settings host).afterAll [] calls).2 call)
    (hn : e.graph.node? t = some n) (hk : n.kind = .props p) (hv : p.view = some view) :
    ∃ e' reset, e.restoreDefaultValues t = .ok e' ∧ e'.resets = e.resets ++ [⟨view, reset⟩] ∧
      (∀ name, reset.get? name =
        if (e.graph.propsOf p).contains name || h.shows t name then some .viewDefault else none) ∧
      ((∀ u ∈ h.given t, u.view = view → ∀ name, u.props.sets name = true →
          reset.get? name = some .viewDefault) ↔
        ∀ u ∈ (h.given t).tail, u.view = view → ∀ name, u.props.sets name = true →
          (e.graph.propsOf p).contains name = true ∨ h.shows t name = true) := by
  have hm : e.Recalls h := (recalls_afterAll settings host calls).momentsOf call _ hmoment
  obtain ⟨e', hx, hresets⟩ := restoreDefaultValues_of_view hn hk hv
  have hreset := hm.get?_resetMap hn hk hv
  refine ⟨e', e.graph.resetMap p, hx, hresets, hreset, ?_⟩
  have htaken : ∀ name, (e.graph.resetMap p).get? name = some .viewDefault ↔
      (e.graph.propsOf p).contains name = true ∨ h.shows t name = true := by
    intro name
    rw [hreset, ← Bool.or_eq_true]
    split <;> simp_all
  simp only [htaken]
  constructor
  · exact fun hall u hu => hall u (List.mem_of_mem_tail hu)
  · intro hearlier u hu huv name hset
    cases hg : h.given t with
    | nil =>
      rw [hg] at hu
      exact absurd hu List.not_mem_nil
    | cons last earlier =>
      rw [hg] at hu
      rcases List.mem_cons.1 hu with rfl | hu
      · exact Or.inr (by rw [History.shows, hg]; exact hset)
      · exact hearlier u (by rw [hg]; exact hu) huv name hset

/-- A node shows two values, one of which is removed between two frames. -/
def prunedRun : List (Call Unit) :=
  [.execute (.createNode ⟨1⟩ (.array [.string "value"])),
   .execute (.createNode ⟨2⟩ (.array [.string "value"])),
   .execute (.createNode ⟨3⟩
     (.array [.string "props", .object [("a", .ofNat 1), ("b", .ofNat 2)]])),
   .execute (.connect ⟨3⟩ ⟨1⟩), .execute (.connect ⟨3⟩ ⟨2⟩), .execute (.connectToView ⟨3⟩ ⟨7⟩),
   .frame 16.0, .execute (.dropNode ⟨1⟩), .frame 32.0]

/-- The engine after that run, and its history. -/
def prunedEnd : Engine Unit × History := (Engine.new {} .silent).afterAll [] prunedRun

/-- Restoring takes back the property that is left. -/
theorem prunedRun_restored :
    ∃ n p view e' reset, prunedEnd.1.graph.node? ⟨3⟩ = some n ∧ n.kind = .props p ∧
      p.view = some view ∧ prunedEnd.1.restoreDefaultValues ⟨3⟩ = .ok e' ∧
      e'.resets = prunedEnd.1.resets ++ [⟨view, reset⟩] ∧ reset.get? "b" = some .viewDefault := by
  have hattached : prunedEnd.1.graph.isAttached ⟨3⟩ = true := by decide +kernel
  have hshown : prunedEnd.2.shows ⟨3⟩ "b" = true := by decide +kernel
  obtain ⟨n, p, view, hn, hk, hv⟩ := Graph.exists_props_of_isAttached hattached
  obtain ⟨e', reset, hx, hresets, hreset, -⟩ :=
    restored_exactly {} .silent prunedRun (.execute (.restoreDefaultValues ⟨3⟩))
      (List.mem_singleton.2 rfl) hn hk hv
  refine ⟨n, p, view, e', reset, hn, hk, hv, hx, hresets, ?_⟩
  exact (hreset "b").trans (if_pos (Bool.or_eq_true_iff.2 (Or.inr hshown)))

/-- The view has received another property, too, and restoring does not take it back. -/
theorem prunedRun_forgets :
    (prunedEnd.2.given ⟨3⟩).map (fun u => (u.view, u.props.keys)) =
        [(⟨7⟩, ["b"]), (⟨7⟩, ["a", "b"])] ∧
      (prunedEnd.2.given ⟨3⟩).any (fun u => u.props.sets "a") = true ∧
      (prunedEnd.1.after (.execute (.restoreDefaultValues ⟨3⟩))).resets.map
        (fun u => (u.view, u.props.keys)) = [(⟨7⟩, ["b"])] := by
  decide +kernel

end Engine

end MotionGraph
