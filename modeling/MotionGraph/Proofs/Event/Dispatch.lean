import MotionGraph.Proofs.Driver.Frame
import MotionGraph.Proofs.Event.Multimap
import MotionGraph.Proofs.Event.Path

/-!
# What an event does to the nodes bound to it

A binding either finds a number in an event, if its path leads to one (`Json.Leads`), or it is
reported. The bindings of an event are gone through in order and do not hear of each other: those
that find nothing might as well not be there (`Router.deliver_filter`). So an event does to the
graph what writing the numbers found does, and tells of each binding once
(`Router.handle_isolates`).
-/

namespace MotionGraph

/-! ### Bindings -/

namespace EventBinding

/-- What is reported of a binding, if it finds no number. -/
def error? (key : EventKey) (payload : Json) (b : EventBinding) : Option PayloadError :=
  match b.path.extract payload with
  | .ok _ => none
  | .error cause => some ⟨key.view, key.event, b.path, b.target, cause⟩

/-- Whether a binding finds a number. -/
def succeeds (payload : Json) (b : EventBinding) : Bool := (b.number? payload).isSome

/-- **A binding finds the number that its path leads to, or it is reported**, and not both. -/
theorem number?_or_error? (key : EventKey) (payload : Json) (b : EventBinding) :
    (∃ n, payload.Leads b.path.segments (.number n) ∧
        b.number? payload = some (b.target, n.toFloat) ∧ b.error? key payload = none) ∨
      (∀ n, ¬payload.Leads b.path.segments (.number n)) ∧ b.number? payload = none ∧
        ∃ cause, b.error? key payload = some ⟨key.view, key.event, b.path, b.target, cause⟩ := by
  unfold number? error?
  cases hx : b.path.extract payload with
  | ok x =>
    obtain ⟨n, hn, rfl⟩ := EventPath.extract_eq_ok.1 hx
    exact .inl ⟨n, hn, rfl, rfl⟩
  | error cause =>
    refine .inr ⟨fun n hn => ?_, rfl, cause, rfl⟩
    rw [EventPath.extract_eq_ok.2 ⟨n, hn, rfl⟩] at hx
    cases hx

/-- Every binding is either heard or reported. -/
theorem length_number?_add_error? (key : EventKey) (payload : Json) (bs : List EventBinding) :
    (bs.filterMap (number? payload)).length + (bs.filterMap (error? key payload)).length =
      bs.length := by
  induction bs with
  | nil => rfl
  | cons b bs ih =>
    rcases number?_or_error? key payload b with ⟨n, -, hn, he⟩ | ⟨-, hn, cause, he⟩
    · rw [List.filterMap_cons_some hn, List.filterMap_cons_none he, List.length_cons,
        List.length_cons]
      omega
    · rw [List.filterMap_cons_none hn, List.filterMap_cons_some he, List.length_cons,
        List.length_cons]
      omega

end EventBinding

namespace Router

/-! ### Going through bindings -/

/-- The bindings that find no number are reported, in their order. -/
theorem errors_deliver (key : EventKey) (payload : Json) (g : Graph) (bs : List EventBinding) :
    (deliver key payload g bs).2.errors = bs.filterMap (EventBinding.error? key payload) := by
  induction bs generalizing g with
  | nil => rfl
  | cons b bs ih =>
    unfold deliver
    split
    · next cause hx =>
      have told : b.error? key payload = some ⟨key.view, key.event, b.path, b.target, cause⟩ := by
        rw [EventBinding.error?, hx]
      rw [List.filterMap_cons_some told]
      exact congrArg (List.cons _) (ih g)
    · next x hx =>
      have silent : b.error? key payload = none := by rw [EventBinding.error?, hx]
      rw [List.filterMap_cons_none silent]
      split
      · exact ih _
      · exact ih g

/-- **Bindings that find no number do nothing else**: without them the same is written. -/
theorem deliver_filter (key other : EventKey) (payload : Json) (g : Graph)
    (bs : List EventBinding) :
    deliver other payload g (bs.filter (EventBinding.succeeds payload)) =
      ((deliver key payload g bs).1, { written := (deliver key payload g bs).2.written }) := by
  induction bs generalizing g with
  | nil => rfl
  | cons b bs ih =>
    cases hx : b.path.extract payload with
    | error cause =>
      have fails : ¬b.succeeds payload = true := by
        simp [EventBinding.succeeds, EventBinding.number?, hx]
      rw [List.filter_cons_of_neg fails, ih g]
      simp only [deliver, hx]
    | ok x =>
      have works : b.succeeds payload = true := by
        simp [EventBinding.succeeds, EventBinding.number?, hx]
      rw [List.filter_cons_of_pos works]
      cases hs : g.setBase b.target x with
      | error cause => simp only [deliver, hx, hs, ih g]
      | ok r => simp only [deliver, hx, hs, ih r.1]

/-! ### Bindings that are never made -/

/-- A call that makes only some of the bindings that it is to make for an event. -/
def Call.only (keep : EventBinding → Bool) (normalizes : Bool) (view : ViewId) (event : String) :
    Call → Call
  | .add v e bs => .add v e (if v = view ∧ SameEvent normalizes e event then bs.filter keep else bs)
  | .remove v e t => .remove v e t

/-- Calls that make only some of the bindings leave some of them. -/
theorem surviving_only (keep : EventBinding → Bool) (normalizes : Bool) (view : ViewId)
    (event : String) (calls : List Call) :
    surviving normalizes view event (calls.map (Call.only keep normalizes view event)) =
      (surviving normalizes view event calls).filter keep := by
  have removes : ∀ (c : Call) t,
      (c.only keep normalizes view event).removes normalizes view event t =
        c.removes normalizes view event t := fun c t => by cases c <;> rfl
  have adds : ∀ c : Call, (c.only keep normalizes view event).adds normalizes view event =
      (c.adds normalizes view event).filter keep := fun c => by
    cases c with
    | add v e bs =>
      rw [Call.only, Call.adds, Call.adds]
      split <;> rfl
    | remove v e t => rfl
  induction calls with
  | nil => rfl
  | cons c calls ih =>
    rw [List.map_cons, surviving, surviving, ih, adds, List.filter_append, List.filter_comm]
    simp only [List.any_map, Function.comp_def, removes]

/-- Calls that make only some of the bindings let these be found. -/
theorem lookup_only (keep : EventBinding → Bool) (normalizes : Bool) (view : ViewId)
    (event : String) (calls : List Call) :
    ((empty normalizes).afterAll
        (calls.map (Call.only keep normalizes view event))).lookup view event =
      (((empty normalizes).afterAll calls).lookup view event).filter keep := by
  rw [((reflects_empty normalizes).afterAll _).lookup,
    ((reflects_empty normalizes).afterAll _).lookup,
    List.nil_append, List.nil_append, surviving_only, filter_eraseDups]

/-! ### Events -/

/-- An event does to the graph what writing its numbers does. -/
theorem fst_handle (r : Router) (view : ViewId) (event : String) (payload : Json) (g : Graph) :
    (r.handle view event payload g).1 =
      (g.applyWrites (r.handle view event payload g).2.written).1 :=
  fst_deliver _ payload g _

section Handle

variable {r : Router} {g : Graph} (live : ∀ t, r.holds t = true → g.holds t = true) (view : ViewId)
  (event : String) (payload : Json)

include live

/-- An event writes nodes that hold numbers. -/
theorem holds_of_mem_written {u : Tag} {x : Float}
    (h : (u, x) ∈ (r.handle view event payload g).2.written) : g.holds u = true := by
  rw [written_handle live] at h
  obtain ⟨b, hb, hx⟩ := List.mem_filterMap.1 h
  have target : b.target = u := by
    rcases EventBinding.number?_or_error? (r.key view event) payload b with
      ⟨n, -, hn, -⟩ | ⟨-, hn, -⟩
    · exact congrArg Prod.fst (Option.some.inj (hn.symm.trans hx))
    · rw [hn] at hx
      cases hx
  exact target ▸ live _ (holds_of_mem_lookup hb)

/-- After an event every node has the number written last as its base value. -/
theorem node?_handle (u : Tag) :
    (r.handle view event payload g).1.node? u = (g.node? u).map fun n =>
      n.setBase (((r.handle view event payload g).2.written.latest? u).getD n.base) := by
  rw [fst_handle, Graph.node?_applyWrites]
  refine congrArg (Option.map · (g.node? u)) (funext fun n => ?_)
  cases hl : (r.handle view event payload g).2.written.latest? u with
  | none => split <;> rfl
  | some x => rw [if_pos (holds_of_mem_written live view event payload (Writes.mem_of_latest? hl))]

/-- An event marks the nodes that one of its numbers changes. -/
theorem mem_marked_handle (u : Tag) :
    u ∈ (r.handle view event payload g).1.marked ↔ u ∈ g.marked ∨
      ∃ (n : Node) (before : Writes) (x : Float) (after : Writes), g.node? u = some n ∧
        (r.handle view event payload g).2.written = before ++ (u, x) :: after ∧
          Double.same ((before.latest? u).getD n.base) x = false := by
  rw [fst_handle, Graph.mem_marked_applyWrites]
  refine or_congr_right ⟨?_, ?_⟩
  · rintro ⟨n, before, x, after, hn, -, hs, hc⟩
    exact ⟨n, before, x, after, hn, hs, hc⟩
  · rintro ⟨n, before, x, after, hn, hs, hc⟩
    have wrote : (u, x) ∈ (r.handle view event payload g).2.written := by simp [hs]
    have named := holds_of_mem_written live view event payload wrote
    have hv : n.holdsValue = true := by
      rw [Graph.holds, hn] at named
      exact named
    exact ⟨n, before, x, after, hn, hv, hs, hc⟩

end Handle

/-- **The bindings of an event do not hear of each other**, while every node named holds a number.
In their order each one that leads to a number is written, and each other one is reported, so that
every binding is told of once. What is written and what becomes of the graph is the same without the
others, and the same as if they had never been made.

Every node has the number written last as its base value and is as before otherwise, the nodes and
edges are the same, and those nodes are marked besides that one of the writes changed. -/
theorem handle_isolates (r : Router) {g : Graph} (live : ∀ t, r.holds t = true → g.holds t = true)
    (view : ViewId) (event : String) (payload : Json) :
    let bs := r.lookup view event
    let g' := (r.handle view event payload g).1
    let d := (r.handle view event payload g).2
    d.written = bs.filterMap (EventBinding.number? payload) ∧
      d.errors = bs.filterMap (EventBinding.error? (r.key view event) payload) ∧
      (∀ b : EventBinding,
        (∃ n, payload.Leads b.path.segments (.number n) ∧
            b.number? payload = some (b.target, n.toFloat) ∧
            b.error? (r.key view event) payload = none) ∨
          (∀ n, ¬payload.Leads b.path.segments (.number n)) ∧ b.number? payload = none ∧
            ∃ cause, b.error? (r.key view event) payload =
              some ⟨view, (r.key view event).event, b.path, b.target, cause⟩) ∧
      d.written.length + d.errors.length = bs.length ∧
      (∀ r' : Router, r'.lookup view event = bs.filter (EventBinding.succeeds payload) →
        r'.handle view event payload g = (g', { written := d.written })) ∧
      (∀ normalizes calls, r = (empty normalizes).afterAll calls →
        ((empty normalizes).afterAll
            (calls.map (Call.only (EventBinding.succeeds payload) normalizes view event))).handle
          view event payload g = (g', { written := d.written })) ∧
      (∀ u, g'.node? u = (g.node? u).map fun n => n.setBase ((d.written.latest? u).getD n.base)) ∧
      g'.nodes.keys = g.nodes.keys ∧ g'.edges = g.edges ∧
      ∀ u, u ∈ g'.marked ↔ u ∈ g.marked ∨
        ∃ (n : Node) (before : Writes) (x : Float) (after : Writes), g.node? u = some n ∧
          d.written = before ++ (u, x) :: after ∧
          Double.same ((before.latest? u).getD n.base) x = false := by
  intro bs g' d
  have written : d.written = bs.filterMap (EventBinding.number? payload) :=
    written_handle live view event payload
  have errors : d.errors = bs.filterMap (EventBinding.error? (r.key view event) payload) :=
    errors_deliver _ payload g bs
  have without : ∀ r' : Router, r'.lookup view event = bs.filter (EventBinding.succeeds payload) →
      r'.handle view event payload g = (g', { written := d.written }) := fun r' hr => by
    rw [handle, hr]
    exact deliver_filter _ _ payload g bs
  refine ⟨written, errors, EventBinding.number?_or_error? _ payload, ?_, without, ?_,
    node?_handle live view event payload, ?_, ?_, mem_marked_handle live view event payload⟩
  · rw [written, errors]
    exact EventBinding.length_number?_add_error? _ payload bs
  · rintro normalizes calls rfl
    exact without _ (lookup_only _ normalizes view event calls)
  · exact (congrArg (fun g => g.nodes.keys) (fst_handle r view event payload g)).trans
      (Graph.keys_applyWrites g d.written)
  · exact (congrArg Graph.edges (fst_handle r view event payload g)).trans
      (Graph.edges_applyWrites g d.written)

/-- A node is bound twice to one event, under both spellings, and another one to a number that never
comes. -/
def scrollCalls : List Call :=
  [.add ⟨7⟩ "onScroll" [⟨⟨["x"]⟩, ⟨1⟩⟩, ⟨⟨["z"]⟩, ⟨2⟩⟩], .add ⟨7⟩ "topScroll" [⟨⟨["y", "0"]⟩, ⟨1⟩⟩]]

/-- The two nodes. -/
def scrollGraph : Graph :=
  Graph.empty.afterAll [.make ⟨1⟩ (.value 0.0 0.0), .make ⟨2⟩ (.value 0.0 0.0)]

/-- What comes with the event. -/
def scroll : Json := .object [("x", .number (.real 3.0)), ("y", .array [.number (.real 0.0)])]

/-- One node is written twice, which leads back to its value and marks it all the same; of the other
one it is told that there is no number. -/
theorem scroll_isolates :
    let r := (empty true).afterAll scrollCalls
    let handled := r.handle ⟨7⟩ "onScroll" scroll scrollGraph
    handled.2.written = [(⟨1⟩, 3.0), (⟨1⟩, 0.0)] ∧
      handled.2.errors.map (fun e => (e.event, e.target)) = [("topScroll", ⟨2⟩)] ∧
      ((empty true).afterAll [.add ⟨7⟩ "onScroll" [⟨⟨["x"]⟩, ⟨1⟩⟩],
          .add ⟨7⟩ "topScroll" [⟨⟨["y", "0"]⟩, ⟨1⟩⟩]]).handle ⟨7⟩ "onScroll" scroll scrollGraph =
        (handled.1, { written := handled.2.written }) ∧
      (handled.1.node? ⟨1⟩).map Node.base = some 0.0 ∧ handled.1.marked.toList = [⟨1⟩] := by
  intro r handled
  have live : ∀ t, r.holds t = true → scrollGraph.holds t = true := fun t ht => by
    have all :
        r.bindings.values.all (fun bs => bs.all fun b => scrollGraph.holds b.target) = true := by
      decide +kernel
    obtain ⟨bs, hbs, h⟩ := List.any_eq_true.1 ht
    obtain ⟨b, hb, target⟩ := List.any_eq_true.1 h
    exact of_decide_eq_true target ▸ List.all_eq_true.1 (List.all_eq_true.1 all bs hbs) b hb
  obtain ⟨written, errors, -, -, without, -, nodes, -⟩ :=
    handle_isolates r live ⟨7⟩ "onScroll" scroll
  refine ⟨?_, ?_, without _ ?_, ?_, ?_⟩
  · rw [written]
    decide +kernel
  · rw [errors]
    decide +kernel
  · decide +kernel
  · rw [nodes ⟨1⟩]
    decide +kernel
  · decide +kernel

end Router

end MotionGraph
