import MotionGraph.Event.Router
import MotionGraph.Proofs.Graph.Roles

/-!
# Bindings and the nodes they name

`Router.holds` tells which nodes bindings hand numbers to. A node is named after bindings were
added only if it was named before or by one of them (`Router.holds_add`), and removing bindings
names none (`Router.holds_remove`). While every node named holds a number, an event hands over
all numbers that its bindings find (`Router.written_handle`): none is passed over because its
node could not be written.
-/

namespace MotionGraph

/-- The number of an event that a binding hands over, with the node that receives it. -/
def EventBinding.number? (payload : Json) (b : EventBinding) : Option (Tag × Float) :=
  match b.path.extract payload with
  | .ok x => some (b.target, x)
  | .error _ => none

namespace Router

variable {r : Router} {t : Tag}

/-- A node is named when some binding hands numbers to it. -/
theorem holds_iff :
    r.holds t = true ↔ ∃ key bs, r.bindings.get? key = some bs ∧ ∃ b ∈ bs, b.target = t := by
  simp only [holds, OrderedMap.values, List.any_eq_true, List.mem_map, decide_eq_true_eq]
  constructor
  · rintro ⟨bs, ⟨⟨key, bs'⟩, he, rfl⟩, hb⟩
    exact ⟨key, bs', OrderedMap.get?_eq_some_iff.2 he, hb⟩
  · rintro ⟨key, bs, hg, hb⟩
    exact ⟨bs, ⟨(key, bs), OrderedMap.get?_eq_some_iff.1 hg, rfl⟩, hb⟩

/-- The bindings of an event name their nodes. -/
theorem holds_of_mem_lookup {view : ViewId} {event : String} {b : EventBinding}
    (hb : b ∈ r.lookup view event) : r.holds b.target = true := by
  unfold lookup at hb
  cases hg : r.bindings.get? (r.key view event) with
  | none => simp [hg] at hb
  | some bs =>
    rw [hg] at hb
    exact holds_iff.2 ⟨_, bs, hg, b, hb, rfl⟩

/-- Adding lets new bindings follow, each once, and counts them. -/
theorem addTo_eq (present bs : List EventBinding) :
    addTo present bs =
      (present ++ (bs.filter (· ∉ present)).eraseDups,
        (bs.filter (· ∉ present)).eraseDups.length) := by
  induction bs generalizing present with
  | nil => simp [addTo]
  | cons b bs ih =>
    unfold addTo
    by_cases hb : b ∈ present
    · rw [if_pos (by simpa using hb), ih, List.filter_cons_of_neg (by simpa using hb)]
    · have rest :
          (bs.filter (· ∉ present ++ [b])) = (bs.filter (· ∉ present)).filter (!· == b) := by
        rw [List.filter_filter]
        refine List.filter_congr fun c _ => ?_
        by_cases hc : c = b <;> simp [hc]
      rw [if_neg (by simpa using hb), ih (present ++ [b]), rest,
        List.filter_cons_of_pos (by simpa using hb), List.eraseDups_cons, List.append_assoc]
      rfl

/-- What is added to bindings is among the new ones. -/
theorem mem_addTo {present bs : List EventBinding} {b : EventBinding}
    (h : b ∈ (addTo present bs).1) : b ∈ present ∨ b ∈ bs := by
  rw [addTo_eq, List.mem_append, List.mem_eraseDups] at h
  exact h.imp id List.mem_of_mem_filter

/-- Adding bindings names the nodes of the new ones. -/
theorem holds_add {view : ViewId} {event : String} {bs : List EventBinding}
    (h : (r.add view event bs).1.holds t = true) : r.holds t = true ∨ ∃ b ∈ bs, b.target = t := by
  obtain ⟨key, cs, hg, b, hb, rfl⟩ := holds_iff.1 h
  simp only [add, OrderedMap.get?_insert] at hg
  split at hg
  · cases hg
    rcases mem_addTo hb with hb | hb
    · exact Or.inl (holds_of_mem_lookup hb)
    · exact Or.inr ⟨b, hb, rfl⟩
  · exact Or.inl (holds_iff.2 ⟨key, cs, hg, b, hb, rfl⟩)

/-- What is kept under a key after a removal: of its own key what is left, unless that is
nothing. -/
theorem get?_remove (r : Router) (view : ViewId) (event : String) (t : Tag) (key : EventKey) :
    (r.remove view event t).1.bindings.get? key =
      if key = r.key view event then
        ((r.bindings.get? key).map fun bs => bs.filter fun b => b.target ≠ t).filter (!·.isEmpty)
      else r.bindings.get? key := by
  unfold remove
  dsimp only
  split
  · next absent =>
    split
    · next same => simp [same, absent]
    · rfl
  · next present found =>
    dsimp only
    split
    · next nothing =>
      rw [OrderedMap.get?_erase]
      split
      · next same =>
        rw [same, found, Option.map_some, Option.filter_some, nothing]
        rfl
      · rfl
    · next something =>
      rw [OrderedMap.get?_insert]
      split
      · next same =>
        rw [Bool.not_eq_true] at something
        rw [same, found, Option.map_some, Option.filter_some, something]
        rfl
      · rfl

/-- Removing bindings names no node. -/
theorem holds_remove {view : ViewId} {event : String} {u : Tag}
    (h : (r.remove view event u).1.holds t = true) : r.holds t = true := by
  obtain ⟨key, cs, hg, b, hb, rfl⟩ := holds_iff.1 h
  rw [get?_remove] at hg
  split at hg
  · obtain ⟨present, hp, rfl⟩ := Option.map_eq_some_iff.1 (Option.filter_eq_some_iff.1 hg).1
    exact holds_iff.2 ⟨key, present, hp, b, List.mem_of_mem_filter hb, rfl⟩
  · exact holds_iff.2 ⟨key, cs, hg, b, hb, rfl⟩

/-- An event writes what it lists as written, as expressions do. -/
theorem fst_deliver (key : EventKey) (payload : Json) (g : Graph) (bs : List EventBinding) :
    (deliver key payload g bs).1 = (g.applyWrites (deliver key payload g bs).2.written).1 := by
  induction bs generalizing g with
  | nil => rfl
  | cons b bs ih =>
    unfold deliver
    split
    · exact ih g
    · split
      · next x _ g' changed hs =>
        simp only [Graph.applyWrites, hs]
        exact ih g'
      · exact ih g

/-- Numbers that bindings find are all handed over, if every node named holds a number. -/
theorem written_deliver {key : EventKey} {payload : Json} {g : Graph} {bs : List EventBinding}
    (h : ∀ b ∈ bs, g.holds b.target = true) :
    (deliver key payload g bs).2.written = bs.filterMap (EventBinding.number? payload) := by
  induction bs generalizing g with
  | nil => rfl
  | cons b bs ih =>
    have hrest : ∀ c ∈ bs, g.holds c.target = true := fun c hc => h c (List.mem_cons_of_mem _ hc)
    unfold deliver
    split
    · next cause hx =>
      have silent : EventBinding.number? payload b = none := by rw [EventBinding.number?, hx]
      rw [List.filterMap_cons_none silent]
      exact ih hrest
    · next x hx =>
      have found : EventBinding.number? payload b = some (b.target, x) := by
        rw [EventBinding.number?, hx]
      rw [List.filterMap_cons_some found]
      split
      · next g' changed hs =>
        refine congrArg (List.cons _) (ih fun c hc => ?_)
        have steady : Graph.Steady g g' := .perform (r := .setBase b.target x) rfl
          (except_map_eq_ok.2 ⟨_, hs, rfl⟩)
        exact steady.holds (hrest c hc)
      · next cause hs =>
        obtain ⟨n, hn⟩ := Graph.exists_holder_of_holds (h b List.mem_cons_self)
        rw [Graph.setBase, hn] at hs
        cases hs

/-- An event hands over all numbers that its bindings find, if every node named holds a number. -/
theorem written_handle {g : Graph} (h : ∀ t, r.holds t = true → g.holds t = true) (view : ViewId)
    (event : String) (payload : Json) :
    (r.handle view event payload g).2.written =
      (r.lookup view event).filterMap (EventBinding.number? payload) :=
  written_deliver fun _ hb => h _ (holds_of_mem_lookup hb)

end Router

end MotionGraph
