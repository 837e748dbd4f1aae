import MotionGraph.Driver.Set
import MotionGraph.Proofs.Ordered.Lookup
import Mathlib.Data.List.Basic

/-!
# Several values for one node

What arbitration keeps of several values: the nodes in the order in which they first occur
(`keys_arbitrate`), for each the value that the policy picks (`get?_arbitrate`), and one conflict
for every value beyond these (`conflicts_arbitrate`). Each is an induction over the values with what
has been kept before them generalised.
-/

namespace MotionGraph

/-- Which of several things, in their order, a policy picks. -/
def Arbitration.pick {β : Type} : Arbitration → List β → Option β
  | .lastWriteWins, l => l.getLast?
  | .firstWriteWins, l => l.head?

/-- Picking does not look at what is picked. -/
theorem Arbitration.pick_map {β γ : Type} (policy : Arbitration) (f : β → γ) (l : List β) :
    policy.pick (l.map f) = (policy.pick l).map f := by
  cases policy
  · exact List.getLast?_map
  · exact List.head?_map

/-- What is picked is one of them. -/
theorem Arbitration.mem_of_pick {β : Type} {policy : Arbitration} {l : List β} {b : β}
    (h : policy.pick l = some b) : b ∈ l := by
  cases policy
  · exact List.mem_of_getLast? h
  · exact List.mem_of_head? h

/-- Of things that are all the same the policies pick the same. -/
theorem Arbitration.pick_eq_of_forall {β : Type} {policy : Arbitration} {l : List β} {b : β}
    (hb : b ∈ l) (h : ∀ c ∈ l, c = b) : policy.pick l = some b := by
  have hl : l ≠ [] := List.ne_nil_of_mem hb
  obtain ⟨c, hc⟩ : ∃ c, policy.pick l = some c := by
    cases policy
    · exact ⟨_, List.getLast?_eq_some_getLast hl⟩
    · exact ⟨_, List.head?_eq_some_head hl⟩
  rw [hc, h c (mem_of_pick hc)]

namespace DriverSet

/-- What is kept when one more value comes for a node that has one. -/
def decided (policy : Arbitration) (kept : OrderedMap Tag Float) (t : Tag) (x : Float) :
    OrderedMap Tag Float :=
  match policy with
  | .lastWriteWins => kept.insert t x
  | .firstWriteWins => kept

section Arbitrate

variable {policy : Arbitration} {kept : OrderedMap Tag Float} {t u : Tag} {x : Float}

/-- One more value for a node that has one is decided about, and counts as a conflict. -/
theorem arbitrate_of_contains (hc : kept.contains t = true) (ws : Writes) :
    arbitrate policy kept ((t, x) :: ws) =
      ((arbitrate policy (decided policy kept t x) ws).1,
        (arbitrate policy (decided policy kept t x) ws).2 + 1) := if_pos hc

/-- The first value for a node is kept. -/
theorem arbitrate_of_not_contains (hc : kept.contains t = false) (ws : Writes) :
    arbitrate policy kept ((t, x) :: ws) = arbitrate policy (kept.insert t x) ws :=
  if_neg (Bool.eq_false_iff.1 hc)

/-- A decision brings no node in. -/
theorem keys_decided (hc : kept.contains t = true) :
    (decided policy kept t x).keys = kept.keys := by
  cases policy
  · exact OrderedMap.keys_insert_of_contains hc
  · rfl

/-- A decision is about one node. -/
theorem get?_decided_of_ne (hu : t ≠ u) : (decided policy kept u x).get? t = kept.get? t := by
  cases policy
  · exact (OrderedMap.get?_insert kept u t x).trans (if_neg hu)
  · rfl

/-- A decision picks the old value or the new one, as the policy does. -/
theorem pick_decided (hc : kept.contains t = true) (xs : List Float) :
    policy.pick (((decided policy kept t x).get? t).toList ++ xs) =
      policy.pick ((kept.get? t).toList ++ x :: xs) := by
  obtain ⟨y, hy⟩ := Option.isSome_iff_exists.1 (OrderedMap.contains_eq_isSome kept t ▸ hc)
  cases policy with
  | lastWriteWins =>
    rw [decided, OrderedMap.get?_insert, if_pos rfl, hy]
    exact List.getLast?_cons_cons.symm
  | firstWriteWins =>
    rw [decided, hy]
    rfl

/-- A new node comes last. -/
theorem keys_insert_new (hc : kept.contains t = false) :
    (kept.insert t x).keys = kept.keys ++ [t] := by
  rw [OrderedMap.keys, OrderedMap.toList_insert_of_not_contains hc, List.map_append]
  rfl

end Arbitrate

/-- The nodes that get a value, in the order in which they first occur. -/
theorem keys_arbitrate (policy : Arbitration) (kept : OrderedMap Tag Float) (ws : Writes) :
    (arbitrate policy kept ws).1.keys =
      kept.keys ++ ((ws.map Prod.fst).filter fun t => t ∉ kept.keys).eraseDups := by
  induction ws generalizing kept with
  | nil => simp [arbitrate]
  | cons w ws ih =>
    obtain ⟨t, x⟩ := w
    rw [List.map_cons]
    cases hc : kept.contains t with
    | true =>
      have ht : t ∈ kept.keys := OrderedMap.contains_iff.1 hc
      rw [arbitrate_of_contains hc, List.filter_cons_of_neg (by simpa using ht)]
      dsimp only
      rw [ih, keys_decided hc]
    | false =>
      have ht : t ∉ kept.keys := fun ht => by
        rw [OrderedMap.contains_iff.2 ht] at hc
        cases hc
      rw [arbitrate_of_not_contains hc, ih, keys_insert_new hc,
        List.filter_cons_of_pos (by simpa using ht), List.eraseDups_cons, List.filter_filter,
        List.append_assoc, List.singleton_append]
      congr 3
      refine List.filter_congr fun u _ => ?_
      rw [Bool.eq_iff_iff]
      simp [and_comm]

/-- Every value is the first one for its node, or a conflict. -/
theorem conflicts_arbitrate (policy : Arbitration) (kept : OrderedMap Tag Float) (ws : Writes) :
    (arbitrate policy kept ws).2 + (arbitrate policy kept ws).1.keys.length =
      kept.keys.length + ws.length := by
  induction ws generalizing kept with
  | nil => simp [arbitrate]
  | cons w ws ih =>
    obtain ⟨t, x⟩ := w
    rw [List.length_cons]
    cases hc : kept.contains t with
    | true =>
      have rest := ih (decided policy kept t x)
      rw [keys_decided hc] at rest
      rw [arbitrate_of_contains hc]
      dsimp only
      omega
    | false =>
      have rest := ih (kept.insert t x)
      rw [keys_insert_new hc, List.length_append, List.length_singleton] at rest
      rw [arbitrate_of_not_contains hc]
      omega

/-- The value kept for a node is picked from the one kept before and those that come for it. -/
theorem get?_arbitrate (policy : Arbitration) (kept : OrderedMap Tag Float) (ws : Writes)
    (t : Tag) :
    (arbitrate policy kept ws).1.get? t =
      policy.pick ((kept.get? t).toList ++ (ws.filter fun w => w.1 = t).map Prod.snd) := by
  induction ws generalizing kept with
  | nil => cases policy <;> cases h : kept.get? t <;> simp [arbitrate, Arbitration.pick, h]
  | cons w ws ih =>
    obtain ⟨u, x⟩ := w
    by_cases hu : t = u
    · subst hu
      rw [List.filter_cons_of_pos (by simp), List.map_cons]
      cases hc : kept.contains t with
      | true =>
        rw [arbitrate_of_contains hc]
        dsimp only
        rw [ih, pick_decided hc]
      | false =>
        have hn : kept.get? t = none := by
          simpa [OrderedMap.contains_eq_isSome] using hc
        rw [arbitrate_of_not_contains hc, ih, OrderedMap.get?_insert, if_pos rfl, hn]
        rfl
    · rw [List.filter_cons_of_neg (by simpa using Ne.symm hu)]
      cases hc : kept.contains u with
      | true =>
        rw [arbitrate_of_contains hc]
        dsimp only
        rw [ih, get?_decided_of_ne hu]
      | false => rw [arbitrate_of_not_contains hc, ih, OrderedMap.get?_insert, if_neg hu]

end DriverSet

end MotionGraph
