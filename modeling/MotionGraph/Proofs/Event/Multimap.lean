import Mathlib.Algebra.GroupWithZero.Nat
import MotionGraph.Proofs.Event.Bindings

/-!
# Bindings as calls leave them

Calls add bindings and remove them (`Router.Call`). Two names stand for the same event if they are
equal or, where names are normalized, are spelled with `on` and `top` (`SameEvent`); bindings are
kept under the same key exactly then (`Router.key_eq_key_iff`).

What calls leave for an event is what they added for it and did not remove later
(`Router.surviving`), each binding once, in the order in which they came
(`Router.multimap_afterAll`).
-/

namespace MotionGraph

/-! ### Names of events -/

/-- Two spellings of one event: `on` and `top` before the same rest, which begins
with a capital letter. -/
def Respelled (e f : String) : Prop :=
  ∃ rest : String, rest.toList.head?.any Char.isUpper = true ∧ e = "on" ++ rest ∧ f = "top" ++ rest

/-- Whether two names stand for the same event. -/
def SameEvent (normalizes : Bool) (e f : String) : Prop :=
  e = f ∨ normalizes = true ∧ (Respelled e f ∨ Respelled f e)

variable {e f g : String}

/-- What is spelled with `on` is kept under `top`. -/
theorem Respelled.normalizeEvent_left (h : Respelled e f) : normalizeEvent e = f := by
  obtain ⟨rest, capital, rfl, rfl⟩ := h
  obtain ⟨c, cs, hr⟩ : ∃ c cs, rest.toList = c :: cs := by
    cases hr : rest.toList with
    | nil => simp [hr] at capital
    | cons c cs => exact ⟨c, cs, rfl⟩
  have upper : c.isUpper = true := by simpa [hr] using capital
  have spelled : ("on" ++ rest).toList = 'o' :: 'n' :: c :: cs := by simp [hr]
  have whole : String.ofList (c :: cs) = rest := by rw [← hr, String.ofList_toList]
  simp only [normalizeEvent, spelled, upper, if_true, whole]

/-- What is spelled with `top` is kept as it is. -/
theorem Respelled.normalizeEvent_right (h : Respelled e f) : normalizeEvent f = f := by
  obtain ⟨rest, -, -, rfl⟩ := h
  have spelled : ("top" ++ rest).toList = 't' :: 'o' :: 'p' :: rest.toList := by simp
  simp [normalizeEvent, spelled]

/-- A name is kept under another spelling, or as it is. -/
theorem respelled_or_eq (e : String) : Respelled e (normalizeEvent e) ∨ normalizeEvent e = e := by
  unfold normalizeEvent
  split
  · next c cs he =>
    split
    · next upper =>
      refine .inl ⟨String.ofList (c :: cs), by simpa using upper, ?_, rfl⟩
      rw [← String.toList_inj, he]
      simp
    · exact .inr rfl
  · exact .inr rfl

/-- **Names are kept alike if they are equal or spellings of one event.** -/
theorem normalizeEvent_eq_iff :
    normalizeEvent e = normalizeEvent f ↔ e = f ∨ Respelled e f ∨ Respelled f e := by
  constructor
  · intro h
    rcases respelled_or_eq e with he | he <;> rcases respelled_or_eq f with hf | hf
    · obtain ⟨rest, -, rfl, hrest⟩ := he
      obtain ⟨rest', -, rfl, hrest'⟩ := hf
      left
      have same : "top" ++ rest = "top" ++ rest' := by rw [← hrest, ← hrest', h]
      rw [← String.toList_inj] at same ⊢
      simpa using same
    · exact .inr (.inl (by rwa [h, hf] at he))
    · exact .inr (.inr (by rwa [← h, he] at hf))
    · exact .inl (he ▸ hf ▸ h)
  · rintro (rfl | h | h)
    · rfl
    · rw [h.normalizeEvent_left, h.normalizeEvent_right]
    · rw [h.normalizeEvent_left, h.normalizeEvent_right]

/-- What a name is kept under is kept as it is. -/
theorem normalizeEvent_normalizeEvent (e : String) :
    normalizeEvent (normalizeEvent e) = normalizeEvent e := by
  rcases respelled_or_eq e with h | h
  · exact h.normalizeEvent_right
  · rw [h, h]

instance (normalizes : Bool) (e f : String) : Decidable (SameEvent normalizes e f) :=
  match normalizes with
  | false => decidable_of_iff (e = f) (by simp [SameEvent])
  | true =>
    decidable_of_iff (normalizeEvent e = normalizeEvent f)
      (by simp [SameEvent, normalizeEvent_eq_iff])

/-! ### What is kept once -/

/-- Choosing from what is listed once lists once what is chosen. -/
theorem filter_eraseDups {α : Type} [BEq α] [LawfulBEq α] (p : α → Bool) (l : List α) :
    l.eraseDups.filter p = (l.filter p).eraseDups := by
  match l with
  | [] => rfl
  | a :: l =>
    rw [List.eraseDups_cons]
    cases hp : p a with
    | true =>
      rw [List.filter_cons_of_pos hp, List.filter_cons_of_pos hp, List.eraseDups_cons,
        filter_eraseDups, List.filter_comm]
    | false =>
      -- nothing chosen is equal to `a`
      have other : (l.filter fun b => !b == a).filter p = l.filter p := by
        rw [List.filter_filter]
        refine List.filter_congr fun b _ => ?_
        cases hb : p b with
        | false => rfl
        | true =>
          have hne : b ≠ a := fun h => by
            rw [h, hp] at hb
            cases hb
          simp [hne]
      rw [List.filter_cons_of_neg (by simp [hp]), List.filter_cons_of_neg (by simp [hp]),
        filter_eraseDups, other]
termination_by l.length
decreasing_by all_goals exact Nat.lt_succ_of_le (List.length_filter_le _ _)

namespace Router

variable {r : Router}

/-! ### Keys -/

/-- **Bindings are kept under one key** if view and event are the same. -/
theorem key_eq_key_iff {v view : ViewId} :
    r.key v e = r.key view f ↔ v = view ∧ SameEvent r.normalizes e f := by
  unfold key SameEvent
  cases r.normalizes with
  | false => simp
  | true => simp [normalizeEvent_eq_iff]

/-- What a key says is kept under this key. -/
theorem key_key (r : Router) (view : ViewId) (event : String) :
    r.key (r.key view event).view (r.key view event).event = r.key view event := by
  unfold key
  cases r.normalizes with
  | false => rfl
  | true => simp [normalizeEvent_normalizeEvent]

/-! ### Calls -/

/-- What changes bindings. -/
inductive Call where
  | add (view : ViewId) (event : String) (bs : List EventBinding)
  | remove (view : ViewId) (event : String) (t : Tag)

/-- The bindings after a call. -/
def after (r : Router) : Call → Router
  | .add view event bs => (r.add view event bs).1
  | .remove view event t => (r.remove view event t).1

/-- The bindings after several calls. -/
def afterAll (r : Router) (calls : List Call) : Router := calls.foldl after r

/-- A router without bindings. -/
def empty (normalizes : Bool) : Router := { normalizes }

/-- What a call adds for an event. -/
def Call.adds (normalizes : Bool) (view : ViewId) (event : String) : Call → List EventBinding
  | .add v e bs => if v = view ∧ SameEvent normalizes e event then bs else []
  | .remove _ _ _ => []

/-- Whether a call removes what hands numbers of an event to a node. -/
def Call.removes (normalizes : Bool) (view : ViewId) (event : String) (t : Tag) : Call → Bool
  | .add _ _ _ => false
  | .remove v e u => (v = view ∧ SameEvent normalizes e event) ∧ u = t

/-- What calls add for an event and no later call removes, as often as it is added. -/
def surviving (normalizes : Bool) (view : ViewId) (event : String) : List Call → List EventBinding
  | [] => []
  | c :: later =>
    (c.adds normalizes view event).filter
        (fun b => !later.any (Call.removes normalizes view event b.target)) ++
      surviving normalizes view event later

/-- One call more. -/
theorem surviving_concat (normalizes : Bool) (view : ViewId) (event : String) (calls : List Call)
    (c : Call) :
    surviving normalizes view event (calls ++ [c]) =
      (surviving normalizes view event calls).filter
          (fun b => !c.removes normalizes view event b.target) ++ c.adds normalizes view event := by
  induction calls with
  | nil => simp [surviving]
  | cons d calls ih =>
    -- the new call is a later one for what `d` adds, too
    rw [List.cons_append, surviving, ih, surviving, List.filter_append, List.filter_filter,
      List.append_assoc]
    congr 1
    refine List.filter_congr fun b _ => ?_
    rw [List.any_append, Bool.not_or, Bool.and_comm]
    simp

/-! ### What one call does -/

variable {v view : ViewId} {event : String}

/-- A call leaves which names are the same. -/
@[simp] theorem normalizes_after (r : Router) (c : Call) :
    (r.after c).normalizes = r.normalizes := by
  cases c with
  | add v e bs => rfl
  | remove v e t =>
    unfold after remove
    dsimp only
    split <;> rfl

/-- A call leaves what bindings are kept by. -/
theorem key_after (r : Router) (c : Call) (view : ViewId) (event : String) :
    (r.after c).key view event = r.key view event := by
  rw [key, key, normalizes_after]

/-- Adding bindings lets the new ones follow those of the event and of no other. -/
theorem lookup_add (r : Router) (v : ViewId) (e : String) (bs : List EventBinding) (view : ViewId)
    (event : String) :
    (r.add v e bs).1.lookup view event =
      if v = view ∧ SameEvent r.normalizes e event then (addTo (r.lookup view event) bs).1
      else r.lookup view event := by
  show ((r.bindings.insert (r.key v e) (addTo (r.lookup v e) bs).1).get?
    (r.key view event)).getD [] = _
  rw [OrderedMap.get?_insert]
  by_cases same : v = view ∧ SameEvent r.normalizes e event
  · have key := key_eq_key_iff.2 same
    rw [if_pos key.symm, if_pos same, lookup, lookup, key]
    rfl
  · rw [if_neg fun key => same (key_eq_key_iff.1 key.symm), if_neg same, lookup]

/-- Removing bindings leaves those of the event to other nodes, and all of other events. -/
theorem lookup_remove (r : Router) (v : ViewId) (e : String) (t : Tag) (view : ViewId)
    (event : String) :
    (r.remove v e t).1.lookup view event =
      if v = view ∧ SameEvent r.normalizes e event then
        (r.lookup view event).filter (fun b => b.target ≠ t)
      else r.lookup view event := by
  have keys : (r.remove v e t).1.key view event = r.key view event :=
    key_after r (.remove v e t) view event
  rw [lookup, keys, get?_remove]
  by_cases same : v = view ∧ SameEvent r.normalizes e event
  · have key := key_eq_key_iff.2 same
    rw [if_pos key.symm, if_pos same, lookup]
    cases r.bindings.get? (r.key view event) with
    | none => rfl
    | some present =>
      rw [Option.map_some, Option.filter_some, Option.getD_some]
      split
      · rfl
      · next nothing => simpa using nothing
  · rw [if_neg fun key => same (key_eq_key_iff.1 key.symm), if_neg same, lookup]

/-- **What a call does to the bindings of an event**: some of them stay, and new ones follow. -/
theorem lookup_after (r : Router) (c : Call) (view : ViewId) (event : String) :
    let kept := (r.lookup view event).filter fun b => !c.removes r.normalizes view event b.target
    (r.after c).lookup view event =
      kept ++ ((c.adds r.normalizes view event).filter (· ∉ kept)).eraseDups := by
  intro kept
  cases c with
  | add v e bs =>
    have all : kept = r.lookup view event := List.filter_eq_self.2 fun _ _ => rfl
    rw [all, after, lookup_add, addTo_eq, Call.adds]
    split <;> simp
  | remove v e t =>
    have none : kept ++ (((Call.remove v e t).adds r.normalizes view event).filter
        (· ∉ kept)).eraseDups = kept := List.append_nil _
    rw [none, after, lookup_remove]
    split
    · next same =>
      refine List.filter_congr fun b _ => ?_
      simp [Call.removes, same, eq_comm]
    · next other =>
      refine (List.filter_eq_self.2 fun b _ => ?_).symm
      simp [Call.removes, other]

/-- Adding counts the bindings that are new. -/
theorem snd_add (r : Router) (view : ViewId) (event : String) (bs : List EventBinding) :
    (r.add view event bs).2 = (bs.eraseDups.filter (· ∉ r.lookup view event)).length := by
  rw [filter_eraseDups]
  exact congrArg Prod.snd (addTo_eq (r.lookup view event) bs)

/-- Removing counts the bindings that it removes. -/
theorem snd_remove (r : Router) (view : ViewId) (event : String) (t : Tag) :
    (r.remove view event t).2 = ((r.lookup view event).filter fun b => b.target = t).length := by
  unfold remove lookup
  dsimp only
  split
  · next absent => simp [absent]
  · next present found =>
    have parts := List.length_eq_length_filter_add (l := present) fun b => decide (b.target = t)
    have rest : (present.filter fun b => b.target ≠ t) =
        present.filter fun b => !decide (b.target = t) := by simp
    rw [found, rest, Option.getD_some]
    dsimp only
    omega

/-! ### Where bindings are kept -/

/-- Bindings are kept under what their key says. -/
def Tidy (r : Router) : Prop :=
  ∀ key bs, r.bindings.get? key = some bs → r.key key.view key.event = key

/-- A call keeps bindings under what their key says. -/
theorem Tidy.after (h : r.Tidy) (c : Call) : (r.after c).Tidy := by
  intro key bs hg
  rw [key_after]
  cases c with
  | add v e cs =>
    simp only [Router.after, add, OrderedMap.get?_insert] at hg
    split at hg
    · next same => exact same ▸ key_key r v e
    · exact h key bs hg
  | remove v e t =>
    rw [Router.after, get?_remove] at hg
    split at hg
    · next same => exact same ▸ key_key r v e
    · exact h key bs hg

/-- What is kept under a key is looked up with what the key says. -/
theorem Tidy.lookup_eq (h : r.Tidy) {key : EventKey} {bs : List EventBinding}
    (hg : r.bindings.get? key = some bs) : r.lookup key.view key.event = bs := by
  rw [lookup, h key bs hg, hg]
  rfl

/-- A node is named when a binding of some event hands numbers to it. -/
theorem Tidy.holds_iff (h : r.Tidy) {t : Tag} :
    r.holds t = true ↔ ∃ view event, ∃ b ∈ r.lookup view event, b.target = t := by
  constructor
  · intro ht
    obtain ⟨key, bs, hg, b, hb, hbt⟩ := Router.holds_iff.1 ht
    exact ⟨key.view, key.event, b, (h.lookup_eq hg).symm ▸ hb, hbt⟩
  · rintro ⟨view, event, b, hb, rfl⟩
    exact holds_of_mem_lookup hb

/-- The views and events that have bindings. -/
def events (r : Router) : List (ViewId × String) :=
  r.bindings.keys.map fun key => (key.view, key.event)

/-- No event is listed twice. -/
theorem Tidy.pairwise_events (h : r.Tidy) :
    r.events.Pairwise fun p q => ¬(p.1 = q.1 ∧ SameEvent r.normalizes p.2 q.2) := by
  have kept : ∀ key ∈ r.bindings.keys, r.key key.view key.event = key := fun key hk => by
    obtain ⟨bs, hg⟩ := Option.isSome_iff_exists.1 (OrderedMap.get?_isSome_iff.2 hk)
    exact h key bs hg
  refine List.pairwise_map.2 (List.Pairwise.imp_of_mem (fun hk hl hne => ?_) r.bindings.keys_nodup)
  intro same
  have key := key_eq_key_iff.2 same
  rw [kept _ hk, kept _ hl] at key
  exact hne key

/-- Every event with bindings is listed. -/
theorem Tidy.exists_mem_events (h : r.Tidy) (hne : r.lookup view event ≠ []) :
    ∃ p ∈ r.events, p.1 = view ∧ SameEvent r.normalizes p.2 event := by
  cases hg : r.bindings.get? (r.key view event) with
  | none => exact absurd (by rw [lookup, hg]; rfl) hne
  | some bs =>
    have listed : r.key view event ∈ r.bindings.keys := by
      rw [← OrderedMap.get?_isSome_iff, hg]
      rfl
    exact ⟨_, List.mem_map_of_mem listed, key_eq_key_iff.1 (h _ bs hg)⟩

/-- The number of bindings is that of the bindings of all events. -/
theorem Tidy.size_eq (h : r.Tidy) :
    r.size = (r.events.map fun p => (r.lookup p.1 p.2).length).sum := by
  have lengths :
      (r.events.map fun p => (r.lookup p.1 p.2).length) = r.bindings.values.map List.length := by
    rw [events, OrderedMap.keys, OrderedMap.values, List.map_map, List.map_map, List.map_map]
    refine List.map_congr_left fun x hx => ?_
    exact congrArg List.length (h.lookup_eq (OrderedMap.get?_eq_some_iff.2 hx))
  rw [lengths, size, List.sum_eq_foldr, List.foldr_map]

/-! ### What several calls do -/

/-- The bindings are what calls leave. -/
structure Reflects (normalizes : Bool) (calls : List Call) (r : Router) : Prop where
  names : r.normalizes = normalizes
  tidy : r.Tidy
  lookup : ∀ view event, r.lookup view event = (surviving normalizes view event calls).eraseDups

/-- One call more. -/
theorem Reflects.after {normalizes : Bool} {calls : List Call} (h : Reflects normalizes calls r)
    (c : Call) : Reflects normalizes (calls ++ [c]) (r.after c) where
  names := (normalizes_after r c).trans h.names
  tidy := h.tidy.after c
  lookup view event := by
    rw [lookup_after, h.lookup, h.names, filter_eraseDups, surviving_concat,
      List.eraseDups_append]
    congr 2
    -- what is there and what is there once have the same members
    simp [List.removeAll]

/-- Several calls more. -/
theorem Reflects.afterAll {normalizes : Bool} {before : List Call}
    (h : Reflects normalizes before r) (calls : List Call) :
    Reflects normalizes (before ++ calls) (r.afterAll calls) := by
  induction calls generalizing r before with
  | nil => exact (List.append_nil before).symm ▸ h
  | cons c calls ih =>
    rw [List.append_cons]
    exact ih (h.after c)

/-- Bindings are what calls leave from the beginning. -/
theorem reflects_empty (normalizes : Bool) : Reflects normalizes [] (empty normalizes) where
  names := rfl
  tidy _ _ hg := by cases hg
  lookup _ _ := rfl

/-- **Bindings are an ordered multimap without repetition**, up to the spelling of names. After any
calls the bindings of an event are what was added for it and not removed later, each once and in
this order. Adding tells how many bindings are new, removing how many it removes: those of the event
to the node, and no others. The number of bindings is that of all events, none counted twice, and a
node is named exactly when one of them hands numbers to it. -/
theorem multimap_afterAll (normalizes : Bool) (calls : List Call) :
    let r := (empty normalizes).afterAll calls
    (∀ view event, r.lookup view event = (surviving normalizes view event calls).eraseDups) ∧
      (∀ view event bs,
        (r.add view event bs).2 = (bs.eraseDups.filter (· ∉ r.lookup view event)).length) ∧
      (∀ view event t,
        (r.remove view event t).2 = ((r.lookup view event).filter fun b => b.target = t).length ∧
          ∀ v e, (r.remove view event t).1.lookup v e =
            if view = v ∧ SameEvent normalizes event e then
              (r.lookup v e).filter fun b => b.target ≠ t
            else r.lookup v e) ∧
      (∃ events : List (ViewId × String),
        events.Pairwise (fun p q => ¬(p.1 = q.1 ∧ SameEvent normalizes p.2 q.2)) ∧
          (∀ view event, r.lookup view event ≠ [] →
            ∃ p ∈ events, p.1 = view ∧ SameEvent normalizes p.2 event) ∧
          r.size = (events.map fun p => (r.lookup p.1 p.2).length).sum) ∧
      ∀ t, r.holds t = true ↔ ∃ view event, ∃ b ∈ r.lookup view event, b.target = t := by
  intro r
  have h : Reflects normalizes calls r := (reflects_empty normalizes).afterAll calls
  obtain ⟨hn, tidy, lookup⟩ := h
  refine ⟨lookup, snd_add r, fun view event t => ⟨snd_remove r view event t, fun v e => ?_⟩,
    ⟨r.events, hn ▸ tidy.pairwise_events, fun view event hne => hn ▸ tidy.exists_mem_events hne,
      tidy.size_eq⟩, fun t => tidy.holds_iff⟩
  rw [lookup_remove]
  simp only [hn]

/-- A binding made again after it was removed comes after those that stayed. -/
example :
    ((empty true).afterAll
      [.add ⟨7⟩ "onScroll" [⟨⟨["x"]⟩, ⟨1⟩⟩, ⟨⟨["y"]⟩, ⟨2⟩⟩, ⟨⟨["x"]⟩, ⟨1⟩⟩],
       .remove ⟨7⟩ "topScroll" ⟨1⟩, .add ⟨7⟩ "topScroll" [⟨⟨["x"]⟩, ⟨1⟩⟩]]).lookup ⟨7⟩ "onScroll" =
      [⟨⟨["y"]⟩, ⟨2⟩⟩, ⟨⟨["x"]⟩, ⟨1⟩⟩] := by
  decide +kernel

end Router

end MotionGraph
