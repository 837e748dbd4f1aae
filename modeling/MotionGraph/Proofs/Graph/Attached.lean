import MotionGraph.Proofs.Graph.Connecting
import MotionGraph.Proofs.Graph.Marks

/-!
# What a granted edge leaves its reader with

An edge is one thing and what the reader keeps of it another: the edge stands in the two maps, the
reference in the kind. A new edge hands its input to the reader (`Kind.attach`), an edge that is
there already leaves everything as it is. So whether a reader keeps its inputs is a matter of the
whole run before, and settled by invariants about the edges of one reader (`Graph.Took`).

What an invariant asks of a kind and an input is an `Intake`: the input is listed if the kind lists
its inputs (`Kind.Lists`), or the one place for an input is taken if the kind has one
(`Kind.Occupied`). The first survives the removal of other inputs, and so holds in all runs. The
second does not: a place is given up with the input in it, and the other edges do not fill it again.
It holds in the runs that take nothing away from the reader (`Request.unwires`), and
`connect_attaches` says exactly what becomes of the place in the others.
-/

namespace MotionGraph

namespace Kind

/-- The place of a kind that reads one input. -/
def slot? : Kind → Option (Option Tag)
  | .interpolation input _ => some input
  | .diffClamp input _ => some input
  | .tracking t => some t.followed
  | _ => none

/-- A kind without what it remembers and what concerns its view. -/
def wiring (k : Kind) : Kind := k.plan.outline

/-- A kind that lists its inputs lists this one. -/
def Lists (k : Kind) (c : Tag) : Prop := ∀ op inputs, k = .arithmetic op inputs → c ∈ inputs

/-- A kind with one place for an input has something in it. -/
def Occupied (k : Kind) (_ : Tag) : Prop := ∀ slot, k.slot? = some slot → slot.isSome = true

/-- A relation between kinds and inputs that comes with taking an input and does not go with taking
another, and to which memory and views do not matter. -/
structure Intake (K : Kind → Tag → Prop) : Prop where
  taken : ∀ (k : Kind) c, K (k.attach c) c
  attach : ∀ (k : Kind) c d, K k c → K (k.attach d) c
  wiring : ∀ (k : Kind) c, K k.wiring c ↔ K k c

/-- A relation between kinds and inputs that does not go with losing another input. -/
def Keeping (K : Kind → Tag → Prop) : Prop := ∀ (k : Kind) c d, c ≠ d → K k c → K (k.forget d) c

/-! ### Inputs that are listed -/

/-- Taking an input appends it to a list of inputs that has it not yet. -/
theorem attach_eq_arithmetic {k : Kind} {c : Tag} {op : Arithmetic} {inputs : List Tag}
    (h : k.attach c = .arithmetic op inputs) :
    ∃ before, k = .arithmetic op before ∧
      inputs = if c ∈ before then before else before ++ [c] := by
  cases k with
  | arithmetic op' before =>
    simp only [attach, arithmetic.injEq] at h
    obtain ⟨rfl, rfl⟩ := h
    exact ⟨before, rfl, by simp only [List.contains_iff_mem]⟩
  | interpolation input curve => cases input <;> cases h
  | diffClamp input clamp => cases input <;> cases h
  | _ => cases h

/-- Memory and views are no list of inputs. -/
theorem wiring_eq_arithmetic {k : Kind} {op : Arithmetic} {inputs : List Tag} :
    k.wiring = .arithmetic op inputs ↔ k = .arithmetic op inputs := by
  cases k <;> simp [wiring, plan, outline]

/-- An input that was taken is listed. -/
theorem intake_lists : Intake Lists where
  taken k c op inputs h := by
    obtain ⟨before, -, rfl⟩ := attach_eq_arithmetic h
    split
    · assumption
    · exact List.mem_append_right _ List.mem_cons_self
  attach k c d hl op inputs h := by
    obtain ⟨before, rfl, rfl⟩ := attach_eq_arithmetic h
    have hc : c ∈ before := hl op before rfl
    split
    · exact hc
    · exact List.mem_append_left _ hc
  wiring k c := by simp only [Lists, wiring_eq_arithmetic]

/-- Losing an input takes no other off the list. -/
theorem keeping_lists : Keeping Lists := by
  intro k c d hne hl op inputs h
  cases k with
  | arithmetic _ before =>
    cases h
    exact List.mem_filter.2 ⟨hl op before rfl, decide_eq_true hne⟩
  | diffClamp input clamp =>
    simp only [forget] at h
    split at h <;> cases h
  | _ => cases h

/-! ### The place for one input -/

/-- Memory and views are no place for an input. -/
@[simp] theorem slot?_wiring (k : Kind) : k.wiring.slot? = k.slot? := by
  cases k <;> rfl

/-- Taking an input fills the place for it if that is free. -/
theorem slot?_attach (c : Tag) (k : Kind) :
    (k.attach c).slot? = k.slot?.map fun slot => slot.or (some c) := by
  cases k with
  | interpolation input curve => cases input <;> rfl
  | diffClamp input clamp => cases input <;> rfl
  | _ => rfl

/-- What has taken an input has its place taken. -/
theorem intake_occupied : Intake Occupied where
  taken k c slot h := by
    rw [slot?_attach, Option.map_eq_some_iff] at h
    obtain ⟨before, -, rfl⟩ := h
    cases before <;> rfl
  attach k c d ho slot h := by
    rw [slot?_attach, Option.map_eq_some_iff] at h
    obtain ⟨before, hb, rfl⟩ := h
    obtain ⟨x, rfl⟩ := Option.isSome_iff_exists.1 (ho before hb)
    rfl
  wiring k c := by simp only [Occupied, slot?_wiring]

end Kind

namespace Graph

variable {g g' : Graph}

/-! ### Requests that are not about edges -/

/-- Two graphs with the same edges and the same nodes, which refer to and compute the same. -/
structure SameWiring (g g' : Graph) : Prop where
  edges : g'.edges = g.edges
  kind : ∀ t, (g'.node? t).map (fun n => n.kind.wiring) = (g.node? t).map fun n => n.kind.wiring

namespace SameWiring

/-- A graph is wired as it is. -/
theorem refl (g : Graph) : SameWiring g g := ⟨rfl, fun _ => rfl⟩

/-- Sameness of wiring goes on from step to step. -/
theorem trans {g'' : Graph} (h : SameWiring g g') (h' : SameWiring g' g'') : SameWiring g g'' :=
  ⟨h'.edges.trans h.edges, fun t => (h'.kind t).trans (h.kind t)⟩

/-- Rewriting a node so that it refers to and computes the same. -/
theorem update (t : Tag) {f : Node → Node}
    (hf : ∀ n, g.node? t = some n → (f n).kind.wiring = n.kind.wiring) :
    SameWiring g (g.update t f) := by
  refine ⟨rfl, fun u => ?_⟩
  rw [node?_update]
  by_cases hu : u = t
  · subst hu
    cases hn : g.node? u with
    | none => simp
    | some n => simp [hf n hn]
  · simp [hu]

/-- Marks are no wiring. -/
theorem touch (h : SameWiring g g') (t : Tag) : SameWiring g (g'.touch t) := ⟨h.edges, h.kind⟩

/-- What is kept about the view of a props node is no wiring. -/
theorem setProps {t : Tag} {n : Node} {p q : Props} (hn : g.node? t = some n)
    (hp : n.kind = .props p) (hq : q.sources = p.sources) : SameWiring g (g.setProps t q) := by
  refine update t fun m hm => ?_
  obtain rfl : n = m := Option.some.inj (hn.symm.trans hm)
  simp [hp, Kind.wiring, Kind.plan, Kind.outline, hq]

/-- Base values and memories are no wiring. -/
theorem of_sameDesign (h : SameDesign g g') : SameWiring g g' := by
  refine ⟨h.edges, fun t => ?_⟩
  have hw : (fun n : Node => n.kind.wiring) ∘ Node.design = fun n => n.kind.wiring := by
    funext n
    obtain ⟨tag, kind, base, offset⟩ := n
    cases kind <;> rfl
  simpa only [Option.map_map, hw] using
    congrArg (Option.map fun n : Node => n.kind.wiring) (h.node t)

/-- Setting a base value changes no wiring. -/
theorem setBase {t : Tag} {x : Float} {r : Graph × Bool} (h : g.setBase t x = .ok r) :
    SameWiring g r.1 := by
  obtain ⟨n, -, -, -, hr⟩ := setBase_eq_ok h
  have set : SameWiring g (g.update t fun n => n.setBase x) := update t fun _ _ => rfl
  rw [hr]
  split
  · exact set.touch t
  · exact set

/-- Carrying out writes changes no wiring. -/
theorem applyWrites (g : Graph) (writes : Writes) : SameWiring g (g.applyWrites writes).1 :=
  applyWrites_induction (P := SameWiring g) (fun _ _ _ _ _ h hs => h.trans (setBase hs)) (refl g)

end SameWiring

/-- Whether a request makes or removes a node or an edge. -/
def Request.isWiring : Request → Bool
  | .create _ _ | .make _ _ | .connect _ _ | .disconnect _ _ | .drop _ _ => true
  | _ => false

/-- All other requests leave the wiring as it is. -/
theorem SameWiring.perform {r : Request} (hr : r.isWiring = false) (hg : g.perform r = .ok g') :
    SameWiring g g' := by
  cases r with
  | create t config => cases hr
  | make t config => cases hr
  | connect parent child => cases hr
  | disconnect parent child => cases hr
  | drop t holders => cases hr
  | setBase t x =>
    obtain ⟨r, hr, rfl⟩ := except_map_eq_ok.1 hg
    exact setBase hr
  | setOffset t x =>
    obtain ⟨r, hr, rfl⟩ := except_map_eq_ok.1 hg
    obtain ⟨n, -, -, -, hr⟩ := setOffset_eq_ok hr
    have set : SameWiring g (g.update t fun n => n.setOffset x) := update t fun _ _ => rfl
    rw [hr]
    split
    · exact set.touch t
    · exact set
  | flattenOffset t =>
    obtain ⟨n, -, rfl⟩ := flattenOffset_eq_ok.1 hg
    exact (update t (f := Node.flattenOffset) fun _ _ => rfl).touch t
  | extractOffset t =>
    obtain ⟨n, -, rfl⟩ := extractOffset_eq_ok.1 hg
    exact (update t (f := Node.extractOffset) fun _ _ => rfl).touch t
  | attachView t view =>
    obtain ⟨n, p, hn, hp, ⟨-, rfl⟩ | ⟨-, rfl⟩⟩ := attachView_eq_ok hg
    · exact refl _
    · exact (setProps (q := { p with view := some view, lastSent := none }) hn hp rfl).touch t
  | detachView t view =>
    obtain ⟨n, p, hn, hp, -, rfl⟩ := detachView_eq_ok hg
    exact setProps hn hp rfl
  | mark t =>
    obtain ⟨n, -, rfl⟩ := mark_eq_ok.1 hg
    exact (refl g).touch t
  | applyWrites writes =>
    cases hg
    exact applyWrites g writes
  | propagate =>
    cases hg
    have design := of_sameDesign (sameDesign_propagate g)
    exact ⟨design.edges, design.kind⟩
  | takeUpdate t =>
    cases hg
    rcases takeUpdate_cases g t with ⟨he, -⟩ | ⟨n, p, view, hn, hp, -, -, he⟩
    · rw [he]
      exact refl g
    · rw [he]
      exact setProps hn hp rfl
  | restoreDefaults t =>
    obtain ⟨r, hr, rfl⟩ := except_map_eq_ok.1 hg
    obtain ⟨n, p, hn, hp, hr, -⟩ := restoreDefaults_eq_ok hr
    rw [hr]
    exact setProps hn hp rfl

/-! ### What one reader has taken -/

/-- Whether a request can take an input away from a reader: an edge of the reader is removed, or a
node. -/
def Request.unwires (p : Tag) : Request → Bool
  | .disconnect parent _ => parent = p
  | .drop _ _ => true
  | _ => false

/-- A reader stands in a relation to all that it reads by an edge. -/
def Took (K : Kind → Tag → Prop) (g : Graph) (p : Tag) : Prop :=
  ∀ c n, g.edges.Reads p c → g.node? p = some n → K n.kind c

namespace Took

variable {K : Kind → Tag → Prop} {p : Tag}

/-- A graph wired the same keeps the relation. -/
theorem of_sameWiring (hK : Kind.Intake K) (h : Took K g p) (hw : SameWiring g g') :
    Took K g' p := by
  intro c n' hr hn'
  rw [hw.edges] at hr
  have hk := hw.kind p
  rw [hn', Option.map_some, eq_comm, Option.map_eq_some_iff] at hk
  obtain ⟨n, hn, hk⟩ := hk
  rw [← hK.wiring, ← hk, hK.wiring]
  exact h c n hr hn

/-- A new node reads nothing yet. -/
theorem make (h : Took K g p) (hs : g.Sound) {t : Tag} {config : NodeConfig}
    (hg : g.make t config = .ok g') : Took K g' p := by
  obtain ⟨ht, n, -, rfl⟩ := make_eq_ok.1 hg
  intro c m hr hm
  have hp : p ≠ t := by
    rintro rfl
    rw [hs.parent_live p c hr] at ht
    cases ht
  rw [node?, OrderedMap.get?_insert, if_neg hp] at hm
  exact h c m hr hm

/-- A new edge hands its input over. -/
theorem connect (hK : Kind.Intake K) (h : Took K g p) {parent child : Tag}
    (hg : g.connect parent child = .ok g') : Took K g' p := by
  obtain ⟨-, -, -, -, -, ⟨-, rfl⟩ | ⟨-, -, rfl⟩⟩ := connect_eq_ok hg
  · exact h
  intro c n' hr hn'
  rw [node?_touch, node?_update] at hn'
  have hr' : g.edges.Reads p c ∨ (p = parent ∧ c = child) := Edges.reads_link.1 hr
  by_cases hp : p = parent
  · subst hp
    rw [if_pos rfl] at hn'
    obtain ⟨n, hn, rfl⟩ := Option.map_eq_some_iff.1 hn'
    rcases hr' with hr' | ⟨-, rfl⟩
    · exact hK.attach n.kind c child (h c n hr' hn)
    · exact hK.taken n.kind c
  · rw [if_neg hp] at hn'
    exact h c n' (hr'.resolve_right fun he => hp he.1) hn'

/-- An edge of another reader is removed, or other inputs do not matter. -/
theorem disconnect (h : Took K g p) {parent child : Tag} (hk : parent ≠ p ∨ Kind.Keeping K)
    (hg : g.disconnect parent child = .ok g') : Took K g' p := by
  obtain ⟨-, -, -, -, -, rfl⟩ := disconnect_eq_ok hg
  intro c n' hpc hn'
  obtain ⟨hr, hne⟩ : g.edges.Reads p c ∧ ¬(p = parent ∧ c = child) := Edges.reads_unlink.1 hpc
  rw [node?_touch, node?_update] at hn'
  by_cases hp : p = parent
  · subst hp
    rw [if_pos rfl] at hn'
    obtain ⟨n, hn, rfl⟩ := Option.map_eq_some_iff.1 hn'
    have hkeep : Kind.Keeping K := hk.resolve_left fun he => he rfl
    exact hkeep n.kind c child (fun he => hne ⟨rfl, he⟩) (h c n hr hn)
  · rw [if_neg hp] at hn'
    exact h c n' hr hn'

/-- A node is removed where other inputs do not matter. -/
theorem drop (h : Took K g p) (hs : g.Sound) (hk : Kind.Keeping K) {t : Tag} {holders : List Holder}
    {r : Graph × Node} (hr : g.drop t holders = .ok r) : Took K r.1 p := by
  intro c n' hpc hn'
  obtain ⟨hpc, hp, hc⟩ := (reads_drop hs.mirrored hr p c).1 hpc
  rw [node?_drop hr, if_neg hp, Option.map_eq_some_iff] at hn'
  obtain ⟨n, hn, rfl⟩ := hn'
  exact hk n.kind c t hc (h c n hpc hn)

/-- What a granted request keeps that takes nothing away from the reader, or nothing that
matters. -/
theorem perform (hK : Kind.Intake K) (h : Took K g p) (hs : g.Sound) {r : Request}
    (hr : r.unwires p = false ∨ Kind.Keeping K) (hg : g.perform r = .ok g') : Took K g' p := by
  cases r with
  | create t config =>
    obtain ⟨c, -, hg⟩ := create_eq_ok.1 hg
    exact h.make hs hg
  | make t config => exact h.make hs hg
  | connect parent child => exact h.connect hK hg
  | disconnect parent child =>
    exact h.disconnect (hr.imp of_decide_eq_false id) hg
  | drop t holders =>
    obtain ⟨r, hd, rfl⟩ := except_map_eq_ok.1 hg
    exact h.drop hs (hr.resolve_left nofun) hd
  | _ => exact h.of_sameWiring hK (.perform rfl hg)

/-- What a run keeps. -/
theorem afterAll (hK : Kind.Intake K) {rs : List Request}
    (hrs : (∀ r ∈ rs, r.unwires p = false) ∨ Kind.Keeping K) {g : Graph} (hs : g.Sound)
    (h : Took K g p) : Took K (g.afterAll rs) p := by
  induction rs generalizing g with
  | nil => exact h
  | cons r rs ih =>
    have hr : r.unwires p = false ∨ Kind.Keeping K :=
      hrs.imp (fun hrs => hrs r List.mem_cons_self) id
    refine ih (hrs.imp (fun hrs s hm => hrs s (List.mem_cons_of_mem r hm)) id) (hs.after r) ?_
    unfold Graph.after
    split
    · next hg => exact h.perform hK hs hr hg
    · exact h

end Took

/-- What a reader has taken in a run from the graph without nodes. -/
theorem took_afterAll {K : Kind → Tag → Prop} (hK : Kind.Intake K) {rs : List Request} {p : Tag}
    (hrs : (∀ r ∈ rs, r.unwires p = false) ∨ Kind.Keeping K) : Took K (empty.afterAll rs) p :=
  Took.afterAll hK hrs sound_empty fun _ _ hr => absurd hr (Edges.not_reads_empty _ _)

/-! ### What a granted edge leaves -/

/-- The reader of a granted edge is there before and after. An edge that was there leaves it as it
was, and a new one hands it the input. -/
theorem node?_connect {parent child : Tag} (hg : g.connect parent child = .ok g') :
    ∃ n, g.node? parent = some n ∧
      ((g.edges.Reads parent child ∧ g'.node? parent = some n) ∨
        (¬g.edges.Reads parent child ∧ g'.node? parent = some (n.attach child))) := by
  obtain ⟨c, hc, hs⟩ := (joinable_of_connect_eq_ok hg).2
  obtain ⟨p, -, hp, -, -, ⟨hr, rfl⟩ | ⟨-, -, he⟩⟩ := connect_eq_ok hg
  · exact ⟨p, hp, .inl ⟨hr, hp⟩⟩
  · by_cases hr : g.edges.Reads parent child
    · rw [connect_of_joinable (joinable_of_connect_eq_ok hg), if_pos (Edges.contains_iff.2 hr)]
        at hg
      cases hg
      exact ⟨p, hp, .inl ⟨hr, hp⟩⟩
    · refine ⟨p, hp, .inr ⟨hr, ?_⟩⟩
      rw [he, node?_touch, node?_update, if_pos rfl]
      exact congrArg (Option.map fun n => n.attach child) hp

/-- **What a granted edge leaves its reader with.** After any requests to the graph without nodes,
an edge that is granted is there. If its reader is an arithmetic node, the input is in the list,
where it is appended exactly if it was missing. If the reader has one place for an input, that place
is taken exactly if the edge is new or the place was taken before: a new edge fills a free place,
and an edge that was there leaves the place as it was. The place is always taken if none of the
requests has removed an edge of the reader, or a node. -/
theorem connect_attaches (requests : List Request) (parent child : Tag) (g' : Graph)
    (h : (empty.afterAll requests).connect parent child = .ok g') :
    let g := empty.afterAll requests
    g'.edges.Reads parent child ∧
      ∃ n n', g.node? parent = some n ∧ g'.node? parent = some n' ∧
        (∀ op inputs', n'.kind = .arithmetic op inputs' →
          child ∈ inputs' ∧ ∃ inputs, n.kind = .arithmetic op inputs ∧
            inputs' = if child ∈ inputs then inputs else inputs ++ [child]) ∧
        (∀ slot', n'.kind.slot? = some slot' →
          (∃ slot, n.kind.slot? = some slot ∧
            slot' = (if g.edges.Reads parent child then slot else slot.or (some child)) ∧
            (slot'.isSome = true ↔ ¬g.edges.Reads parent child ∨ slot.isSome = true)) ∧
          ((∀ r ∈ requests, r.unwires parent = false) → slot'.isSome = true)) := by
  intro g
  have listed : Took Kind.Lists g parent :=
    took_afterAll Kind.intake_lists (.inr Kind.keeping_lists)
  have occupied : (∀ r ∈ requests, r.unwires parent = false) → Took Kind.Occupied g parent :=
    fun hrs => took_afterAll Kind.intake_occupied (.inl hrs)
  refine ⟨(reads_connect h parent child).2 (.inr ⟨rfl, rfl⟩), ?_⟩
  obtain ⟨n, hn, ⟨hr, hn'⟩ | ⟨hr, hn'⟩⟩ := node?_connect h
  · refine ⟨n, n, hn, hn', fun op inputs hk => ?_,
      fun slot hk => ⟨⟨slot, hk, ?_, ?_⟩, fun hrs => ?_⟩⟩
    · have hc : child ∈ inputs := listed child n hr hn op inputs hk
      exact ⟨hc, inputs, hk, (if_pos hc).symm⟩
    · exact (if_pos hr).symm
    · exact ⟨.inr, fun ho => ho.resolve_left fun hne => hne hr⟩
    · exact occupied hrs child n hr hn slot hk
  · refine ⟨n, n.attach child, hn, hn', fun op inputs' hk => ⟨?_, Kind.attach_eq_arithmetic hk⟩,
      fun slot' hk => ?_⟩
    · exact Kind.intake_lists.taken n.kind child op inputs' hk
    · have taken : slot'.isSome = true := Kind.intake_occupied.taken n.kind child slot' hk
      have hslot : (n.kind.attach child).slot? = some slot' := hk
      rw [Kind.slot?_attach, Option.map_eq_some_iff] at hslot
      obtain ⟨slot, hs, he⟩ := hslot
      exact ⟨⟨slot, hs, by rw [if_neg hr, he], fun _ => .inl hr, fun _ => taken⟩, fun _ => taken⟩

/-- A sum is given an input. An interpolation node is given two, and loses the one that it reads. -/
def reconnectedRun : List Request :=
  [.make ⟨1⟩ (.value 5.0 0.0), .make ⟨2⟩ (.value 7.0 0.0),
   .make ⟨3⟩ (.interpolation none [0.0, 1.0] [0.0, 1.0] none none none),
   .make ⟨4⟩ (.arithmetic .addition []), .connect ⟨4⟩ ⟨1⟩,
   .connect ⟨3⟩ ⟨1⟩, .connect ⟨3⟩ ⟨2⟩, .disconnect ⟨3⟩ ⟨1⟩]

/-- A second input is appended to those of the sum, and a new edge fills the place that the
interpolation node has lost its input from. -/
theorem reconnectedRun_attaches :
    (∃ g' n' inputs', (empty.afterAll reconnectedRun).connect ⟨4⟩ ⟨2⟩ = .ok g' ∧
      g'.node? ⟨4⟩ = some n' ∧ n'.kind = .arithmetic .addition inputs' ∧ ⟨2⟩ ∈ inputs') ∧
    ∃ g' n' slot', (empty.afterAll reconnectedRun).connect ⟨3⟩ ⟨1⟩ = .ok g' ∧
      g'.node? ⟨3⟩ = some n' ∧ n'.kind.slot? = some slot' ∧ slot'.isSome = true := by
  have sum : (empty.afterAll reconnectedRun).connect ⟨4⟩ ⟨2⟩ =
      .ok ((empty.afterAll reconnectedRun).after (.connect ⟨4⟩ ⟨2⟩)) := by with_unfolding_all rfl
  have curve : (empty.afterAll reconnectedRun).connect ⟨3⟩ ⟨1⟩ =
      .ok ((empty.afterAll reconnectedRun).after (.connect ⟨3⟩ ⟨1⟩)) := by with_unfolding_all rfl
  constructor
  · have hk : (((empty.afterAll reconnectedRun).after (.connect ⟨4⟩ ⟨2⟩)).node? ⟨4⟩).map Node.kind =
        some (.arithmetic .addition [⟨1⟩, ⟨2⟩]) := by with_unfolding_all rfl
    obtain ⟨n', hn', hk⟩ := Option.map_eq_some_iff.1 hk
    obtain ⟨-, n, m, -, hm, list, -⟩ := connect_attaches reconnectedRun ⟨4⟩ ⟨2⟩ _ sum
    obtain rfl : n' = m := Option.some.inj (hn'.symm.trans hm)
    exact ⟨_, n', _, sum, hn', hk, (list _ _ hk).1⟩
  · have hk : (((empty.afterAll reconnectedRun).after (.connect ⟨3⟩ ⟨1⟩)).node? ⟨3⟩).map
        (fun n => n.kind.slot?) = some (some (some ⟨1⟩)) := by with_unfolding_all rfl
    have fresh : ¬(empty.afterAll reconnectedRun).edges.Reads ⟨3⟩ ⟨1⟩ := by decide +kernel
    obtain ⟨n', hn', hk⟩ := Option.map_eq_some_iff.1 hk
    obtain ⟨-, n, m, -, hm, -, place⟩ := connect_attaches reconnectedRun ⟨3⟩ ⟨1⟩ _ curve
    obtain rfl : n' = m := Option.some.inj (hn'.symm.trans hm)
    obtain ⟨⟨slot, -, -, taken⟩, -⟩ := place _ hk
    exact ⟨_, n', _, curve, hn', hk, taken.2 (.inl fresh)⟩

/-- An edge that is there is granted once more, and the place for the input stays free. -/
theorem reconnected_slot_free :
    ∃ g' n', (empty.afterAll reconnectedRun).connect ⟨3⟩ ⟨2⟩ = .ok g' ∧
      g'.edges.Reads ⟨3⟩ ⟨2⟩ ∧ g'.node? ⟨3⟩ = some n' ∧ n'.kind.name = "interpolation" ∧
      n'.kind.slot? = some none := by
  have hr : (empty.afterAll reconnectedRun).edges.Reads ⟨3⟩ ⟨2⟩ := by decide +kernel
  have hk : ((empty.afterAll reconnectedRun).node? ⟨3⟩).map
      (fun n => (n.kind.name, n.kind.slot?)) = some ("interpolation", some none) := by
    with_unfolding_all rfl
  obtain ⟨n, hn, he⟩ := Option.map_eq_some_iff.1 hk
  obtain ⟨hname, hslot⟩ := Prod.mk.inj he
  exact ⟨_, n, (sound_afterAll reconnectedRun).connect_of_reads hr, hr, hn, hname, hslot⟩

end Graph

end MotionGraph
