import MotionGraph.Proofs.Engine.Faithful
import MotionGraph.Proofs.Engine.Run

/-!
# What nodes remember of the updates that their views were given

From the history of an engine follow the updates that the view of a node was given since the node
was made, was attached or had its defaults restored (`History.given`). The node itself remembers
less: the map that was handed out last. `Remembers` is the invariant that ties the two together. The
names in that map are those that the update given last sets (`Remembers.shown`), for an update that
takes back an earlier one sets nothing (`Remembers.blank`), and no such update waits for a node that
remembers a map (`Remembers.apart`).

All runs keep this, also those in which expressions are called or nodes dropped to which others
refer (`Engine.recalls_afterAll`), and it holds whenever a call carries out a command
(`Engine.Recalls.momentsOf`).
-/

namespace MotionGraph

/-! ### Histories -/

namespace History

/-- The updates that the view of a node was given since the node was made, was attached or had its
defaults restored, the latest first. -/
def given : History → Tag → List ViewUpdate
  | [], _ => []
  | .handed u update :: h, t => if u = t then update :: given h t else given h t
  | .made u :: h, t => if u = t then [] else given h t
  | .attached u :: h, t => if u = t then [] else given h t
  | .restored u _ :: h, t => if u = t then [] else given h t
  | _ :: h, t => given h t

/-- Whether the update given last sets the property of a name. -/
def shows (h : History) (t : Tag) (name : String) : Bool :=
  (h.given t).head?.any fun u => u.props.sets name

/-- Computing nodes gives nothing. -/
@[simp] theorem shows_computed (h : History) (ts : List Tag) (t : Tag) (name : String) :
    (h.record (ts.map .computed)).shows t name = h.shows t name := by
  induction ts generalizing h with
  | nil => rfl
  | cons u ts ih => rw [List.map_cons, record_cons, ih]; rfl

/-- An update that is handed out is the one given last. -/
theorem shows_handed (h : History) (u t : Tag) (update : ViewUpdate) (name : String) :
    shows (.handed u update :: h) t name =
      if u = t then update.props.sets name else h.shows t name := by
  by_cases hu : u = t
  · rw [shows, given, if_pos hu, if_pos hu]
    rfl
  · rw [shows, given, if_neg hu, if_neg hu, shows]

/-- Updates that set nothing leave it at that. -/
theorem shows_handedAll {ws : List (Tag × ViewUpdate)}
    (hb : ∀ w ∈ ws, ∀ name, w.2.props.sets name = false) (h : History) (t : Tag) (name : String) :
    (h.record (ws.map fun w => .handed w.1 w.2)).shows t name =
      if t ∈ ws.map Prod.fst then false else h.shows t name := by
  induction ws generalizing h with
  | nil => simp [record]
  | cons w ws ih =>
    rw [List.map_cons, record_cons, ih fun w hw => hb w (List.mem_cons_of_mem _ hw), shows_handed,
      hb w List.mem_cons_self]
    simp only [List.map_cons, List.mem_cons, eq_comm (a := t)]
    by_cases ht : w.1 = t <;> simp [ht]

/-- Between two moments a node was given nothing, and no update has come to wait for it. -/
structure Follows (h h' : History) (t : Tag) : Prop where
  shows : ∀ name, h'.shows t name = h.shows t name
  owed : t ∈ h'.owed.map Prod.fst → t ∈ h.owed.map Prod.fst

namespace Follows

variable {h : History} {t u : Tag}

/-- Nothing has happened. -/
theorem refl (h : History) (t : Tag) : Follows h h t := ⟨fun _ => rfl, id⟩

/-- Another node was made. -/
theorem made (hu : u ≠ t) : Follows h (.made u :: h) t :=
  ⟨fun _ => by rw [History.shows, given, if_neg hu, History.shows], id⟩

/-- Another node was attached. -/
theorem attached (hu : u ≠ t) : Follows h (.attached u :: h) t :=
  ⟨fun _ => by rw [History.shows, given, if_neg hu, History.shows], id⟩

/-- The defaults of another node were restored. -/
theorem restored (hu : u ≠ t) (reset : Option ViewUpdate) :
    Follows h (.restored u reset :: h) t := by
  refine ⟨fun _ => by rw [History.shows, given, if_neg hu, History.shows], fun hin => ?_⟩
  rw [History.owed, List.map_append, List.mem_append] at hin
  refine hin.resolve_right fun hin => hu ?_
  obtain ⟨w, hw, rfl⟩ := List.mem_map.1 hin
  obtain ⟨-, -, rfl⟩ := List.mem_map.1 hw
  rfl

end Follows

end History

/-! ### The invariant -/

/-- Nodes remember of the updates that their views were given what the one given last sets. -/
structure Remembers (g : Graph) (resets : List ViewUpdate) (h : History) : Prop where
  /-- The updates that wait are those of the history. -/
  owed : h.owed.map Prod.snd = resets
  /-- They set nothing. -/
  blank : ∀ w ∈ h.owed, ∀ name, w.2.props.sets name = false
  /-- An attached node remembers the names that the update given last sets. -/
  shown : ∀ t n p, g.node? t = some n → n.kind = .props p → p.view.isSome = true →
    ∀ name, h.shows t name = p.lastSent.any (·.contains name)
  /-- No update waits for a node that remembers anything. -/
  apart : ∀ t n p, g.node? t = some n → n.kind = .props p → p.lastSent.isSome = true →
    t ∉ h.owed.map Prod.fst

namespace Remembers

variable {g g' : Graph} {resets resets' : List ViewUpdate} {h h' : History}

/-- Without nodes there is nothing to remember. -/
theorem empty : Remembers Graph.empty [] [] where
  owed := rfl
  blank _ hw := absurd hw List.not_mem_nil
  shown _ _ _ hn := by cases hn
  apart _ _ _ hn := by cases hn

/-- A request keeps the invariant if nothing has happened to the views of other nodes than
the one it is about, and if that one has forgotten what was sent for it, and has no view or
was given nothing since. -/
theorem perform (hm : Remembers g resets h) {r : Graph.Request} (hg : g.perform r = .ok g')
    (ho : h'.owed.map Prod.snd = resets')
    (hb : ∀ w ∈ h'.owed, ∀ name, w.2.props.sets name = false)
    (hf : ∀ u, r.onView ≠ some u → g.contains u = true → h.Follows h' u)
    (hv : ∀ t, r.onView = some t → ∀ n' p', g'.node? t = some n' → n'.kind = .props p' →
      p'.lastSent = none ∧ (p'.view = none ∨ ∀ name, h'.shows t name = false)) :
    Remembers g' resets' h' := by
  -- a node keeps what it kept, or has forgotten what was sent for it
  have hstep : ∀ t n' p', g'.node? t = some n' → n'.kind = .props p' →
      (∃ n p, g.node? t = some n ∧ n.kind = .props p ∧ p.view = p'.view ∧ p.lastSent = p'.lastSent ∧
        h.Follows h' t) ∨
      p'.lastSent = none ∧ (p'.view = none ∨ ∀ name, h'.shows t name = false) := by
    intro t n' p' hn' hp'
    by_cases ht : r.onView = some t
    · exact Or.inr (hv t ht n' p' hn' hp')
    · have hsend : n'.kind.sending = some (p'.view, p'.lastSent) := by rw [hp']; rfl
      rcases Graph.sending_perform hg ht hn' with ⟨n, hn, hk⟩ | ⟨-, hnew⟩
      · rw [hsend, eq_comm] at hk
        obtain ⟨p, hp, hview, hlast⟩ := Kind.exists_props_of_sending hk
        exact Or.inl ⟨n, p, hn, hp, hview, hlast, hf t ht (Graph.contains_of_node? hn)⟩
      · exact Or.inr ⟨(hnew _ _ hsend).2, Or.inl (hnew _ _ hsend).1⟩
  refine ⟨ho, hb, fun t n' p' hn' hp' hview name => ?_, fun t n' p' hn' hp' hlast => ?_⟩
  · rcases hstep t n' p' hn' hp' with ⟨n, p, hn, hp, hv', hl', hfollows⟩ | ⟨hl', hv' | hnone⟩
    · rw [hfollows.shows, hm.shown t n p hn hp (hv' ▸ hview), hl']
    · rw [hv'] at hview
      cases hview
    · rw [hnone, hl', Option.any_none]
  · rcases hstep t n' p' hn' hp' with ⟨n, p, hn, hp, -, hl', hfollows⟩ | ⟨hl', -⟩
    · exact fun hin => hm.apart t n p hn hp (hl' ▸ hlast) (hfollows.owed hin)
    · rw [hl'] at hlast
      cases hlast

/-- A request that is about no view keeps the invariant. -/
theorem request (hm : Remembers g resets h) {r : Graph.Request} (hv : r.onView = none)
    (hg : g.perform r = .ok g') : Remembers g' resets h := by
  refine hm.perform hg hm.owed hm.blank (fun u _ _ => .refl h u) fun t ht => ?_
  rw [hv] at ht
  cases ht

/-- Setting a base value keeps the invariant. -/
theorem setBase (hm : Remembers g resets h) {t : Tag} {x : Float} {r : Graph × Bool}
    (hr : g.setBase t x = .ok r) : Remembers r.1 resets h :=
  hm.request (r := .setBase t x) rfl (except_map_eq_ok.2 ⟨r, hr, rfl⟩)

/-- Making a node keeps the invariant: the node was not there before. -/
theorem create (hm : Remembers g resets h) {t : Tag} {config : Json}
    (hg : g.create t config = .ok g') : Remembers g' resets (.made t :: h) := by
  obtain ⟨c, -, hmake⟩ := Graph.create_eq_ok.1 hg
  obtain ⟨hfree, -⟩ := Graph.make_eq_ok.1 hmake
  refine hm.perform (r := .create t config) hg hm.owed hm.blank (fun u _ hu => .made ?_) nofun
  rintro rfl
  rw [hfree] at hu
  cases hu

/-- Attaching a node keeps the invariant: its view was given nothing for it yet. -/
theorem attachView (hm : Remembers g resets h) {t : Tag} {view : ViewId}
    (hg : g.attachView t view = .ok g') :
    Remembers g' resets (if g.isAttached t then h else .attached t :: h) := by
  obtain ⟨n, p, hn, hp, hcases⟩ := Graph.attachView_eq_ok hg
  have hatt : g.isAttached t = p.view.isSome := by
    rw [Graph.isAttached, Graph.props_eq_ok.2 ⟨hn, hp⟩]
  rcases hcases with ⟨hv, rfl⟩ | ⟨hv, hg'⟩
  · rwa [hatt, hv, Option.isSome_some, if_pos rfl]
  · rw [hatt, hv, Option.isSome_none, if_neg Bool.false_ne_true]
    refine hm.perform (r := .attachView t view) hg hm.owed hm.blank
      (fun u hu _ => .attached fun he => hu (congrArg some he)) fun u hu n' p' hn' hp' => ?_
    cases hu
    rw [hg', Graph.node?_touch] at hn'
    cases Faithful.props_of_setProps hn hn' hp'
    exact ⟨rfl, Or.inr fun name => by rw [History.shows, History.given, if_pos rfl]; rfl⟩

/-- Detaching a node keeps the invariant: the node forgets what was sent for it. -/
theorem detachView (hm : Remembers g resets h) {t : Tag} {view : ViewId}
    (hg : g.detachView t view = .ok g') : Remembers g' resets h := by
  obtain ⟨n, p, hn, hp, -, hg'⟩ := Graph.detachView_eq_ok hg
  refine hm.perform (r := .detachView t view) hg hm.owed hm.blank (fun u _ _ => .refl h u)
    fun u hu n' p' hn' hp' => ?_
  cases hu
  rw [hg'] at hn'
  cases Faithful.props_of_setProps hn hn' hp'
  exact ⟨rfl, Or.inl rfl⟩

/-- Restoring defaults keeps the invariant: the update that waits sets nothing. -/
theorem restoreDefaults (hm : Remembers g resets h) {t : Tag} {r : Graph × Option ViewUpdate}
    (hr : g.restoreDefaults t = .ok r) :
    Remembers r.1 (resets ++ r.2.toList) (.restored t r.2 :: h) := by
  obtain ⟨n, p, hn, hp, hg', hreset⟩ := Graph.restoreDefaults_eq_ok hr
  have howed : (History.owed (.restored t r.2 :: h)).map Prod.snd = resets ++ r.2.toList := by
    rw [History.owed, List.map_append, hm.owed]
    cases r.2 <;> rfl
  refine hm.perform (r := .restoreDefaults t) (except_map_eq_ok.2 ⟨r, hr, rfl⟩) howed
    (fun w hw name => ?_) (fun u hu _ => .restored (fun he => hu (congrArg some he)) r.2)
    fun u hu n' p' hn' hp' => ?_
  · rw [History.owed, List.mem_append] at hw
    rcases hw with hw | hw
    · exact hm.blank w hw name
    · obtain ⟨update, hu, rfl⟩ := List.mem_map.1 hw
      rw [hreset, Option.mem_toList, Option.map_eq_some_iff] at hu
      obtain ⟨view, -, rfl⟩ := hu
      rw [PropMap.sets, Graph.get?_resetMap]
      split <;> simp_all
  · cases hu
    rw [hg'] at hn'
    cases Faithful.props_of_setProps hn hn' hp'
    exact ⟨rfl, Or.inr fun name => by rw [History.shows, History.given, if_pos rfl]; rfl⟩

/-- Computing nodes happens to no view. -/
theorem computed (hm : Remembers g resets h) (ts : List Tag) :
    Remembers g resets (h.record (ts.map .computed)) where
  owed := by rw [History.owed_computed]; exact hm.owed
  blank := by rw [History.owed_computed]; exact hm.blank
  shown t n p hn hp hv name := by rw [History.shows_computed]; exact hm.shown t n p hn hp hv name
  apart t n p hn hp hl := by rw [History.owed_computed]; exact hm.apart t n p hn hp hl

/-! ### A batch -/

/-- Handing out the updates that take back earlier ones keeps the invariant: they set nothing, and
their nodes remember nothing. -/
theorem resetsDone (hm : Remembers g resets h) :
    Remembers g [] ((h.record (h.owed.map fun w => .handed w.1 w.2)).record [.resetsDone]) := by
  refine ⟨rfl, nofun, fun t n p hn hp hv name => ?_, fun _ _ _ _ _ _ => List.not_mem_nil⟩
  have hshows := History.shows_handedAll hm.blank h t name
  refine Eq.trans (b := (h.record (h.owed.map fun w => .handed w.1 w.2)).shows t name) rfl ?_
  rw [hshows]
  split
  · next hin =>
    cases hl : p.lastSent with
    | none => rfl
    | some m => exact absurd hin (hm.apart t n p hn hp (by rw [hl]; rfl))
  · exact hm.shown t n p hn hp hv name

/-- Taking the update of a node keeps the invariant: it is the one given last, and is remembered. -/
theorem takeUpdate (hm : Remembers g [] h) (t : Tag) :
    Remembers (g.takeUpdate t).1 []
      (h.record
        (((g.takeUpdate t).2.toList.map fun u => (t, u)).map fun w => .handed w.1 w.2)) := by
  have hnone : h.owed = [] := List.map_eq_nil_iff.1 hm.owed
  rcases Graph.takeUpdate_cases g t with ⟨he, -⟩ | ⟨n, p, view, hn, hp, -, -, he⟩
  · rw [he]
    exact hm
  · rw [he]
    let q : Props := { p with lastSent := some (g.propsOf p) }
    refine ⟨hm.owed, hm.blank, fun u n' p' hn' hp' hv' name => ?_, fun _ _ _ _ _ _ => ?_⟩
    · show History.shows (.handed t ⟨view, g.propsOf p⟩ :: h) u name = _
      rw [History.shows_handed]
      by_cases hu : u = t
      · subst hu
        cases Faithful.props_of_setProps (q := q) hn hn' hp'
        rw [if_pos rfl]
        exact Graph.sets_propsOf g p name
      · rw [if_neg (Ne.symm hu)]
        refine hm.shown u n' p' ?_ hp' hv' name
        rw [← hn', Graph.setProps, Graph.node?_update, if_neg hu]
    · show _ ∉ h.owed.map Prod.fst
      rw [hnone]
      exact List.not_mem_nil

/-- Taking the updates of several nodes keeps the invariant. -/
theorem takeUpdates (hm : Remembers g [] h) (ts : List Tag) :
    Remembers (Engine.takeUpdates g ts).1 []
      (h.record ((g.handouts ts).map fun w => .handed w.1 w.2)) := by
  induction ts generalizing g h with
  | nil => exact hm
  | cons t ts ih =>
    have hrest := ih (hm.takeUpdate t)
    rw [Graph.handouts, List.map_append, History.record_append]
    exact hrest

end Remembers

namespace Engine

variable {κ : Type} {e e' : Engine κ} {h : History}

/-- The nodes of an engine remember what the history says that their views were given. -/
def Recalls (e : Engine κ) (h : History) : Prop := Remembers e.graph e.resets h

/-! ### The commands that a call carries out -/

/-- The commands that wait and are carried out, at most so many, each with the engine that carries
it out and with its history. -/
def carriedOutWith : Nat → Engine κ → History → List (Engine κ × History × Command κ)
  | 0, _, _ => []
  | limit + 1, e, h =>
    match e.queue with
    | [] => []
    | c :: rest =>
      let e := { e with queue := rest }
      (e, h, c) :: carriedOutWith limit (e.after (.execute c)) (e.executed h c)

/-- The commands that a call carries out, each with the engine that carries it out and with its
history. -/
def momentsOf (e : Engine κ) (h : History) : Call κ → List (Engine κ × History × Command κ)
  | .execute c => [(e, h, c)]
  | .drain | .frame _ => carriedOutWith e.commandLimit e h
  | .send _ | .settle => []

/-- Histories beside, these are the commands that wait and are carried out. -/
theorem map_carriedOutWith (limit : Nat) (e : Engine κ) (h : History) :
    (carriedOutWith limit e h).map (fun p => (p.1, p.2.2)) = carriedOut limit e := by
  induction limit generalizing e h with
  | zero => rfl
  | succ limit ih =>
    rw [carriedOutWith, carriedOut]
    cases e.queue with
    | nil => rfl
    | cons c rest => exact congrArg _ (ih _ _)

/-- Histories beside, these are the commands that a call carries out. -/
theorem map_momentsOf (e : Engine κ) (h : History) (c : Call κ) :
    (e.momentsOf h c).map (fun p => (p.1, p.2.2)) = e.commandsOf c := by
  cases c with
  | drain => exact map_carriedOutWith _ e h
  | frame time => exact map_carriedOutWith _ e h
  | _ => rfl

namespace Recalls

/-- Clients and ticks do not matter. -/
theorem of_alike (hm : e.Recalls h) (like : Alike e e') : e'.Recalls h := by
  unfold Recalls
  rw [like.graph, like.resets]
  exact hm

/-- Whether nodes remember depends on the content of an engine. -/
theorem of_content {g : Graph} {dirty : OrderedSet Tag} {resets : List ViewUpdate}
    (hm : Remembers g resets h) (hc : e.content = (g, dirty, resets)) : e.Recalls h := by
  show Remembers e.content.1 e.content.2.2 h
  rw [hc]
  exact hm

/-- Settling keeps what nodes remember. -/
theorem settle (hm : e.Recalls h) : e.settle.1.Recalls h := by
  refine settleUpTo_induction (P := fun e _ => e.Recalls h) (fun e _ hm => ?_)
    e.settings.maxSettlePasses hm
  refine of_content ?_ (content_settleOnce e)
  refine Graph.applyWrites_induction (P := fun g => Remembers g e.resets h)
    (fun _ _ _ _ _ hm hs => hm.setBase hs) ?_
  exact Remembers.request (r := .propagate) hm rfl rfl

/-- What settling computes happens to no view. -/
theorem settled (hm : e.Recalls h) : e.settle.1.Recalls (e.settled h) :=
  Remembers.computed hm.settle _

/-- A command that is not refused keeps what nodes remember. -/
theorem noted (hm : e.Recalls h) {c : Command κ} (hx : e.execute c = .ok e') :
    e'.Recalls (e.noted h c) := by
  obtain ⟨o, hd, rfl⟩ := done_of_execute hx
  refine of_alike ?_ o.alike
  have handed : ∀ view event payload,
      Recalls { e with graph := (e.router.handle view event payload e.graph).1 } h :=
    fun view event payload =>
      Router.deliver_induction (P := fun g => Remembers g e.resets h)
        (fun _ _ _ _ _ hm hs => hm.setBase hs) _ payload hm
  cases hd with
  | created hg => exact Remembers.create hm hg
  | requested hc hg =>
    cases c with
    | connectToView t view =>
      cases hc
      exact Remembers.attachView hm hg
    | _ => cases hc <;> exact Remembers.request hm rfl hg
  | detached hg => exact Remembers.detachView hm hg
  | dropped hg => exact Remembers.request (r := .drop _ _) hm rfl (except_map_eq_ok.2 ⟨_, hg, rfl⟩)
  | restored hr =>
    rw [Engine.noted, hr]
    exact Remembers.restoreDefaults hm hr
  | @passed view event payload hw =>
    unfold Engine.noted
    dsimp only
    rw [if_pos hw]
    exact handed view event payload
  | @handed view event payload hw =>
    unfold Engine.noted
    dsimp only
    rw [if_neg (Bool.eq_false_iff.1 hw)]
    exact (handed view event payload).settled
  | _ => exact hm

/-- A command keeps what nodes remember. -/
theorem execute (hm : e.Recalls h) (c : Command κ) :
    (e.after (.execute c)).Recalls (e.executed h c) := by
  unfold executed
  rw [Engine.after]
  cases hx : e.execute c with
  | ok e' => exact hm.noted hx
  | error cause => exact hm

/-- Carrying out the commands that wait keeps what nodes remember. -/
theorem drainUpTo (hm : e.Recalls h) (limit : Nat) :
    (Engine.drainUpTo limit e).1.Recalls (drained limit e h) := by
  induction limit generalizing e h with
  | zero => exact hm
  | succ limit ih =>
    cases hq : e.queue with
    | nil =>
      rw [Engine.drainUpTo, drained, hq]
      exact hm
    | cons c rest =>
      rw [fst_drainUpTo_cons hq, drained, hq]
      exact ih (execute (e := { e with queue := rest }) hm c)

/-- The engine that hands out the updates of a frame still remembers. -/
theorem settled_moved (hm : e.Recalls h) (time : Float) :
    (e.drain.1.moved time).settle.1.Recalls
      ((e.drain.1.moved time).settled (drained e.commandLimit e h)) := by
  have hmoved : (e.drain.1.moved time).Recalls (drained e.commandLimit e h) :=
    DriverSet.write_induction (P := fun g => Remembers g e.drain.1.resets _)
      (fun _ _ _ _ _ hm hs => hm.setBase hs) (hm.drainUpTo e.commandLimit)
  exact hmoved.settled

/-- Every call keeps what nodes remember. -/
theorem after (hm : e.Recalls h) (c : Call κ) : (e.after c).Recalls (e.recorded h c) := by
  cases c with
  | execute c => exact hm.execute c
  | send c => exact hm
  | settle => exact hm.settled
  | drain => exact hm.drainUpTo e.commandLimit
  | frame time =>
    exact of_content ((Remembers.resetsDone (hm.settled_moved time)).takeUpdates _)
      (content_onFrame e time)

/-- The commands that a call carries out meet engines whose nodes remember. -/
theorem momentsOf (hm : e.Recalls h) (c : Call κ) :
    ∀ p ∈ e.momentsOf h c, p.1.Recalls p.2.1 := by
  have waiting : ∀ limit (e : Engine κ) h, e.Recalls h →
      ∀ p ∈ carriedOutWith limit e h, p.1.Recalls p.2.1 := by
    intro limit
    induction limit with
    | zero => exact fun _ _ _ p hp => absurd hp List.not_mem_nil
    | succ limit ih =>
      intro e h hm p hp
      rw [carriedOutWith] at hp
      split at hp
      · exact absurd hp List.not_mem_nil
      · next c rest _ =>
        have popped : Recalls { e with queue := rest } h := hm
        rcases List.mem_cons.1 hp with rfl | hp
        · exact popped
        · exact ih _ _ (popped.execute c) p hp
  cases c with
  | execute c =>
    intro p hp
    rw [List.mem_singleton.1 hp]
    exact hm
  | drain => exact waiting _ e h hm
  | frame time => exact waiting _ e h hm
  | send c => exact fun p hp => absurd hp List.not_mem_nil
  | settle => exact fun p hp => absurd hp List.not_mem_nil

end Recalls

/-- **In every run nodes remember what their views were given last.** -/
theorem recalls_afterAll (settings : Settings) (host : Host κ)
    (calls : List (Call κ)) :
    ((Engine.new settings host).afterAll [] calls).1.Recalls
      ((Engine.new settings host).afterAll [] calls).2 := by
  have new : (Engine.new settings host).Recalls [] := Remembers.empty
  generalize Engine.new settings host = e at new ⊢
  generalize ([] : History) = h at new ⊢
  induction calls generalizing e h with
  | nil => exact new
  | cons c calls ih => exact ih _ _ (new.after c)

end Engine

end MotionGraph
