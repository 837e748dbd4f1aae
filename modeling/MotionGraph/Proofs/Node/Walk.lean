import MotionGraph.Proofs.Node.Inputs

/-!
# Walking an expression over a store

`Expr.walk` walks a tree from left to right over a store of any kind, given how nodes are read from
it and written into it (`Access`). Evaluation is the walk over the list of writes asked for so far
(`eval_eq_walk`).

The walk is built from its reads and writes by doing one thing after the other, so two facts
about it follow from the same facts about single reads and writes: what the writes of a tree
keep, its walk keeps (`keeps_walk`); and walks over two stores agree if the stores stay
related (`agrees_walk`).
-/

namespace MotionGraph

/-- How nodes are read from a store and written into it. -/
structure Access (σ : Type) where
  read : σ → Tag → Float
  write : σ → Tag → Float → σ

namespace Expr

mutual

/-- The nodes that a tree writes into, a node as often as it is written. -/
def targets : Expr → List Tag
  | .fold _ operands => targetsAll operands
  | .unary _ e => targets e
  | .compare _ l r => targets l ++ targets r
  | .value _ => []
  | .number _ => []
  | .cond test yes no => targets test ++ targets yes ++ targets no
  | .set target source => target :: targets source
  | .block steps => targetsAll steps
termination_by structural e => e

/-- The nodes that several trees write into. -/
def targetsAll : List Expr → List Tag
  | [] => []
  | e :: es => targets e ++ targetsAll es
termination_by structural es => es

end

variable {σ τ : Type}

mutual

/-- The value of an expression over a store that is read and written on the way. -/
def walk (a : Access σ) : Expr → StateM σ Float
  | .fold op operands => walkFold a op operands
  | .unary op e => do
    let x ← walk a e
    pure (op.apply x)
  | .compare op l r => do
    let x ← walk a l
    let y ← walk a r
    pure (op.apply x y)
  | .value tag => fun s => (a.read s tag, s)
  | .number x => pure x
  | .cond test yes no => do
    let x ← walk a test
    if isTrue x then walk a yes else walk a no
  | .set target source => do
    let x ← walk a source
    fun s => (x, a.write s target x)
  | .block steps => walkAll a (fun _ x => x) 0.0 steps
termination_by structural e => e

/-- The value of an operator over its operands. -/
def walkFold (a : Access σ) (op : FoldOp) : List Expr → StateM σ Float
  | [] => pure 0.0
  | e :: es => do
    let x ← walk a e
    walkAll a op.apply x es
termination_by structural es => es

/-- The values of several trees, each combined with the value so far. -/
def walkAll (a : Access σ) (f : Float → Float → Float) (acc : Float) :
    List Expr → StateM σ Float
  | [] => pure acc
  | e :: es => do
    let x ← walk a e
    walkAll a f (f acc x) es
termination_by structural es => es

end

/-! ### Evaluation is a walk -/

/-- Writes asked for so far as a store: reads see the last of them, or else the nodes. -/
def overlay (read : Tag → Option Float) : Access Writes where
  read ws t := readThrough read ws t
  write ws t x := ws ++ [(t, x)]

mutual

/-- Evaluating a tree is walking it over the writes asked for. -/
theorem eval_eq_walk (read : Tag → Option Float) : ∀ (e : Expr) (ws : Writes),
    e.eval read ws = (e.walk (overlay read)).run ws
  | .fold op operands, ws => evalFold_eq_walkFold read op operands ws
  | .unary op e, ws => by
    simp only [eval, eval_eq_walk read e]
    rfl
  | .compare op l r, ws => by
    simp only [eval, eval_eq_walk read l, eval_eq_walk read r]
    rfl
  | .value tag, ws => rfl
  | .number x, ws => rfl
  | .cond test yes no, ws => by
    simp only [eval, eval_eq_walk read test, eval_eq_walk read yes, eval_eq_walk read no]
    show (if isTrue ((test.walk (overlay read)).run ws).1 then _ else _) =
      (if isTrue ((test.walk (overlay read)).run ws).1 then yes.walk (overlay read)
        else no.walk (overlay read)).run ((test.walk (overlay read)).run ws).2
    split <;> rfl
  | .set target source, ws => by
    simp only [eval, eval_eq_walk read source]
    rfl
  | .block steps, ws => evalSteps_eq_walkAll read 0.0 steps ws
termination_by structural e => e

/-- So is evaluating an operator over its operands. -/
theorem evalFold_eq_walkFold (read : Tag → Option Float) (op : FoldOp) :
    ∀ (es : List Expr) (ws : Writes),
      evalFold read op es ws = (walkFold (overlay read) op es).run ws
  | [], ws => rfl
  | e :: es, ws => by
    simp only [evalFold, eval_eq_walk read e, evalRest_eq_walkAll read op]
    rfl
termination_by structural es => es

/-- So is evaluating an operator over further operands. -/
theorem evalRest_eq_walkAll (read : Tag → Option Float) (op : FoldOp) :
    ∀ (acc : Float) (es : List Expr) (ws : Writes),
      evalRest read op acc es ws = (walkAll (overlay read) op.apply acc es).run ws
  | acc, [], ws => rfl
  | acc, e :: es, ws => by
    simp only [evalRest, eval_eq_walk read e, evalRest_eq_walkAll read op _ es]
    rfl
termination_by structural _ es => es

/-- So is evaluating a sequence of steps. -/
theorem evalSteps_eq_walkAll (read : Tag → Option Float) :
    ∀ (last : Float) (es : List Expr) (ws : Writes),
      evalSteps read last es ws = (walkAll (overlay read) (fun _ x => x) last es).run ws
  | last, [], ws => rfl
  | last, e :: es, ws => by
    simp only [evalSteps, eval_eq_walk read e, evalSteps_eq_walkAll read _ es]
    rfl
termination_by structural _ es => es

end

/-! ### What a walk keeps -/

/-- Whether an action keeps a property of the store. -/
def Keeps (P : σ → Prop) (m : StateM σ Float) : Prop := ∀ s, P s → P (m.run s).2

/-- Without action nothing is lost. -/
theorem Keeps.pure {P : σ → Prop} (x : Float) : Keeps P (Pure.pure x) := fun _ hs => hs

/-- One action after the other keeps what both keep. -/
theorem Keeps.bind {P : σ → Prop} {m : StateM σ Float} {k : Float → StateM σ Float}
    (hm : Keeps P m) (hk : ∀ x, Keeps P (k x)) : Keeps P (m >>= k) :=
  fun s hs => hk _ _ (hm s hs)

section Keeps

variable {a : Access σ} {P : σ → Prop}

mutual

/-- **What the writes of a tree keep, its walk keeps.** -/
theorem keeps_walk : ∀ e : Expr, (∀ t ∈ e.targets, ∀ s x, P s → P (a.write s t x)) →
    Keeps P (e.walk a)
  | .fold op operands, h => keeps_walkFold op operands h
  | .unary op e, h => (keeps_walk e h).bind fun _ => .pure _
  | .compare op l r, h =>
    (keeps_walk l fun t ht => h t (List.mem_append_left _ ht)).bind fun _ =>
      (keeps_walk r fun t ht => h t (List.mem_append_right _ ht)).bind fun _ => .pure _
  | .value tag, _ => fun _ hs => hs
  | .number x, _ => .pure x
  | .cond test yes no, h => by
    refine (keeps_walk test fun t ht => h t (by simp [targets, ht])).bind fun x => ?_
    split
    · exact keeps_walk yes fun t ht => h t (by simp [targets, ht])
    · exact keeps_walk no fun t ht => h t (by simp [targets, ht])
  | .set target source, h =>
    (keeps_walk source fun t ht => h t (List.mem_cons_of_mem _ ht)).bind fun x s hs =>
      h target List.mem_cons_self s x hs
  | .block steps, h => keeps_walkAll (fun _ x => x) 0.0 steps h
termination_by structural e => e

/-- So does the walk of an operator over its operands. -/
theorem keeps_walkFold (op : FoldOp) : ∀ es : List Expr,
    (∀ t ∈ targetsAll es, ∀ s x, P s → P (a.write s t x)) → Keeps P (walkFold a op es)
  | [], _ => .pure 0.0
  | e :: es, h =>
    (keeps_walk e fun t ht => h t (List.mem_append_left _ ht)).bind fun x =>
      keeps_walkAll op.apply x es fun t ht => h t (List.mem_append_right _ ht)
termination_by structural es => es

/-- So does the walk of several trees. -/
theorem keeps_walkAll (f : Float → Float → Float) : ∀ (acc : Float) (es : List Expr),
    (∀ t ∈ targetsAll es, ∀ s x, P s → P (a.write s t x)) → Keeps P (walkAll a f acc es)
  | acc, [], _ => .pure acc
  | acc, e :: es, h =>
    (keeps_walk e fun t ht => h t (List.mem_append_left _ ht)).bind fun x =>
      keeps_walkAll f (f acc x) es fun t ht => h t (List.mem_append_right _ ht)
termination_by structural _ es => es

end

end Keeps

/-- What a tree asks to be written goes to its targets. -/
theorem mem_targets_of_evaluate {read : Tag → Option Float} {e : Expr} {w : Tag × Float}
    (h : w ∈ (e.evaluate read).2) : w.1 ∈ e.targets := by
  have hk : Keeps (fun ws => ∀ w ∈ ws, w.1 ∈ e.targets) (e.walk (overlay read)) := by
    refine keeps_walk e fun t ht ws x hws w hw => ?_
    rcases List.mem_append.1 hw with hw | hw
    · exact hws w hw
    · rw [List.mem_singleton.1 hw]
      exact ht
  rw [evaluate, eval_eq_walk] at h
  exact hk [] (fun w hw => absurd hw List.not_mem_nil) w h

/-! ### Walks over two stores -/

/-- Whether two actions on stores agree as long as the first store stays good: they give the same
value, and related stores stay related. A store that has gone bad does not recover. -/
structure Agrees (good : σ → Prop) (R : σ → τ → Prop) (m : StateM σ Float) (n : StateM τ Float) :
    Prop where
  back : ∀ s, good (m.run s).2 → good s
  same : ∀ s s', R s s' → good (m.run s).2 →
    (n.run s').1 = (m.run s).1 ∧ R (m.run s).2 (n.run s').2

namespace Agrees

variable {good : σ → Prop} {R : σ → τ → Prop}

/-- The same value without action. -/
theorem pure (x : Float) : Agrees good R (Pure.pure x) (Pure.pure x) where
  back _ hs := hs
  same _ _ hR _ := ⟨rfl, hR⟩

/-- Actions that agree one after the other. -/
theorem bind {m : StateM σ Float} {n : StateM τ Float} {k : Float → StateM σ Float}
    {l : Float → StateM τ Float} (hm : Agrees good R m n) (hk : ∀ x, Agrees good R (k x) (l x)) :
    Agrees good R (m >>= k) (n >>= l) where
  back s hs := hm.back s ((hk _).back _ hs)
  same s s' hR hs := by
    obtain ⟨hx, hR'⟩ := hm.same s s' hR ((hk _).back _ hs)
    show ((l (n.run s').1).run (n.run s').2).1 = ((k (m.run s).1).run (m.run s).2).1 ∧
      R ((k (m.run s).1).run (m.run s).2).2 ((l (n.run s').1).run (n.run s').2).2
    rw [hx]
    exact (hk _).same _ _ hR' hs

end Agrees

/-- What makes the walks over two stores agree, for trees that read and write given nodes:
the second store answers as the first does and stays related to it under a write, as long
as the first is good. -/
structure Simulates (a : Access σ) (b : Access τ) (good : σ → Prop) (R : σ → τ → Prop)
    (leaves targets : List Tag) : Prop where
  back : ∀ t ∈ targets, ∀ s x, good (a.write s t x) → good s
  read : ∀ t ∈ leaves, ∀ s s', R s s' → good s → b.read s' t = a.read s t
  write : ∀ t ∈ targets, ∀ s s' x,
    R s s' → good (a.write s t x) → R (a.write s t x) (b.write s' t x)

section Agrees

variable {a : Access σ} {b : Access τ} {good : σ → Prop} {R : σ → τ → Prop}

/-- Fewer nodes to read and write. -/
theorem Simulates.mono {ls ls' ts ts' : List Tag} (h : Simulates a b good R ls ts)
    (hl : ls' ⊆ ls) (ht : ts' ⊆ ts) : Simulates a b good R ls' ts' where
  back t hm := h.back t (ht hm)
  read t hm := h.read t (hl hm)
  write t hm := h.write t (ht hm)

mutual

/-- **Walks over two stores agree** if the stores stay related under the reads and writes of the
tree. -/
theorem agrees_walk : ∀ e : Expr, Simulates a b good R e.leaves e.targets →
    Agrees good R (e.walk a) (e.walk b)
  | .fold op operands, h => agrees_walkFold op operands h
  | .unary op e, h => (agrees_walk e h).bind fun _ => .pure _
  | .compare op l r, h =>
    (agrees_walk l (h.mono (List.subset_append_left _ _) (List.subset_append_left _ _))).bind
      fun _ =>
      (agrees_walk r (h.mono (List.subset_append_right _ _) (List.subset_append_right _ _))).bind
        fun _ => .pure _
  | .value tag, h =>
    { back := fun _ hs => hs
      same := fun s s' hR hs => ⟨h.read tag List.mem_cons_self s s' hR hs, hR⟩ }
  | .number x, _ => .pure x
  | .cond test yes no, h => by
    refine (agrees_walk test (h.mono ?_ ?_)).bind fun x => ?_
    · exact fun t ht => by simp [leaves, ht]
    · exact fun t ht => by simp [targets, ht]
    · split
      · exact agrees_walk yes (h.mono (fun t ht => by simp [leaves, ht]) fun t ht => by
          simp [targets, ht])
      · exact agrees_walk no (h.mono (fun t ht => by simp [leaves, ht]) fun t ht => by
          simp [targets, ht])
  | .set target source, h =>
    (agrees_walk source (h.mono (fun _ ht => ht) (List.subset_cons_self _ _))).bind fun x =>
      { back := fun s => h.back target List.mem_cons_self s x
        same := fun s s' hR hs => ⟨rfl, h.write target List.mem_cons_self s s' x hR hs⟩ }
  | .block steps, h => agrees_walkAll (fun _ x => x) 0.0 steps h
termination_by structural e => e

/-- So do the walks of an operator over its operands. -/
theorem agrees_walkFold (op : FoldOp) : ∀ es : List Expr,
    Simulates a b good R (leavesAll es) (targetsAll es) →
      Agrees good R (walkFold a op es) (walkFold b op es)
  | [], _ => .pure 0.0
  | e :: es, h =>
    (agrees_walk e (h.mono (List.subset_append_left _ _) (List.subset_append_left _ _))).bind
      fun x =>
      agrees_walkAll op.apply x es
        (h.mono (List.subset_append_right _ _) (List.subset_append_right _ _))
termination_by structural es => es

/-- So do the walks of several trees. -/
theorem agrees_walkAll (f : Float → Float → Float) : ∀ (acc : Float) (es : List Expr),
    Simulates a b good R (leavesAll es) (targetsAll es) →
      Agrees good R (walkAll a f acc es) (walkAll b f acc es)
  | acc, [], _ => .pure acc
  | acc, e :: es, h =>
    (agrees_walk e (h.mono (List.subset_append_left _ _) (List.subset_append_left _ _))).bind
      fun x =>
      agrees_walkAll f (f acc x) es
        (h.mono (List.subset_append_right _ _) (List.subset_append_right _ _))
termination_by structural _ es => es

end

end Agrees

/-- **A walk over a store that follows the writes is evaluation**: if the store is a function of the
writes so far, and reads of it answer as evaluation does as long as the writes meet some condition,
then a tree whose writes all meet it has the value that evaluation gives it, and leaves the store of
all its writes. -/
theorem run_walk_eq {b : Access τ} {read : Tag → Option Float} {e : Expr} (store : Writes → τ)
    (P : Tag × Float → Prop)
    (hread : ∀ t ∈ e.leaves, ∀ ws, (∀ w ∈ ws, P w) → b.read (store ws) t = readThrough read ws t)
    (hwrite : ∀ ws t x, b.write (store ws) t x = store (ws ++ [(t, x)]))
    (hP : ∀ w ∈ (e.evaluate read).2, P w) :
    (e.walk b).run (store []) = ((e.evaluate read).1, store (e.evaluate read).2) := by
  have hs : Simulates (overlay read) b (fun ws => ∀ w ∈ ws, P w) (fun ws s => s = store ws)
      e.leaves e.targets := by
    refine ⟨?_, ?_, ?_⟩
    · exact fun t _ ws x h w hw => h w (List.mem_append_left _ hw)
    · rintro t ht ws _ rfl hws
      exact hread t ht ws hws
    · rintro t _ ws _ x rfl _
      exact hwrite ws t x
  rw [evaluate, eval_eq_walk] at hP ⊢
  obtain ⟨hx, hst⟩ := (agrees_walk e hs).same [] _ rfl hP
  exact Prod.ext hx hst

end Expr

end MotionGraph
