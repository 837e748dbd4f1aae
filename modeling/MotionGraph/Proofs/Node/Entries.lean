import MotionGraph.Proofs.Graph.Evaluation
import MotionGraph.Proofs.Node.References

/-!
# The references of a node, written out

`Kind.entries` writes out what a kind holds of other nodes, entry by entry and in order; of an
expression it writes out the whole tree, as symbols in prefix order. `Kind.frame` is the rest, which
names no node. The two together leave out nothing but what a diff-clamp remembers
(`Kind.plan_eq_of_entries`); for expressions this is that prefix notation can be read in one way
only (`Expr.symbols_append_inj`).

So what forgetting a node does can be said entry by entry (`Kind.entries_forget`): entries that
name it go, except that a read in an expression becomes the number zero, and all others stay, in
their order and as they are.
-/

namespace MotionGraph

namespace Expr

/-- A symbol of a tree that is written in prefix order. -/
inductive Symbol where
  | fold (op : FoldOp) (arity : Nat)
  | unary (op : UnaryOp)
  | compare (op : CompareOp)
  | read (t : Tag)
  | number (x : Float)
  | cond
  | write (t : Tag)
  | block (length : Nat)

namespace Symbol

/-- The node that a symbol names. -/
def tag? : Symbol → Option Tag
  | .read t | .write t => some t
  | _ => none

/-- What remains of a symbol whose node is gone: zero of a read, nothing of a write. -/
def remainder : Symbol → Option Symbol
  | .read _ => some (.number 0.0)
  | _ => none

/-- What is left of a symbol without a node. -/
def without (t : Tag) (s : Symbol) : Option Symbol :=
  if s.tag? = some t then s.remainder else some s

end Symbol

mutual

/-- A tree in prefix order. -/
def symbols : Expr → List Symbol
  | .fold op operands => .fold op operands.length :: symbolsAll operands
  | .unary op e => .unary op :: symbols e
  | .compare op l r => .compare op :: (symbols l ++ symbols r)
  | .value tag => [.read tag]
  | .number x => [.number x]
  | .cond test yes no => .cond :: (symbols test ++ symbols yes ++ symbols no)
  | .set target source => .write target :: symbols source
  | .block steps => .block steps.length :: symbolsAll steps
termination_by structural e => e

/-- Several trees in prefix order. -/
def symbolsAll : List Expr → List Symbol
  | [] => []
  | e :: es => symbols e ++ symbolsAll es
termination_by structural es => es

end

mutual

/-- The symbols that name nodes are the namings of the tree. -/
theorem filterMap_tag?_symbols : ∀ e : Expr, e.symbols.filterMap Symbol.tag? = e.mentions
  | .fold op operands => filterMap_tag?_symbolsAll operands
  | .unary op e => filterMap_tag?_symbols e
  | .compare op l r => by
    simp only [symbols, mentions, List.filterMap_cons, Symbol.tag?, List.filterMap_append,
      filterMap_tag?_symbols l, filterMap_tag?_symbols r]
  | .value tag => rfl
  | .number x => rfl
  | .cond test yes no => by
    simp only [symbols, mentions, List.filterMap_cons, Symbol.tag?, List.filterMap_append,
      filterMap_tag?_symbols test, filterMap_tag?_symbols yes, filterMap_tag?_symbols no]
  | .set target source => by
    simp only [symbols, mentions, List.filterMap_cons, Symbol.tag?, filterMap_tag?_symbols source]
  | .block steps => filterMap_tag?_symbolsAll steps
termination_by structural e => e

/-- So it is for several trees. -/
theorem filterMap_tag?_symbolsAll : ∀ es : List Expr,
    (symbolsAll es).filterMap Symbol.tag? = mentionsAll es
  | [] => rfl
  | e :: es => by
    simp only [symbolsAll, mentionsAll, List.filterMap_append, filterMap_tag?_symbols e,
      filterMap_tag?_symbolsAll es]
termination_by structural es => es

end

/-- Forgetting a node removes no tree. -/
theorem length_forgetAll (t : Tag) : ∀ es : List Expr, (forgetAll t es).length = es.length
  | [] => rfl
  | _ :: es => congrArg (· + 1) (length_forgetAll t es)

mutual

/-- A tree forgets a node symbol by symbol. -/
theorem symbols_forget (t : Tag) : ∀ e : Expr,
    (e.forget t).symbols = e.symbols.filterMap (Symbol.without t)
  | .fold op operands => by
    simp [forget, symbols, length_forgetAll, Symbol.without, Symbol.tag?,
      symbolsAll_forgetAll t operands]
  | .unary op e => by
    simp [forget, symbols, Symbol.without, Symbol.tag?, symbols_forget t e]
  | .compare op l r => by
    simp [forget, symbols, Symbol.without, Symbol.tag?, symbols_forget t l, symbols_forget t r]
  | .value tag => by
    by_cases h : tag = t <;>
      simp [forget, symbols, Symbol.without, Symbol.tag?, Symbol.remainder, h]
  | .number x => rfl
  | .cond test yes no => by
    simp [forget, symbols, Symbol.without, Symbol.tag?, symbols_forget t test, symbols_forget t yes,
      symbols_forget t no]
  | .set target source => by
    by_cases h : target = t <;>
      simp [forget, symbols, Symbol.without, Symbol.tag?, Symbol.remainder, h,
        symbols_forget t source]
  | .block steps => by
    simp [forget, symbols, length_forgetAll, Symbol.without, Symbol.tag?,
      symbolsAll_forgetAll t steps]
termination_by structural e => e

/-- So do several trees. -/
theorem symbolsAll_forgetAll (t : Tag) : ∀ es : List Expr,
    symbolsAll (forgetAll t es) = (symbolsAll es).filterMap (Symbol.without t)
  | [] => rfl
  | e :: es => by
    simp only [forgetAll, symbolsAll, List.filterMap_append, symbols_forget t e,
      symbolsAll_forgetAll t es]
termination_by structural es => es

end

mutual

/-- Prefix notation can be read in one way only, whatever follows. -/
theorem symbols_append_inj : ∀ (e e' : Expr) (rest rest' : List Symbol),
    e.symbols ++ rest = e'.symbols ++ rest' → e = e' ∧ rest = rest'
  | .fold op es, e', rest, rest', h => by
    cases e' <;> simp only [symbols, List.cons_append, List.cons.injEq, reduceCtorEq, false_and,
      Symbol.fold.injEq] at h
    obtain ⟨⟨rfl, hl⟩, h⟩ := h
    obtain ⟨rfl, hr⟩ := symbolsAll_append_inj es _ rest rest' hl h
    exact ⟨rfl, hr⟩
  | .unary op e, e', rest, rest', h => by
    cases e' <;> simp only [symbols, List.cons_append, List.cons.injEq, reduceCtorEq, false_and,
      Symbol.unary.injEq] at h
    obtain ⟨rfl, h⟩ := h
    obtain ⟨rfl, hr⟩ := symbols_append_inj e _ rest rest' h
    exact ⟨rfl, hr⟩
  | .compare op l r, e', rest, rest', h => by
    cases e' <;> simp only [symbols, List.cons_append, List.cons.injEq, reduceCtorEq, false_and,
      Symbol.compare.injEq, List.append_assoc] at h
    obtain ⟨rfl, h⟩ := h
    obtain ⟨rfl, hl⟩ := symbols_append_inj l _ _ _ h
    obtain ⟨rfl, hr⟩ := symbols_append_inj r _ rest rest' hl
    exact ⟨rfl, hr⟩
  | .value tag, e', rest, rest', h => by
    cases e' <;> simp only [symbols, List.cons_append, List.cons.injEq, reduceCtorEq, false_and,
      Symbol.read.injEq, List.nil_append] at h
    obtain ⟨rfl, hr⟩ := h
    exact ⟨rfl, hr⟩
  | .number x, e', rest, rest', h => by
    cases e' <;> simp only [symbols, List.cons_append, List.cons.injEq, reduceCtorEq, false_and,
      Symbol.number.injEq, List.nil_append] at h
    obtain ⟨rfl, hr⟩ := h
    exact ⟨rfl, hr⟩
  | .cond test yes no, e', rest, rest', h => by
    cases e' <;> simp only [symbols, List.cons_append, List.cons.injEq, reduceCtorEq, false_and,
      true_and, List.append_assoc] at h
    obtain ⟨rfl, ht⟩ := symbols_append_inj test _ _ _ h
    obtain ⟨rfl, hy⟩ := symbols_append_inj yes _ _ _ ht
    obtain ⟨rfl, hr⟩ := symbols_append_inj no _ rest rest' hy
    exact ⟨rfl, hr⟩
  | .set target source, e', rest, rest', h => by
    cases e' <;> simp only [symbols, List.cons_append, List.cons.injEq, reduceCtorEq, false_and,
      Symbol.write.injEq] at h
    obtain ⟨rfl, h⟩ := h
    obtain ⟨rfl, hr⟩ := symbols_append_inj source _ rest rest' h
    exact ⟨rfl, hr⟩
  | .block es, e', rest, rest', h => by
    cases e' <;> simp only [symbols, List.cons_append, List.cons.injEq, reduceCtorEq, false_and,
      Symbol.block.injEq] at h
    obtain ⟨hl, h⟩ := h
    obtain ⟨rfl, hr⟩ := symbolsAll_append_inj es _ rest rest' hl h
    exact ⟨rfl, hr⟩
termination_by structural e => e

/-- So can as many trees as are expected. -/
theorem symbolsAll_append_inj : ∀ (es es' : List Expr) (rest rest' : List Symbol),
    es.length = es'.length → symbolsAll es ++ rest = symbolsAll es' ++ rest' →
      es = es' ∧ rest = rest'
  | [], es', rest, rest', hl, h => by
    obtain rfl : es' = [] := List.length_eq_zero_iff.1 hl.symm
    exact ⟨rfl, h⟩
  | e :: es, [], rest, rest', hl, h => nomatch hl
  | e :: es, e' :: es', rest, rest', hl, h => by
    simp only [symbolsAll, List.append_assoc] at h
    obtain ⟨rfl, he⟩ := symbols_append_inj e e' _ _ h
    obtain ⟨rfl, hr⟩ := symbolsAll_append_inj es es' rest rest' (Nat.succ.inj hl) he
    exact ⟨rfl, hr⟩
termination_by structural es => es

end

/-- A tree is known from its symbols. -/
theorem symbols_injective : Function.Injective symbols := fun e e' h =>
  (symbols_append_inj e e' [] [] (by simpa using h)).1

end Expr

/-! ### Entries -/

/-- One entry of what a kind holds of other nodes. -/
inductive Entry where
  /-- A property and the node that it is read from. -/
  | source (name : String) (t : Tag)
  /-- An operation of a transform. -/
  | operation (e : TransformEntry)
  /-- A node that is read. -/
  | input (t : Tag)
  /-- A node that is animated. -/
  | follower (t : Tag)
  /-- An expression node that is called. -/
  | callee (t : Tag)
  /-- A node that is read and one that receives its value. -/
  | binding (given receiver : Tag)
  /-- A symbol of an expression. -/
  | symbol (s : Expr.Symbol)

namespace Entry

/-- The nodes that an entry names. -/
def tags : Entry → List Tag
  | .source _ t | .input t | .follower t | .callee t => [t]
  | .operation e => e.operand.tag?.toList
  | .binding given receiver => [given, receiver]
  | .symbol s => s.tag?.toList

/-- What remains of an entry whose node is gone: what remains of a symbol, and nothing of others. -/
def remainder : Entry → Option Entry
  | .symbol s => s.remainder.map .symbol
  | _ => none

/-- What is left of an entry without a node. -/
def without (t : Tag) (e : Entry) : Option Entry := if t ∈ e.tags then e.remainder else some e

/-- What is left does not name the node. -/
theorem notMem_tags_of_without {t : Tag} {e e' : Entry} (h : e.without t = some e') :
    t ∉ e'.tags := by
  unfold without at h
  split at h
  · cases e with
    | symbol s =>
      cases s <;> cases h
      exact List.not_mem_nil
    | _ => cases h
  · next hn =>
    cases h
    exact hn

/-- A symbol stays an entry as it stays a symbol. -/
theorem without_symbol (t : Tag) (s : Expr.Symbol) :
    (Entry.symbol s).without t = (s.without t).map .symbol := by
  by_cases h : s.tag? = some t <;> simp [without, Expr.Symbol.without, tags, remainder, h]

/-- A test that passes what does not name the node, on things that are entries of which nothing else
remains. -/
theorem map_filter_eq {α : Type} {t : Tag} {f : α → Entry} {keep : α → Bool} (l : List α)
    (hf : ∀ a, (f a).remainder = none) (hk : ∀ a, keep a = true ↔ t ∉ (f a).tags) :
    (l.filter keep).map f = (l.map f).filterMap (without t) := by
  induction l with
  | nil => rfl
  | cons a l ih =>
    rw [List.map_cons, List.filterMap_cons, without, List.filter_cons]
    by_cases ht : t ∈ (f a).tags
    · rw [if_pos ht, hf, if_neg fun h => (hk a).1 h ht]
      exact ih
    · rw [if_neg ht, if_pos ((hk a).2 ht), List.map_cons, ih]

end Entry

namespace Kind

/-- What a kind holds of other nodes, in order. -/
def entries : Kind → List Entry
  | .value => []
  | .style sources => sources.toList.map fun e => .source e.1 e.2
  | .transform entries => entries.map .operation
  | .interpolation input _ => input.toList.map .input
  | .arithmetic _ inputs => inputs.map .input
  | .diffClamp input _ => input.toList.map .input
  | .tracking t => t.followed.toList.map .input ++ t.follower.toList.map .follower
  | .props p => p.sources.toList.map fun e => .source e.1 e.2
  | .expression tree => tree.symbols.map .symbol
  | .proc p => p.expression.toList.map .callee ++ p.bindings.map fun b => .binding b.1 b.2

/-- A kind without its entries and its memory. -/
def frame : Kind → Kind
  | .value => .value
  | .style _ => .style ∅
  | .transform _ => .transform []
  | .interpolation _ curve => .interpolation none curve
  | .arithmetic op _ => .arithmetic op []
  | .diffClamp _ clamp => .diffClamp none clamp.restart
  | .tracking t => .tracking { t with followed := none, follower := none }
  | .props p => .props { p with sources := ∅ }
  | .expression _ => .expression (.number 0.0)
  | .proc _ => .proc { expression := none, bindings := [] }

/-- The entries name the nodes that a kind refers to. -/
theorem mem_references_iff {t : Tag} {k : Kind} :
    t ∈ k.references ↔ ∃ e ∈ k.entries, t ∈ e.tags := by
  cases k with
  | expression tree =>
    simp only [references, reads, targets, List.append_nil, Expr.mem_tags, entries, List.mem_map,
      ← Expr.filterMap_tag?_symbols, List.mem_filterMap]
    constructor
    · rintro ⟨s, hs, ht⟩
      exact ⟨_, ⟨s, hs, rfl⟩, by simpa [Entry.tags] using ht⟩
    · rintro ⟨_, ⟨s, hs, rfl⟩, ht⟩
      exact ⟨s, hs, by simpa [Entry.tags] using ht⟩
  | tracking t =>
    simp [references, reads, targets, entries, Entry.tags, or_and_right, exists_or]
  | proc p =>
    constructor
    · intro h
      simp only [references, reads, targets, List.mem_append, List.mem_map] at h
      rcases h with (⟨b, hb, rfl⟩ | h) | ⟨b, hb, rfl⟩
      · exact ⟨_, List.mem_append_right _ (List.mem_map_of_mem hb), List.mem_cons_self⟩
      · exact ⟨_, List.mem_append_left _ (List.mem_map_of_mem h), List.mem_cons_self⟩
      · refine ⟨_, List.mem_append_right _ (List.mem_map_of_mem hb), ?_⟩
        exact List.mem_cons_of_mem _ List.mem_cons_self
    · rintro ⟨e, he, ht⟩
      simp only [references, reads, targets, List.mem_append, List.mem_map]
      rcases List.mem_append.1 he with he | he
      · obtain ⟨u, hu, rfl⟩ := List.mem_map.1 he
        obtain rfl : t = u := List.mem_singleton.1 ht
        exact .inl (.inr hu)
      · obtain ⟨b, hb, rfl⟩ := List.mem_map.1 he
        rcases List.mem_cons.1 ht with rfl | ht
        · exact .inl (.inl ⟨b, hb, rfl⟩)
        · exact .inr ⟨b, hb, (List.mem_singleton.1 ht).symm⟩
  | _ => simp [references, reads, targets, entries, Entry.tags, OrderedMap.values]

/-- What is left of one place for a node. -/
theorem map_clear {t : Tag} {f : Tag → Entry} (slot : Option Tag) (hf : ∀ u, (f u).remainder = none)
    (ht : ∀ u, (f u).tags = [u]) :
    (clear t slot).toList.map f = (slot.toList.map f).filterMap (Entry.without t) := by
  cases slot with
  | none => rfl
  | some u =>
    by_cases hu : u = t
    · simp [clear, hu, Entry.without, hf, ht]
    · simp [clear, hu, Entry.without, ht, Ne.symm hu]

/-- **A kind forgets a node entry by entry.** -/
theorem entries_forget (t : Tag) (k : Kind) :
    (k.forget t).entries = k.entries.filterMap (Entry.without t) := by
  cases k with
  | value => rfl
  | style sources =>
    exact Entry.map_filter_eq sources.toList (fun _ => rfl) fun e => by
      simp [Entry.tags, @eq_comm _ t]
  | transform entries =>
    exact Entry.map_filter_eq entries (fun _ => rfl) fun e => by simp [Entry.tags]
  | interpolation input curve => exact map_clear input (fun _ => rfl) fun _ => rfl
  | arithmetic op inputs =>
    exact Entry.map_filter_eq inputs (fun _ => rfl) fun u => by simp [Entry.tags, @eq_comm _ t]
  | diffClamp input clamp =>
    have cleared : ((diffClamp input clamp).forget t).entries =
        (clear t input).toList.map .input := by
      by_cases hi : input = some t <;> simp [forget, clear, hi, entries]
    rw [cleared]
    exact map_clear input (fun _ => rfl) fun _ => rfl
  | tracking tracking =>
    simp only [forget, entries, List.filterMap_append]
    rw [map_clear tracking.followed (fun _ => rfl) fun _ => rfl,
      map_clear tracking.follower (fun _ => rfl) fun _ => rfl]
  | props p =>
    exact Entry.map_filter_eq p.sources.toList (fun _ => rfl) fun e => by
      simp [Entry.tags, @eq_comm _ t]
  | expression tree =>
    simp only [forget, entries, Expr.symbols_forget, List.map_filterMap, List.filterMap_map]
    exact List.filterMap_congr fun s _ => (Entry.without_symbol t s).symm
  | proc p =>
    simp only [forget, entries, List.filterMap_append]
    rw [map_clear p.expression (fun _ => rfl) fun _ => rfl]
    congr 1
    exact Entry.map_filter_eq p.bindings (fun _ => rfl) fun b => by simp [Entry.tags, @eq_comm _ t]

/-- What a kind holds besides its entries and its memory it never forgets. -/
@[simp] theorem frame_forget (t : Tag) (k : Kind) : (k.forget t).frame = k.frame := by
  cases k with
  | diffClamp input clamp =>
    by_cases hi : input = some t <;> simp [forget, hi, frame, DiffClamp.restart]
  | _ => rfl

/-- Sources are known from their entries. -/
theorem sources_eq_of_entries {m m' : OrderedMap String Tag}
    (h : m.toList.map (fun e => Entry.source e.1 e.2) =
      m'.toList.map fun e => Entry.source e.1 e.2) : m = m' := by
  refine OrderedMap.ext (List.map_injective_iff.2 ?_ h)
  rintro ⟨name, t⟩ ⟨name', t'⟩ he
  cases he
  rfl

/-- The node in one place is known from its entry, whatever entries of another sort follow. -/
theorem slot_eq_of_entries {f : Tag → Entry} (hf : Function.Injective f) {slot slot' : Option Tag}
    {rest rest' : List Entry} (hr : ∀ u, f u ∉ rest) (hr' : ∀ u, f u ∉ rest')
    (h : slot.toList.map f ++ rest = slot'.toList.map f ++ rest') :
    slot = slot' ∧ rest = rest' := by
  cases slot with
  | none =>
    cases slot' with
    | none => exact ⟨rfl, h⟩
    | some u' =>
      have hrest : rest = f u' :: rest' := h
      exact absurd (hrest ▸ List.mem_cons_self) (hr u')
  | some u =>
    cases slot' with
    | none =>
      have hrest : f u :: rest = rest' := h
      exact absurd (hrest ▸ List.mem_cons_self) (hr' u)
    | some u' =>
      obtain ⟨hu, hrest⟩ := List.cons.inj h
      exact ⟨congrArg some (hf hu), hrest⟩

/-- **Entries and frame leave out nothing but memory.** -/
theorem plan_eq_of_entries {k k' : Kind} (hf : k.frame = k'.frame) (he : k.entries = k'.entries) :
    k.plan = k'.plan := by
  have hinput : Function.Injective Entry.input := fun _ _ h => Entry.input.inj h
  have one : ∀ {input input' : Option Tag},
      input.toList.map Entry.input = input'.toList.map Entry.input → input = input' := fun h =>
    (slot_eq_of_entries hinput (fun _ => List.not_mem_nil) (fun _ => List.not_mem_nil)
      (congrArg (· ++ []) h)).1
  cases k with
  | value =>
    cases k' <;> cases hf
    rfl
  | style sources =>
    cases k' <;> cases hf
    exact congrArg style (sources_eq_of_entries he)
  | transform entries =>
    cases k' <;> cases hf
    exact congrArg transform (List.map_injective_iff.2 (fun _ _ h => Entry.operation.inj h) he)
  | interpolation input curve =>
    cases k' <;> cases hf
    exact congrArg (interpolation · curve) (one he)
  | arithmetic op inputs =>
    cases k' <;> cases hf
    exact congrArg (arithmetic op) (List.map_injective_iff.2 hinput he)
  | diffClamp input clamp =>
    cases k' <;> simp only [frame, reduceCtorEq, diffClamp.injEq, true_and] at hf
    simp only [plan, hf, one he]
  | tracking t =>
    cases k' <;> simp only [frame, reduceCtorEq, tracking.injEq, Tracking.mk.injEq, true_and] at hf
    next t' =>
      obtain ⟨animation, followed, follower, template⟩ := t
      obtain ⟨animation', followed', follower', template'⟩ := t'
      obtain ⟨rfl, rfl⟩ := hf
      obtain ⟨rfl, he⟩ := slot_eq_of_entries hinput (fun _ => by simp) (fun _ => by simp) he
      obtain ⟨rfl, -⟩ := slot_eq_of_entries (fun _ _ h => Entry.follower.inj h)
        (fun _ => List.not_mem_nil) (fun _ => List.not_mem_nil) (congrArg (· ++ []) he)
      rfl
  | props p =>
    cases k' <;> simp only [frame, reduceCtorEq, props.injEq, Props.mk.injEq, true_and] at hf
    next p' =>
      obtain ⟨sources, view, lastSent⟩ := p
      obtain ⟨sources', view', lastSent'⟩ := p'
      obtain ⟨rfl, rfl⟩ := hf
      obtain rfl : sources = sources' := sources_eq_of_entries he
      rfl
  | expression tree =>
    cases k' <;> cases hf
    have hs : tree.symbols = _ := List.map_injective_iff.2 (fun _ _ h => Entry.symbol.inj h) he
    exact congrArg expression (Expr.symbols_injective hs)
  | proc p =>
    cases k' <;> cases hf
    next p' =>
      obtain ⟨expression, bindings⟩ := p
      obtain ⟨expression', bindings'⟩ := p'
      obtain ⟨rfl, he⟩ := slot_eq_of_entries (fun _ _ h => Entry.callee.inj h) (fun _ => by simp)
        (fun _ => by simp) he
      obtain rfl : bindings = bindings' := by
        refine List.map_injective_iff.2 ?_ he
        rintro ⟨given, receiver⟩ ⟨given', receiver'⟩ h
        cases h
        rfl
      rfl

end Kind

end MotionGraph
