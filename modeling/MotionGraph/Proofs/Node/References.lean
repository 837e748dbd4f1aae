import MotionGraph.Proofs.Graph.Evaluation
import MotionGraph.Proofs.Node.Inputs

/-!
# What a node refers to

`Kind.references` lists all nodes that a kind refers to. Whatever a kind acts on when it is computed
is among them: the nodes that an expression asks to be written (`Kind.mem_references_of_asks`) and
the one that a tracking node animates (`Kind.mem_references_of_requests`). Taking an input adds that
one reference (`Kind.mem_references_attach`), and a kind that has forgotten a node does not refer to
it any more, nor to a node that it did not refer to before (`Kind.mem_references_forget`).
-/

namespace MotionGraph

namespace Expr

/-! ### Expressions -/

mutual

/-- A tree that has forgotten a node mentions all others as before. -/
theorem mentions_forget (t : Tag) : ∀ e : Expr,
    (e.forget t).mentions = e.mentions.filter fun u => u ≠ t
  | .fold op operands => mentionsAll_forgetAll t operands
  | .unary op e => mentions_forget t e
  | .compare op l r => by
    simp only [forget, mentions, mentions_forget t l, mentions_forget t r, List.filter_append]
  | .value tag => by
    by_cases h : tag = t <;> simp [forget, mentions, h]
  | .number x => rfl
  | .cond test yes no => by
    simp only [forget, mentions, mentions_forget t test, mentions_forget t yes,
      mentions_forget t no, List.filter_append]
  | .set target source => by
    by_cases h : target = t <;> simp [forget, mentions, h, mentions_forget t source]
  | .block steps => mentionsAll_forgetAll t steps
termination_by structural e => e

/-- Nor do several trees lose another node. -/
theorem mentionsAll_forgetAll (t : Tag) : ∀ es : List Expr,
    mentionsAll (forgetAll t es) = (mentionsAll es).filter fun u => u ≠ t
  | [] => rfl
  | e :: es => by
    simp only [forgetAll, mentionsAll, mentions_forget t e, mentionsAll_forgetAll t es,
      List.filter_append]
termination_by structural es => es

end

variable {read : Tag → Option Float}

mutual

/-- What a tree asks to be written is mentioned in it. -/
theorem mem_mentions_of_eval {w : Tag × Float} : ∀ (e : Expr) (ws : Writes),
    w ∈ (e.eval read ws).2 → w ∈ ws ∨ w.1 ∈ e.mentions
  | .fold op operands, ws, h => mem_mentionsAll_of_evalFold op operands ws h
  | .unary op e, ws, h => mem_mentions_of_eval e ws h
  | .compare op l r, ws, h => by
    simp only [mentions, List.mem_append]
    rcases mem_mentions_of_eval r _ h with h | h
    · exact (mem_mentions_of_eval l ws h).imp id Or.inl
    · exact Or.inr (Or.inr h)
  | .value tag, ws, h => Or.inl h
  | .number x, ws, h => Or.inl h
  | .cond test yes no, ws, h => by
    have tested : w ∈ (test.eval read ws).2 → w ∈ ws ∨ w.1 ∈ test.mentions :=
      mem_mentions_of_eval test ws
    simp only [mentions, List.mem_append]
    simp only [eval] at h
    split at h
    · rcases mem_mentions_of_eval yes _ h with h | h
      · exact (tested h).imp id fun h => Or.inl (Or.inl h)
      · exact Or.inr (Or.inl (Or.inr h))
    · rcases mem_mentions_of_eval no _ h with h | h
      · exact (tested h).imp id fun h => Or.inl (Or.inl h)
      · exact Or.inr (Or.inr h)
  | .set target source, ws, h => by
    simp only [mentions, List.mem_cons]
    rcases List.mem_append.1 h with h | h
    · exact (mem_mentions_of_eval source ws h).imp id Or.inr
    · exact Or.inr (Or.inl (by rw [List.mem_singleton.1 h]))
  | .block steps, ws, h => mem_mentionsAll_of_evalSteps 0.0 steps ws h
termination_by structural e => e

/-- So is what an operator over its operands asks. -/
theorem mem_mentionsAll_of_evalFold {w : Tag × Float} (op : FoldOp) :
    ∀ (es : List Expr) (ws : Writes),
      w ∈ (evalFold read op es ws).2 → w ∈ ws ∨ w.1 ∈ mentionsAll es
  | [], ws, h => Or.inl h
  | e :: es, ws, h => by
    simp only [mentionsAll, List.mem_append]
    rcases mem_mentionsAll_of_evalRest op _ es _ h with h | h
    · exact (mem_mentions_of_eval e ws h).imp id Or.inl
    · exact Or.inr (Or.inr h)
termination_by structural es => es

/-- So is what an operator over further operands asks. -/
theorem mem_mentionsAll_of_evalRest {w : Tag × Float} (op : FoldOp) :
    ∀ (acc : Float) (es : List Expr) (ws : Writes),
      w ∈ (evalRest read op acc es ws).2 → w ∈ ws ∨ w.1 ∈ mentionsAll es
  | _, [], ws, h => Or.inl h
  | _, e :: es, ws, h => by
    simp only [mentionsAll, List.mem_append]
    rcases mem_mentionsAll_of_evalRest op _ es _ h with h | h
    · exact (mem_mentions_of_eval e ws h).imp id Or.inl
    · exact Or.inr (Or.inr h)
termination_by structural _ es => es

/-- So is what a sequence of steps asks. -/
theorem mem_mentionsAll_of_evalSteps {w : Tag × Float} :
    ∀ (last : Float) (es : List Expr) (ws : Writes),
      w ∈ (evalSteps read last es ws).2 → w ∈ ws ∨ w.1 ∈ mentionsAll es
  | _, [], ws, h => Or.inl h
  | _, e :: es, ws, h => by
    simp only [mentionsAll, List.mem_append]
    rcases mem_mentionsAll_of_evalSteps _ es _ h with h | h
    · exact (mem_mentions_of_eval e ws h).imp id Or.inl
    · exact Or.inr (Or.inr h)
termination_by structural _ es => es

end

/-- What an expression asks to be written is mentioned in it. -/
theorem mem_mentions_of_evaluate {e : Expr} {w : Tag × Float} (h : w ∈ (e.evaluate read).2) :
    w.1 ∈ e.mentions :=
  (mem_mentions_of_eval e [] h).resolve_left List.not_mem_nil

/-- The nodes that a tree names are those it mentions. -/
theorem mem_tags {e : Expr} {t : Tag} : t ∈ e.tags.toList ↔ t ∈ e.mentions := by
  rw [OrderedSet.mem_toList, tags, OrderedSet.mem_insertAll]
  exact or_iff_right List.not_mem_nil

end Expr

namespace Kind

/-! ### What a kind acts on -/

/-- What a kind asks to be written, it refers to. -/
theorem mem_references_of_asks {read : Tag → Option Float} {k : Kind} {w : Tag × Float}
    (h : w ∈ k.asks read) : w.1 ∈ k.references := by
  unfold asks at h
  split at h
  · exact List.mem_append_left _ (Expr.mem_tags.2 (Expr.mem_mentions_of_evaluate h))
  · cases h

/-- What a kind asks to be animated, it refers to. -/
theorem mem_references_of_requests {read : Tag → Option Float} {k : Kind} {r : TrackingRequest}
    (h : r ∈ k.requests read) : r.target ∈ k.references := by
  unfold requests at h
  split at h
  · next t =>
    split at h
    · next followed follower _ hf =>
      rw [List.mem_singleton.1 h]
      exact List.mem_append_right _ (by simp [targets, hf])
    · cases h
  · cases h

/-! ### Changes of references -/

/-- A slot that was cleared holds the other nodes that it held. -/
theorem mem_clear {t u : Tag} {slot : Option Tag} (h : u ∈ (clear t slot).toList) :
    u ∈ slot.toList ∧ u ≠ t := by
  unfold clear at h
  split at h
  · cases h
  · next hs =>
    refine ⟨h, ?_⟩
    rintro rfl
    exact hs (by simpa using h)

/-- Entries that pass a test on what they name name what all name, and pass it. -/
theorem mem_values_filter {α : Type} {m : OrderedMap α Tag} {t u : Tag}
    (h : u ∈ (m.filter fun _ v => v ≠ t).values) : u ∈ m.values ∧ u ≠ t := by
  obtain ⟨e, he, rfl⟩ := List.mem_map.1 h
  obtain ⟨he, hne⟩ := List.mem_filter.1 he
  exact ⟨List.mem_map_of_mem he, by simpa using hne⟩

/-- A kind that has forgotten a node refers to others only, and to none that it did not refer to. -/
theorem mem_references_forget {t u : Tag} {k : Kind} (h : u ∈ (k.forget t).references) :
    u ∈ k.references ∧ u ≠ t := by
  simp only [references, List.mem_append] at h ⊢
  cases k with
  | value => simp [forget, reads, targets] at h
  | style sources =>
    rcases h with h | h
    · exact (mem_values_filter h).imp Or.inl id
    · cases h
  | transform entries =>
    rcases h with h | h
    · obtain ⟨e, he, hu⟩ := List.mem_filterMap.1 h
      obtain ⟨he, hne⟩ := List.mem_filter.1 he
      refine ⟨Or.inl (List.mem_filterMap.2 ⟨e, he, hu⟩), ?_⟩
      rintro rfl
      simp [hu] at hne
    · cases h
  | interpolation input curve =>
    rcases h with h | h
    · exact (mem_clear h).imp Or.inl id
    · cases h
  | arithmetic op inputs =>
    rcases h with h | h
    · obtain ⟨h, hne⟩ := List.mem_filter.1 h
      exact ⟨Or.inl h, by simpa using hne⟩
    · cases h
  | diffClamp input clamp =>
    by_cases hi : input = some t
    · simp [forget, hi, reads, targets] at h
    · simp only [forget, hi, if_false] at h
      refine ⟨h, ?_⟩
      rintro rfl
      rcases h with h | h
      · exact hi (by simpa [reads] using h)
      · cases h
  | tracking t =>
    rcases h with h | h
    · exact (mem_clear h).imp Or.inl id
    · exact (mem_clear h).imp Or.inr id
  | props p =>
    rcases h with h | h
    · exact (mem_values_filter h).imp Or.inl id
    · cases h
  | expression tree =>
    rcases h with h | h
    · rw [forget, reads, Expr.mem_tags, Expr.mentions_forget, List.mem_filter] at h
      exact ⟨Or.inl (Expr.mem_tags.2 h.1), by simpa using h.2⟩
    · cases h
  | proc p =>
    simp only [forget, reads, targets, List.mem_append] at h ⊢
    rcases h with (h | h) | h
    · obtain ⟨b, hb, rfl⟩ := List.mem_map.1 h
      obtain ⟨hb, hne⟩ := List.mem_filter.1 hb
      rw [Bool.and_eq_true, decide_eq_true_eq] at hne
      exact ⟨Or.inl (Or.inl (List.mem_map_of_mem hb)), hne.1⟩
    · exact (mem_clear h).imp (fun h => Or.inl (Or.inr h)) id
    · obtain ⟨b, hb, rfl⟩ := List.mem_map.1 h
      obtain ⟨hb, hne⟩ := List.mem_filter.1 hb
      rw [Bool.and_eq_true, decide_eq_true_eq, decide_eq_true_eq] at hne
      exact ⟨Or.inr (List.mem_map_of_mem hb), hne.2⟩

/-- A kind that takes an input refers to nothing else that it did not refer to. -/
theorem mem_references_attach {child u : Tag} {k : Kind} (h : u ∈ (k.attach child).references) :
    u ∈ k.references ∨ u = child := by
  simp only [references, List.mem_append] at h ⊢
  fun_cases attach child k with
  | case1 op inputs =>
    simp only [attach, reads, targets, List.not_mem_nil, or_false] at h ⊢
    split at h
    · exact Or.inl h
    · simpa using h
  | case2 curve => simpa [attach, reads, targets] using h
  | case3 clamp => simpa [attach, reads, targets] using h
  | case4 t =>
    simp only [attach, reads, targets] at h ⊢
    cases hf : t.followed with
    | none => simpa [hf, or_comm] using h
    | some followed => simpa [hf] using Or.inl h
  | case5 k h₁ h₂ h₃ h₄ =>
    have same : k.attach child = k := by
      unfold attach
      split <;> simp_all
    rw [same] at h
    exact Or.inl h

/-- Taking an input does not decide whether there is a number to set. -/
@[simp] theorem holdsValue_attach (child : Tag) (k : Kind) :
    (k.attach child).holdsValue = k.holdsValue := by
  fun_cases attach child k <;> rfl

/-- Forgetting a node does not decide whether there is a number to set. -/
@[simp] theorem holdsValue_forget (child : Tag) (k : Kind) :
    (k.forget child).holdsValue = k.holdsValue := by
  fun_cases forget child k <;> simp_all [holdsValue]

end Kind

end MotionGraph
