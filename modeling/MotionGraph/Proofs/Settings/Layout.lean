import MotionGraph.Settings.Token

/-!
# Layouts of a settings text

`Laid ts text` says that a text has certain tokens, laid out in any way: between two tokens stands
any gap of blanks and comments, also none, unless a word would run on or a bracket be closed at
once. The reader finds exactly these tokens (`tokens?_of_laid`).

A gap is made of blanks, of comments to the end of a line and of comments between marks, which hold
further comments of their kind (`Gap`, `Inside`). The reader is followed piece by piece: what it
does with a gap and with a token depends on what it has read before only through the tokens so far.
-/

namespace MotionGraph.Settings

open Scan

/-! ### Gaps -/

/-- Whether two characters are the mark at the beginning or at the end of a comment. -/
def isMark (a b : Char) : Bool := (a = '/' && b = '*') || (a = '*' && b = '/')

/-- What a comment between marks holds: comments of its kind, and characters that make no mark with
what comes next, be it the star of the mark at the end. -/
inductive Inside : List Char → Prop
  | nil : Inside []
  | char {c : Char} {cs : List Char} (next : ∀ d ∈ (cs ++ ['*']).head?, isMark c d = false)
      (rest : Inside cs) : Inside (c :: cs)
  | nested {inner cs : List Char} (comment : Inside inner) (rest : Inside cs) :
      Inside ('/' :: '*' :: (inner ++ '*' :: '/' :: cs))

/-- What stands between tokens. -/
inductive Gap : List Char → Prop
  | nil : Gap []
  | blank {c : Char} {cs : List Char} (blank : isBlank c = true) (rest : Gap cs) : Gap (c :: cs)
  | line {text cs : List Char} (within : '\n' ∉ text) (rest : Gap cs) :
      Gap ('/' :: '/' :: (text ++ '\n' :: cs))
  | block {inner cs : List Char} (comment : Inside inner) (rest : Gap cs) :
      Gap ('/' :: '*' :: (inner ++ '*' :: '/' :: cs))

/-! ### Layouts -/

/-- The character that a token is, if it is a bracket, a comma or a colon. -/
def mark? : Token → Option Char
  | .open .round => some '('
  | .close .round => some ')'
  | .open .square => some '['
  | .close .square => some ']'
  | .open .curly => some '\x7b'
  | .close .curly => some '\x7d'
  | .comma => some ','
  | .colon => some ':'
  | _ => none

/-- Whether a text is a word. -/
def IsWord (w : List Char) : Prop := w ≠ [] ∧ ∀ c ∈ w, isWordChar c = true

instance (w : List Char) : Decidable (IsWord w) :=
  decidable_of_iff ((!w.isEmpty && w.all isWordChar) = true) (by simp [IsWord])

/-- Whether a word ends in front of a character, and no quoted literal begins there. -/
def endsWord (c : Char) : Bool := !isWordChar c && c != '"' && c != '\''

/-- Whether a text has certain tokens, in any layout. There are no quoted literals. -/
inductive Laid : List Token → List Char → Prop
  | nil {gap : List Char} (between : Gap gap) : Laid [] gap
  /-- A comment that ends with the text. -/
  | comment {gap text : List Char} (between : Gap gap) (within : '\n' ∉ text) :
      Laid [] (gap ++ '/' :: '/' :: text)
  /-- A bracket, a comma or a colon. Something other than its counterpart follows an open round
  bracket. -/
  | mark {gap cs : List Char} {t : Token} {c : Char} {ts : List Token} (between : Gap gap)
      (spelled : mark? t = some c) (opens : c = '(' → ∃ d, cs.head? = some d ∧ d ≠ ')')
      (rest : Laid ts cs) : Laid (t :: ts) (gap ++ c :: cs)
  | unit {gap cs : List Char} {ts : List Token} (between : Gap gap) (rest : Laid ts cs) :
      Laid (.unit :: ts) (gap ++ '(' :: ')' :: cs)
  /-- A word, which ends where it has to. -/
  | word {gap w cs : List Char} {ts : List Token} (between : Gap gap) (spelled : IsWord w)
      (ends : ∀ c ∈ cs.head?, endsWord c = true) (rest : Laid ts cs) :
      Laid (.word w :: ts) (gap ++ (w ++ cs))

/-! ### Reading gaps -/

namespace Scan

/-- The tokens found by reading on to the end of a text. -/
def read? (s : State) (cs : List Char) : Option (List Token) := (cs.foldlM step s).bind finish

variable {ts : List Token} {cs : List Char}

/-- Reading a character. -/
theorem read?_cons {s s' : State} {c : Char} (h : step s c = some s') (cs : List Char) :
    read? s (c :: cs) = read? s' cs := by
  rw [read?, List.foldlM_cons, h]
  rfl

/-- A character in a comment that makes no mark with the one before. -/
theorem step_block {last : Option Char} {c : Char} (h : ∀ a ∈ last, isMark a c = false)
    (depth : Nat) (ts : List Token) :
    step ⟨.block depth last, ts⟩ c = some ⟨.block depth (some c), ts⟩ := by
  have hends : (last = some '*' && c = '/') = false := by
    cases last with
    | none => rfl
    | some a => have := h a rfl; simp_all [isMark]
  have hbegins : (last = some '/' && c = '*') = false := by
    cases last with
    | none => rfl
    | some a => have := h a rfl; simp_all [isMark]
  simp only [step, hends, hbegins]
  rfl

/-- Reading a character between tokens. -/
theorem read?_enter {ts : List Token} {s : State} {c : Char} (h : enter ts c = s) (cs : List Char) :
    read? ⟨.between, ts⟩ (c :: cs) = read? s cs :=
  have hstep : step ⟨.between, ts⟩ c = some s := congrArg some h
  read?_cons hstep cs

/-- Reading the inside of a comment and the mark behind it. What was read last makes no mark
with what comes next. -/
theorem read?_inside {inner : List Char} (h : Inside inner) {depth : Nat} (hd : 0 < depth)
    {last : Option Char} (hl : ∀ a ∈ last, ∀ c ∈ (inner ++ ['*']).head?, isMark a c = false)
    (ts : List Token) (cs : List Char) :
    read? ⟨.block depth last, ts⟩ (inner ++ '*' :: '/' :: cs) =
      read? ⟨if depth ≤ 1 then .between else .block (depth - 1) none, ts⟩ cs := by
  induction h generalizing depth last cs with
  | nil =>
    rw [List.nil_append, read?_cons (step_block (fun a ha => hl a ha '*' rfl) depth ts)]
    exact read?_cons rfl cs
  | @char c rest next _ ih =>
    rw [List.cons_append, read?_cons (step_block (fun a ha => hl a ha c rfl) depth ts)]
    exact ih hd (fun a ha d hd => by cases ha; exact next d hd) cs
  | @nested inner rest _ _ ih ih' =>
    have hopen : step ⟨.block depth (some '/'), ts⟩ '*' = some ⟨.block (depth + 1) none, ts⟩ := rfl
    rw [List.cons_append, List.cons_append, List.append_assoc,
      read?_cons (step_block (fun a ha => hl a ha '/' rfl) depth ts), read?_cons hopen,
      List.cons_append, List.cons_append, ih (Nat.succ_pos depth) (fun _ ha => by cases ha),
      if_neg (by omega)]
    exact ih' hd (fun _ ha => by cases ha) cs

/-- Reading a line from two slashes on. -/
theorem read?_line {text : List Char} (h : '\n' ∉ text) (ts : List Token) (cs : List Char) :
    read? ⟨.line, ts⟩ (text ++ cs) = read? ⟨.line, ts⟩ cs := by
  induction text with
  | nil => rfl
  | cons c text ih =>
    have hc : c ≠ '\n' := fun he => h (he ▸ List.mem_cons_self)
    have hstep : step ⟨.line, ts⟩ c = some ⟨.line, ts⟩ := by simp only [step, if_neg hc]
    rw [List.cons_append, read?_cons hstep]
    exact ih fun hmem => h (List.mem_cons_of_mem c hmem)

/-- A blank between tokens. -/
theorem enter_of_isBlank {c : Char} (h : isBlank c = true) (ts : List Token) :
    enter ts c = ⟨.between, ts⟩ := by
  unfold enter
  split <;> first | exact absurd h (by decide) | exact if_pos h

/-- **A gap is passed over.** -/
theorem read?_gap {gap : List Char} (h : Gap gap) (ts : List Token) (cs : List Char) :
    read? ⟨.between, ts⟩ (gap ++ cs) = read? ⟨.between, ts⟩ cs := by
  induction h with
  | nil => rfl
  | @blank c rest hb _ ih =>
    rw [List.cons_append, read?_enter (enter_of_isBlank hb ts), ih]
  | @line text rest hw _ ih =>
    rw [List.cons_append, List.cons_append, List.append_assoc, read?_cons rfl, read?_cons rfl,
      read?_line hw, List.cons_append, read?_cons rfl]
    exact ih
  | @block inner rest hi _ ih =>
    rw [List.cons_append, List.cons_append, List.append_assoc, read?_cons rfl, read?_cons rfl,
      List.cons_append, List.cons_append, read?_inside hi Nat.one_pos (fun _ ha => by cases ha),
      if_pos (Nat.le_refl 1)]
    exact ih

/-! ### Reading tokens -/

/-- A bracket, a comma or a colon is a token at once, but for an open round bracket. -/
theorem enter_of_mark? {t : Token} {c : Char} (h : mark? t = some c) (ts : List Token) :
    enter ts c = ⟨.between, t :: ts⟩ ∨ t = .open .round ∧ c = '(' := by
  unfold mark? at h
  split at h <;> cases h
  · exact .inr ⟨rfl, rfl⟩
  all_goals exact .inl rfl

/-- A word begins with any of its characters. -/
theorem enter_of_isWordChar {c : Char} (h : isWordChar c = true) (ts : List Token) :
    enter ts c = ⟨.word [c], ts⟩ := by
  unfold enter
  split
  case h_12 =>
    rw [isWordChar, Bool.and_eq_true, Bool.not_eq_true'] at h
    exact if_neg (Bool.eq_false_iff.1 h.1)
  all_goals exact absurd h (by decide)

/-- A word goes on over its characters. -/
theorem read?_word {w : List Char} (h : ∀ c ∈ w, isWordChar c = true) (read : List Char)
    (ts : List Token) (cs : List Char) :
    read? ⟨.word read, ts⟩ (w ++ cs) = read? ⟨.word (w.reverse ++ read), ts⟩ cs := by
  induction w generalizing read with
  | nil => rfl
  | cons c w ih =>
    have hstep : step ⟨.word read, ts⟩ c = some ⟨.word (c :: read), ts⟩ :=
      if_pos (h c List.mem_cons_self)
    rw [List.cons_append, read?_cons hstep, ih fun d hd => h d (List.mem_cons_of_mem c hd),
      List.reverse_cons, List.append_assoc]
    rfl

/-- Where a word ends it is a token. -/
theorem read?_word_end {cs : List Char} (h : ∀ c ∈ cs.head?, endsWord c = true) (read : List Char)
    (ts : List Token) :
    read? ⟨.word read, ts⟩ cs = read? ⟨.between, .word read.reverse :: ts⟩ cs := by
  cases cs with
  | nil => rfl
  | cons c cs =>
    have hc := h c rfl
    simp only [endsWord, Bool.and_eq_true, Bool.not_eq_true', bne_iff_ne] at hc
    obtain ⟨⟨hword, htext⟩, hchar⟩ := hc
    have hliteral : literal? read c = none := by simp [literal?, htext, hchar]
    have hstep : step ⟨.word read, ts⟩ c = some (enter (.word read.reverse :: ts) c) := by
      simp only [step, hword, hliteral]
      rfl
    rw [read?_cons hstep]
    exact (read?_cons rfl cs).symm

/-- An open round bracket that is not closed at once is a token. -/
theorem read?_opened {c : Char} (h : c ≠ ')') (ts : List Token) (cs : List Char) :
    read? ⟨.opened, ts⟩ (c :: cs) = read? ⟨.between, .open .round :: ts⟩ (c :: cs) := by
  have hstep : step ⟨.opened, ts⟩ c = some (enter (.open .round :: ts) c) := if_neg h
  rw [read?_cons hstep]
  exact (read?_cons rfl cs).symm

/-- A token found is one token less to be found. -/
theorem reverse_cons_append (t : Token) (found ts : List Token) :
    (t :: found).reverse ++ ts = found.reverse ++ t :: ts := by
  rw [List.reverse_cons, List.append_assoc, List.singleton_append]

/-- **The tokens of a layout are found**, after those found before. -/
theorem read?_laid {ts : List Token} {text : List Char} (h : Laid ts text) (found : List Token) :
    read? ⟨.between, found⟩ text = some (found.reverse ++ ts) := by
  induction h generalizing found with
  | @nil gap between =>
    rw [← List.append_nil gap, read?_gap between, List.append_nil]
    rfl
  | @comment gap text between within =>
    rw [read?_gap between, read?_cons rfl, read?_cons rfl, ← List.append_nil text,
      read?_line within, List.append_nil]
    rfl
  | @mark gap cs t c ts between spelled opens _ ih =>
    rw [read?_gap between, ← reverse_cons_append]
    rcases enter_of_mark? spelled found with hstep | ⟨rfl, rfl⟩
    · rw [read?_enter hstep]
      exact ih _
    · obtain ⟨d, hd, hne⟩ := opens rfl
      obtain ⟨cs, rfl⟩ : ∃ rest, cs = d :: rest := by
        cases cs with
        | nil => cases hd
        | cons e rest => cases hd; exact ⟨rest, rfl⟩
      rw [read?_enter (s := ⟨.opened, found⟩) rfl, read?_opened hne]
      exact ih _
  | @unit gap cs ts between _ ih =>
    rw [read?_gap between, ← reverse_cons_append, read?_cons rfl, read?_cons rfl]
    exact ih _
  | @word gap w cs ts between spelled ends _ ih =>
    obtain ⟨nonempty, chars⟩ := spelled
    obtain ⟨c, w, rfl⟩ := List.exists_cons_of_ne_nil nonempty
    rw [read?_gap between, ← reverse_cons_append]
    have hstep := enter_of_isWordChar (chars c List.mem_cons_self) found
    rw [List.cons_append, read?_enter hstep,
      read?_word (fun d hd => chars d (List.mem_cons_of_mem c hd)), read?_word_end ends]
    simp only [List.reverse_append, List.reverse_reverse, List.reverse_singleton,
      List.singleton_append]
    exact ih _

end Scan

/-- **The tokens of a text** are those that it is a layout of. -/
theorem tokens?_of_laid {ts : List Token} {text : List Char} (h : Laid ts text) :
    tokens? text = some ts := read?_laid h []

end MotionGraph.Settings
