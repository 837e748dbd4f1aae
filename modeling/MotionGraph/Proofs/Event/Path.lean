import Mathlib.Data.List.Basic
import Mathlib.Data.List.Infix
import MotionGraph.Event.Path

/-!
# What a path spells and where it leads

A text spells a path unless a dot is at one of its ends or beside another one
(`EventPath.exists_parse?`), and a path is spelled by its own text and no other
(`EventPath.parse?_eq_some`): splitting at dots and joining with dots are inverse to each
other, on pieces without dots.

Inside a JSON value a path leads somewhere (`Json.Leads`), or there is a shortest part of it that
leads nowhere (`Json.Stops`). Both go segment by segment, as the path is followed
(`Json.leads_cons`, `Json.stops_cons_of_some`, `Json.stops_cons_of_none`). A path that goes on from
the end of another one finds what it finds there, and tells of it under the longer path
(`EventPath.extract_append`).
-/

namespace MotionGraph

namespace EventPath

/-! ### Splitting at dots -/

/-- A dot ends a piece. -/
theorem split_cons_dot (cs : List Char) : split ('.' :: cs) = [] :: split cs := rfl

/-- Splitting is what it is for lists at large. -/
theorem split_eq_splitOn (cs : List Char) : split cs = cs.splitOn '.' := by
  induction cs with
  | nil => rfl
  | cons c cs ih =>
    rw [split, ih, List.splitOn_cons_eq_if_modifyHead]
    by_cases hc : c = '.'
    · rw [if_pos hc, if_pos (beq_iff_eq.2 hc)]
    · rw [if_neg hc, if_neg (mt beq_iff_eq.1 hc)]
      split
      · next h => rw [h, List.modifyHead_cons]
      · next h => exact absurd h (List.splitOn_ne_nil _ _)

/-- There is a first piece. -/
theorem exists_split (cs : List Char) : ∃ piece pieces, split cs = piece :: pieces :=
  List.exists_cons_of_ne_nil (split_eq_splitOn cs ▸ List.splitOn_ne_nil _ _)

/-- Any other character belongs to the first piece. -/
theorem split_cons {c : Char} (hc : c ≠ '.') {cs piece : List Char} {pieces : List (List Char)}
    (h : split cs = piece :: pieces) : split (c :: cs) = (c :: piece) :: pieces := by
  rw [split, if_neg hc, h]

/-- No piece has a dot in it. -/
theorem dot_notMem_of_mem_split {cs piece : List Char} (h : piece ∈ split cs) : '.' ∉ piece := by
  induction cs generalizing piece with
  | nil =>
    rw [List.mem_singleton.1 h]
    exact List.not_mem_nil
  | cons c cs ih =>
    by_cases hc : c = '.'
    · rw [hc, split_cons_dot] at h
      rcases List.mem_cons.1 h with rfl | h
      · exact List.not_mem_nil
      · exact ih h
    · obtain ⟨first, pieces, hs⟩ := exists_split cs
      rw [split_cons hc hs] at h
      rw [hs] at ih
      rcases List.mem_cons.1 h with rfl | h
      · exact List.not_mem_cons_of_ne_of_not_mem (Ne.symm hc) (ih List.mem_cons_self)
      · exact ih (List.mem_cons_of_mem _ h)

/-- The first piece is empty at the end of the text and before a dot. -/
theorem head?_split {cs : List Char} :
    (split cs).head? = some [] ↔ cs = [] ∨ cs.head? = some '.' := by
  cases cs with
  | nil => simp [split]
  | cons c cs =>
    by_cases hc : c = '.'
    · simp [hc, split_cons_dot]
    · obtain ⟨first, pieces, hs⟩ := exists_split cs
      simp [split_cons hc hs, hc]

/-- A piece is empty if the first one is or a later one is. -/
theorem nil_mem_split_iff {cs : List Char} :
    [] ∈ split cs ↔ (cs = [] ∨ cs.head? = some '.') ∨ [] ∈ (split cs).tail := by
  rw [← head?_split]
  obtain ⟨first, pieces, hs⟩ := exists_split cs
  rw [hs, List.mem_cons, List.head?_cons, List.tail_cons, Option.some.injEq, eq_comm]

/-- A later piece is empty after a dot that is last and between two dots that meet. -/
theorem nil_mem_tail_split {cs : List Char} :
    [] ∈ (split cs).tail ↔ cs.getLast? = some '.' ∨ ['.', '.'] <:+: cs := by
  induction cs with
  | nil => simp [split]
  | cons c cs ih =>
    rw [List.infix_cons_iff, List.cons_prefix_cons]
    rcases eq_or_ne c '.' with rfl | hc
    · have first : ['.'] <+: cs ↔ cs.head? = some '.' := by cases cs <;> simp [eq_comm]
      have last : ('.' :: cs).getLast? = some '.' ↔ cs = [] ∨ cs.getLast? = some '.' := by
        cases cs <;> simp [List.getLast?_cons]
      rw [split_cons_dot, List.tail_cons, nil_mem_split_iff, ih, last, first, eq_self, true_and]
      exact or_or_or_comm
    · obtain ⟨piece, pieces, hs⟩ := exists_split cs
      have last : (c :: cs).getLast? = some '.' ↔ cs.getLast? = some '.' := by
        cases cs <;> simp [hc, List.getLast?_cons]
      rw [split_cons hc hs, List.tail_cons, last]
      rw [hs, List.tail_cons] at ih
      simp only [ih, Ne.symm hc, false_and, false_or]

/-! ### Texts of paths -/

/-- A text that is not empty, has no dot at either end and no two dots in a row. -/
structure WellDotted (s : String) : Prop where
  nonempty : s ≠ ""
  first : s.toList.head? ≠ some '.'
  last : s.toList.getLast? ≠ some '.'
  apart : ¬['.', '.'] <:+: s.toList

/-- A path whose segments can be told apart in its text. -/
structure Proper (p : EventPath) : Prop where
  nonempty : p.segments ≠ []
  segment : ∀ s ∈ p.segments, s ≠ "" ∧ '.' ∉ s.toList

/-- No piece of a text is empty if its dots are well placed. -/
theorem nil_notMem_split {s : String} : [] ∉ split s.toList ↔ WellDotted s := by
  rw [nil_mem_split_iff, nil_mem_tail_split, String.toList_eq_nil_iff]
  constructor
  · intro h
    exact ⟨fun e => h (.inl (.inl e)), fun e => h (.inl (.inr e)), fun e => h (.inr (.inl e)),
      fun e => h (.inr (.inr e))⟩
  · rintro ⟨nonempty, first, last, apart⟩ ((e | e) | e | e)
    exacts [nonempty e, first e, last e, apart e]

/-- The path of a text is made of its pieces. -/
theorem parse?_eq_some_iff_pieces {s : String} {p : EventPath} :
    parse? s = some p ↔ WellDotted s ∧ (split s.toList).map String.ofList = p.segments := by
  rw [← nil_notMem_split, parse?]
  split
  · next h =>
    obtain ⟨piece, hp, he⟩ := List.any_eq_true.1 h
    rw [List.isEmpty_iff.1 he] at hp
    simp [hp]
  · next h =>
    have none : [] ∉ split s.toList := fun hp => h (List.any_eq_true.2 ⟨[], hp, rfl⟩)
    rw [Option.some.injEq, EventPath.mk.injEq, and_iff_right none]

/-- **A text spells a path if its dots are well placed.** -/
theorem exists_parse? {s : String} : (∃ p, parse? s = some p) ↔ WellDotted s := by
  simp only [parse?_eq_some_iff_pieces]
  exact ⟨fun ⟨_, h, _⟩ => h, fun h => ⟨⟨_⟩, h, rfl⟩⟩

/-- The text of a path joins its segments with dots. -/
theorem toList_toText (p : EventPath) :
    p.toText.toList = ['.'].intercalate (p.segments.map String.toList) := String.toList_intercalate

/-- The pieces of the text of a path are its segments. -/
theorem Proper.split_toText {p : EventPath} (h : p.Proper) :
    split p.toText.toList = p.segments.map String.toList := by
  rw [split_eq_splitOn, toList_toText]
  apply List.splitOn_intercalate
  · intro piece hp
    obtain ⟨s, hs, rfl⟩ := List.mem_map.1 hp
    exact (h.segment s hs).2
  · exact mt List.map_eq_nil_iff.1 h.nonempty

/-- **The text of a path spells it, and no other text does.** -/
theorem parse?_eq_some {s : String} {p : EventPath} :
    parse? s = some p ↔ p.Proper ∧ p.toText = s := by
  rw [parse?_eq_some_iff_pieces]
  constructor
  · rintro ⟨dotted, hp⟩
    have pieces : p.segments.map String.toList = split s.toList := by
      simp [← hp, Function.comp_def]
    refine ⟨⟨fun none => ?_, fun segment hs => ⟨?_, ?_⟩⟩, ?_⟩
    · rw [none, List.map_eq_nil_iff, split_eq_splitOn] at hp
      exact List.splitOn_ne_nil _ _ hp
    · rintro rfl
      exact nil_notMem_split.2 dotted (pieces ▸ List.mem_map_of_mem hs)
    · exact dot_notMem_of_mem_split (pieces ▸ List.mem_map_of_mem hs)
    · rw [← String.toList_inj, toList_toText, pieces, split_eq_splitOn, List.intercalate_splitOn]
  · rintro ⟨proper, rfl⟩
    rw [← nil_notMem_split, proper.split_toText]
    refine ⟨fun none => ?_, by simp [Function.comp_def]⟩
    obtain ⟨segment, hs, he⟩ := List.mem_map.1 none
    exact (proper.segment segment hs).1 (String.toList_eq_nil_iff.1 he)

/-! ### Paths after paths -/

/-- The second path goes on where the first one ends. -/
instance : Append EventPath := ⟨fun p q => ⟨p.segments ++ q.segments⟩⟩

@[simp] theorem segments_append (p q : EventPath) :
    (p ++ q).segments = p.segments ++ q.segments := rfl

theorem Proper.append {p q : EventPath} (hp : p.Proper) (hq : q.Proper) : (p ++ q).Proper where
  nonempty := List.append_ne_nil_of_left_ne_nil hp.nonempty _
  segment s hs := (List.mem_append.1 hs).elim (hp.segment s) (hq.segment s)

/-- Their texts have a dot between them. -/
theorem Proper.toText_append {p q : EventPath} (hp : p.Proper) (hq : q.Proper) :
    (p ++ q).toText = p.toText ++ "." ++ q.toText :=
  String.intercalate_append_of_ne_nil hp.nonempty hq.nonempty

/-- A text after another one and a dot spells its path after the other one's. -/
theorem parse?_append {s t : String} {p q : EventPath} (hs : parse? s = some p)
    (ht : parse? t = some q) : parse? (s ++ "." ++ t) = some (p ++ q) := by
  obtain ⟨hp, rfl⟩ := parse?_eq_some.1 hs
  obtain ⟨hq, rfl⟩ := parse?_eq_some.1 ht
  exact parse?_eq_some.2 ⟨hp.append hq, hp.toText_append hq⟩

/-! ### Positions -/

/-- The texts of a position in a list: digits, perhaps after a plus sign. -/
def Spells (segment : String) (i : Nat) : Prop :=
  ∃ digits : List Char, digits ≠ [] ∧ (∀ c ∈ digits, c.isDigit) ∧ Nat.ofDigitChars 10 digits 0 = i ∧
    (segment.toList = digits ∨ segment.toList = '+' :: digits)

/-- A segment names a position of at most 64 bits that it spells. -/
theorem position?_eq_some {segment : String} {i : Nat} :
    position? segment = some i ↔ i < Word.size 64 ∧ Spells segment i := by
  unfold position?
  extract_lets digits n
  have unsigned : ∀ ds : List Char, (∀ c ∈ ds, c.isDigit) →
      (digits = ds ↔ segment.toList = ds ∨ segment.toList = '+' :: ds) := by
    intro ds all
    unfold digits
    split
    · next cs hs =>
      have plus : '+' :: cs ≠ ds := by
        rintro rfl
        exact absurd (all '+' List.mem_cons_self) (by decide)
      simp [hs, plus]
    · next other => exact (or_iff_left (other ds)).symm
  have spells : Spells segment i ↔ (digits ≠ [] ∧ ∀ c ∈ digits, c.isDigit) ∧ n = i := by
    constructor
    · rintro ⟨ds, ne, all, value, hs⟩
      obtain rfl := (unsigned ds all).2 hs
      exact ⟨⟨ne, all⟩, value⟩
    · rintro ⟨⟨ne, all⟩, value⟩
      exact ⟨digits, ne, all, value, (unsigned digits all).1 rfl⟩
  have refused : (digits.isEmpty || !digits.all Char.isDigit) = true ↔
      ¬(digits ≠ [] ∧ ∀ c ∈ digits, c.isDigit) := by
    simp only [Bool.or_eq_true, List.isEmpty_iff, Bool.not_eq_true', ← Bool.not_eq_true,
      List.all_eq_true, not_and_or, ne_eq, not_not]
  rw [spells]
  split
  · next h => simp [refused.1 h]
  · next h =>
    rw [and_iff_right (not_not.1 (mt refused.2 h)), Option.ite_none_right_eq_some,
      Option.some.injEq]
    exact ⟨fun ⟨lt, e⟩ => ⟨e ▸ lt, e⟩, fun ⟨lt, e⟩ => ⟨e ▸ lt, e⟩⟩

/-- A position is spelled as numbers are written. -/
theorem position?_repr {i : Nat} (h : i < Word.size 64) : position? i.repr = some i :=
  position?_eq_some.2 ⟨h, Nat.toDigits 10 i, Nat.toDigits_ne_nil,
    fun _ => Nat.isDigit_of_mem_toDigits (by omega) le_rfl,
    Nat.ofDigitChars_toDigits (by omega) le_rfl, .inl Nat.toList_repr⟩

end EventPath

/-- The same cause, met from the end of another path on. -/
def PathError.under (p : EventPath) : PathError → PathError
  | .noField part => .noField (p ++ part)
  | .notNumber path => .notNumber (p ++ path)

/-! ### Where a path leads -/

namespace Json

/-- Where a path leads inside a JSON value: every segment names a field of an object or
a position in a list. -/
inductive Leads : Json → List String → Json → Prop
  | here (j : Json) : Leads j [] j
  | field {fields : List (String × Json)} {segment : String} {rest : List String} {inner j : Json}
      (found : Json.lookup? segment fields = some inner) (on : Leads inner rest j) :
      Leads (.object fields) (segment :: rest) j
  | item {items : List Json} {segment : String} {rest : List String} {i : Nat} {inner j : Json}
      (position : EventPath.position? segment = some i) (found : items[i]? = some inner)
      (on : Leads inner rest j) : Leads (.array items) (segment :: rest) j

variable {j k inner : Json} {s : String} {rest : List String}

/-- One step of a path. -/
theorem leads_cons :
    j.Leads (s :: rest) k ↔ ∃ inner, EventPath.descend? j s = some inner ∧ inner.Leads rest k := by
  constructor
  · rintro (_ | ⟨found, on⟩ | ⟨position, found, on⟩)
    · exact ⟨_, found, on⟩
    · exact ⟨_, by simp [EventPath.descend?, position, found], on⟩
  · rintro ⟨inner, hd, on⟩
    cases j with
    | object fields => exact .field hd on
    | array items =>
      obtain ⟨i, position, found⟩ := Option.bind_eq_some_iff.1 hd
      exact .item position found on
    | _ => cases hd

/-- A path that has a first step goes on from there. -/
theorem leads_cons_of_some (h : EventPath.descend? j s = some inner) :
    j.Leads (s :: rest) k ↔ inner.Leads rest k := by
  rw [leads_cons]
  exact ⟨fun ⟨_, hd, on⟩ => Option.some.inj (hd.symm.trans h) ▸ on, fun on => ⟨inner, h, on⟩⟩

/-- A part of a path is the shortest one that leads nowhere. -/
structure Stops (j : Json) (segments part : List String) : Prop where
  isPrefix : part <+: segments
  nowhere : ∀ k, ¬j.Leads part k
  shorter : ∀ front, front <+: part → front ≠ part → ∃ k, j.Leads front k

/-- The empty path does not stop. -/
theorem not_stops_nil (part : List String) : ¬j.Stops [] part := by
  intro h
  exact h.nowhere j (List.prefix_nil.1 h.isPrefix ▸ .here j)

/-- A path with no first step stops there. -/
theorem stops_cons_of_none (h : EventPath.descend? j s = none) {part : List String} :
    j.Stops (s :: rest) part ↔ part = [s] := by
  have nowhere : ∀ k rest, ¬j.Leads (s :: rest) k := by
    intro k rest on
    obtain ⟨inner, hd, -⟩ := leads_cons.1 on
    rw [h] at hd
    cases hd
  constructor
  · intro stops
    rcases List.prefix_cons_iff.1 stops.isPrefix with rfl | ⟨tail, rfl, -⟩
    · exact absurd (.here j) (stops.nowhere j)
    · by_contra more
      obtain ⟨k, on⟩ := stops.shorter [s] (List.prefix_append [s] tail) (Ne.symm more)
      exact nowhere k [] on
  · rintro rfl
    refine ⟨List.prefix_append [s] rest, fun k => nowhere k [], fun front hf ne => ?_⟩
    rcases List.prefix_cons_iff.1 hf with rfl | ⟨tail, rfl, ht⟩
    · exact ⟨j, .here j⟩
    · exact absurd (congrArg (List.cons s) (List.prefix_nil.1 ht)) ne

/-- A path that has a first step stops where it does from there. -/
theorem stops_cons_of_some (h : EventPath.descend? j s = some inner) {part : List String} :
    j.Stops (s :: rest) part ↔ ∃ tail, part = s :: tail ∧ inner.Stops rest tail := by
  constructor
  · intro stops
    rcases List.prefix_cons_iff.1 stops.isPrefix with rfl | ⟨tail, rfl, ht⟩
    · exact absurd (.here j) (stops.nowhere j)
    · refine ⟨tail, rfl, ht, fun k on => stops.nowhere k ((leads_cons_of_some h).2 on), ?_⟩
      intro front hf ne
      obtain ⟨k, on⟩ := stops.shorter (s :: front) (List.cons_prefix_cons.2 ⟨rfl, hf⟩)
        (mt List.tail_eq_of_cons_eq ne)
      exact ⟨k, (leads_cons_of_some h).1 on⟩
  · rintro ⟨tail, rfl, stops⟩
    refine ⟨List.cons_prefix_cons.2 ⟨rfl, stops.isPrefix⟩,
      fun k on => stops.nowhere k ((leads_cons_of_some h).1 on), fun front hf ne => ?_⟩
    rcases List.prefix_cons_iff.1 hf with rfl | ⟨front, rfl, hf⟩
    · exact ⟨j, .here j⟩
    · obtain ⟨k, on⟩ := stops.shorter front (List.cons_prefix_cons.1 hf).2
        (mt (congrArg (List.cons s)) ne)
      exact ⟨k, (leads_cons_of_some h).2 on⟩

end Json

namespace EventPath

/-! ### Following a path -/

/-- Following segments leads where they lead. -/
theorem follow_eq_ok (followed : List String) {segments : List String} {j k : Json} :
    follow followed j segments = .ok k ↔ j.Leads segments k := by
  induction segments generalizing followed j with
  | nil =>
    rw [follow, Except.ok.injEq]
    exact ⟨fun h => h ▸ .here j, fun h => by cases h; rfl⟩
  | cons s rest ih =>
    rw [follow, Json.leads_cons]
    cases hd : descend? j s with
    | none => simp
    | some inner => simp [ih (followed ++ [s])]

/-- Following segments fails where they stop. -/
theorem follow_eq_error (followed : List String) {segments : List String} {j : Json}
    {cause : PathError} :
    follow followed j segments = .error cause ↔
      ∃ part, j.Stops segments part ∧ cause = .noField ⟨followed ++ part⟩ := by
  induction segments generalizing followed j with
  | nil =>
    rw [follow]
    exact ⟨nofun, fun ⟨part, stops, _⟩ => absurd stops (Json.not_stops_nil part)⟩
  | cons s rest ih =>
    rw [follow]
    cases hd : descend? j s with
    | none => simp [Json.stops_cons_of_none hd, eq_comm]
    | some inner => simp [Json.stops_cons_of_some hd, ih (followed ++ [s])]

/-- **A path finds a number if it leads to one.** -/
theorem extract_eq_ok {p : EventPath} {payload : Json} {x : Float} :
    p.extract payload = .ok x ↔ ∃ n, payload.Leads p.segments (.number n) ∧ n.toFloat = x := by
  simp only [← follow_eq_ok []]
  unfold extract
  split
  · next n h => simp [h]
  · next j other h =>
    simp only [h, Except.ok.injEq, reduceCtorEq, false_iff, not_exists, not_and]
    rintro n rfl
    exact absurd rfl (other n)
  · next cause h => simp [h]

/-- A path finds no number if it stops or leads to something else. -/
theorem extract_eq_error {p : EventPath} {payload : Json} {cause : PathError} :
    p.extract payload = .error cause ↔
      (∃ part, payload.Stops p.segments part ∧ cause = .noField ⟨part⟩) ∨
        ∃ j, payload.Leads p.segments j ∧ (∀ n, j ≠ .number n) ∧ cause = .notNumber p := by
  have stops : (∃ part, payload.Stops p.segments part ∧ cause = .noField ⟨part⟩) ↔
      follow [] payload p.segments = .error cause := (follow_eq_error []).symm
  simp only [stops, ← follow_eq_ok []]
  unfold extract
  split
  · next n h => simp [h]
  · next j other h =>
    simp only [h, Except.error.injEq, Except.ok.injEq, reduceCtorEq, false_or]
    exact ⟨fun e => ⟨j, rfl, other, e.symm⟩, fun ⟨_, _, _, e⟩ => e.symm⟩
  · next cause h => simp [h]

/-! ### Paths from inside -/

/-- Segments followed before change what is told only. -/
theorem follow_append_left (front followed : List String) (j : Json) (segments : List String) :
    follow (front ++ followed) j segments =
      (follow followed j segments).mapError (PathError.under ⟨front⟩) := by
  induction segments generalizing followed j with
  | nil => rfl
  | cons s rest ih =>
    rw [follow, follow, List.append_assoc]
    cases descend? j s with
    | none => rfl
    | some inner => exact ih (followed ++ [s]) inner

/-- Segments that lead somewhere are followed there first. -/
theorem follow_append (followed : List String) {j inner : Json} {front : List String}
    (on : j.Leads front inner) (rest : List String) :
    follow followed j (front ++ rest) = follow (followed ++ front) inner rest := by
  induction front generalizing followed j with
  | nil =>
    cases on
    rw [List.nil_append, List.append_nil]
  | cons s front ih =>
    obtain ⟨next, hd, on⟩ := Json.leads_cons.1 on
    rw [List.cons_append, follow, hd]
    exact (ih (followed ++ [s]) on).trans (by rw [List.append_assoc, List.singleton_append])

/-- **A path after one that leads somewhere finds what it finds there**, and what is told
of it names both paths. -/
theorem extract_append {p : EventPath} {payload inner : Json} (on : payload.Leads p.segments inner)
    (q : EventPath) :
    (p ++ q).extract payload = (q.extract inner).mapError (PathError.under p) := by
  have followed : follow [] payload (p ++ q).segments =
      (follow [] inner q.segments).mapError (PathError.under p) := by
    rw [segments_append, follow_append [] on, List.nil_append, ← follow_append_left,
      List.append_nil]
  rw [extract, extract, followed]
  cases follow [] inner q.segments with
  | error cause => rfl
  | ok j => cases j <;> rfl

/-- A part of a path that is not empty has a text of its own. -/
theorem Proper.of_prefix {p part : EventPath} (h : p.Proper)
    (isPrefix : part.segments <+: p.segments) (nonempty : part.segments ≠ []) : part.Proper :=
  ⟨nonempty, fun s hs => h.segment s (isPrefix.subset hs)⟩

/-- **Reading a path, writing it and following it agree.** A text spells a path if it is not
empty, has no dot at either end and no two dots in a row; the text of that path is the text
again, and spells the path.

The path finds a number in a JSON value if it leads to one, field by field and position by position,
and finds that number; it is told where it stops, by the text of its shortest part that leads
nowhere, or that there is no number. What two paths find one after the other is what the second one
finds at the end of the first one. -/
theorem parse_toText_extract :
    (∀ s, (∃ p, parse? s = some p) ↔ WellDotted s) ∧
      (∀ segment i, position? segment = some i ↔ i < Word.size 64 ∧ Spells segment i) ∧
      ∀ s p, parse? s = some p → p.toText = s ∧ parse? p.toText = some p ∧ ∀ payload : Json,
        (∀ x, p.extract payload = .ok x ↔
          ∃ n, payload.Leads p.segments (.number n) ∧ n.toFloat = x) ∧
        (∀ cause, p.extract payload = .error cause ↔
          (∃ part, payload.Stops p.segments part ∧ cause = .noField ⟨part⟩) ∨
            ∃ j, payload.Leads p.segments j ∧ (∀ n, j ≠ .number n) ∧ cause = .notNumber p) ∧
        (∀ part : EventPath, payload.Stops p.segments part.segments →
          parse? part.toText = some part ∧
          (p.extract payload).mapError PathError.message =
            .error ("no field " ++ Quoted.encode part.toText)) ∧
        ∀ t q inner, parse? t = some q → payload.Leads p.segments inner →
          parse? (s ++ "." ++ t) = some (p ++ q) ∧
            (p ++ q).extract payload = (q.extract inner).mapError (PathError.under p) := by
  refine ⟨fun s => exists_parse?, fun segment i => position?_eq_some, fun s p hs => ?_⟩
  obtain ⟨proper, text⟩ := parse?_eq_some.1 hs
  refine ⟨text, text.symm ▸ hs,
    fun payload => ⟨fun x => extract_eq_ok, fun cause => extract_eq_error,
    fun part stops => ⟨?_, ?_⟩, fun t q inner ht on => ⟨parse?_append hs ht, extract_append on q⟩⟩⟩
  · have nonempty : part.segments ≠ [] := fun none => stops.nowhere payload (none ▸ .here payload)
    exact parse?_eq_some.2 ⟨proper.of_prefix stops.isPrefix nonempty, rfl⟩
  · rw [extract_eq_error.2 (.inl ⟨part.segments, stops, rfl⟩)]
    rfl

/-- Two fingers. -/
def touches : Json :=
  .object [("touches", .array [.object [("pageX", .number (.real 3.0))],
    .object [("pageX", .number (.real 5.0))]])]

/-- The second finger is found and a third one is not. -/
theorem touches_extract :
    parse? "touches.1.pageX" = some ⟨["touches", "1", "pageX"]⟩ ∧
      (⟨["touches", "1", "pageX"]⟩ : EventPath).extract touches = .ok 5.0 ∧
      ((⟨["touches", "2", "pageX"]⟩ : EventPath).extract touches).mapError PathError.message =
        .error "no field \"touches.2\"" := by
  obtain ⟨-, -, paths⟩ := parse_toText_extract
  obtain ⟨-, -, along⟩ := paths "touches" ⟨["touches"]⟩ (by decide +kernel)
  obtain ⟨-, -, astray⟩ := paths "touches.2.pageX" ⟨["touches", "2", "pageX"]⟩ (by decide +kernel)
  have stops : touches.Stops ["touches", "2", "pageX"] ["touches", "2"] :=
    (Json.stops_cons_of_some rfl).2 ⟨_, rfl, (Json.stops_cons_of_none (by decide +kernel)).2 rfl⟩
  obtain ⟨spelled, found⟩ := (along touches).2.2.2 "1.pageX" ⟨["1", "pageX"]⟩ _ (by decide +kernel)
    (.field rfl (.here _))
  refine ⟨spelled, found.trans rfl, ((astray touches).2.2.1 ⟨["touches", "2"]⟩ stops).2.trans ?_⟩
  decide +kernel

end EventPath

end MotionGraph
