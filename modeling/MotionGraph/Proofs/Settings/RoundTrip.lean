import MotionGraph.Proofs.Settings.Fields

/-!
# Settings that are written and read again

Settings are written as a record of all fields in their declared order, one to a line.
`Settings.Written` says which other texts are texts of the same settings: the fields may come in any
order, there may be any layout, and fields of usual values may be left out. The text that is written
is one of them (`written_toText`), and all of them are read as the same settings, which are then
checked (`parse_of_written`, `round_trip`).
-/

namespace MotionGraph.Settings

/-! ### The text that is written -/

/-- Gaps one after the other are a gap. -/
theorem Gap.append {gap gap' : List Char} (h : Gap gap) (h' : Gap gap') : Gap (gap ++ gap') := by
  induction h with
  | nil => exact h'
  | blank hb _ ih => exact .blank hb ih
  | line hw _ ih => simpa using Gap.line hw ih
  | block hi _ ih => simpa using Gap.block hi ih

/-- A layout may begin with a further gap. -/
theorem Laid.gap {gap cs : List Char} {ts : List Token} (hg : Gap gap) (h : Laid ts cs) :
    Laid ts (gap ++ cs) := by
  cases h with
  | nil between => exact .nil (hg.append between)
  | comment between within =>
    rw [← List.append_assoc]
    exact .comment (hg.append between) within
  | mark between spelled opens rest =>
    rw [← List.append_assoc]
    exact .mark (hg.append between) spelled opens rest
  | unit between rest =>
    rw [← List.append_assoc]
    exact .unit (hg.append between) rest
  | word between spelled ends rest =>
    rw [← List.append_assoc]
    exact .word (hg.append between) spelled ends rest

/-- A text of blanks is a gap. -/
theorem gap_of_blanks (cs : List Char) (h : cs.all Scan.isBlank = true) : Gap cs := by
  induction cs with
  | nil => exact .nil
  | cons c cs ih =>
    rw [List.all_cons, Bool.and_eq_true] at h
    exact .blank h.1 (ih h.2)

variable {ts : List Token} {cs : List Char}

/-- A word may come first. -/
theorem Laid.word_cons {w : List Char} (hw : IsWord w) (hends : ∀ c ∈ cs.head?, endsWord c = true)
    (h : Laid ts cs) : Laid (.word w :: ts) (w ++ cs) := .word .nil hw hends h

/-- So may a comma, a colon or a closing bracket. -/
theorem Laid.mark_cons {t : Token} {c : Char} (ht : mark? t = some c) (hc : c ≠ '(')
    (h : Laid ts cs) : Laid (t :: ts) (c :: cs) := .mark .nil ht (fun he => absurd he hc) h

/-- So may an open bracket, in front of something that does not close it. -/
theorem Laid.open_cons {d : Char} (hd : d ≠ ')') (h : Laid ts (d :: cs)) :
    Laid (.open .round :: ts) ('(' :: d :: cs) := .mark .nil rfl (fun _ => ⟨d, rfl, hd⟩) h

/-- What is written for a value is a layout of its tokens, in front of something that ends a
word. -/
theorem laid_value (s : Settings) (x : Setting) (hends : ∀ c ∈ cs.head?, endsWord c = true)
    (h : Laid ts cs) : Laid (x.value s ++ ts) ((x.text s).toList ++ cs) := by
  have hword {w : List Char} (hw : IsWord w) : Laid ([.word w] ++ ts) (w ++ cs) :=
    h.word_cons hw hends
  cases x with
  | version => exact hword (isWord_toString _)
  | defaultInterval => exact hword (isWord_render _)
  | maxDelta => exact hword (isWord_render _)
  | arbitration => exact hword (arbitration?_name _).1
  | warnOnConflict => exact hword (truth?_renderBool _).1
  | maxCommands =>
    rw [Setting.value, Setting.text]
    cases s.maxCommands with
    | none => exact hword (by decide)
    | some n =>
      have hclose : Laid (.close .round :: ts) (')' :: cs) := h.mark_cons rfl (by decide)
      have hdigits : Laid (.word (toString n).toList :: .close .round :: ts)
          ((toString n).toList ++ ')' :: cs) :=
        hclose.word_cons (isWord_toString n) (by simp; decide)
      obtain ⟨d, ds, hd⟩ := List.exists_cons_of_ne_nil (toString_ne_nil n)
      have hopen : Laid (.open .round :: .word (toString n).toList :: .close .round :: ts)
          ('(' :: ((toString n).toList ++ ')' :: cs)) := by
        have hdigit : d.isDigit = true := isDigit_of_mem_toString (hd ▸ List.mem_cons_self)
        rw [hd] at hdigits ⊢
        exact hdigits.open_cons (by rintro rfl; cases hdigit)
      have hsome := hopen.word_cons (w := "Some".toList) (by decide) (by simp; decide)
      simpa [Setting.optionalTokens, renderOptional] using hsome
  | normalizeEvents => exact hword (truth?_renderBool _).1
  | maxSettlePasses => exact hword (isWord_toString _)

/-- What is written for a field is a layout of its tokens. -/
theorem laid_field (s : Settings) (x : Setting) (h : Laid ts cs) :
    Laid (x.field s ++ .comma :: ts) ((renderLine (x.name, x.text s)).toList ++ cs) := by
  have hbreak : Laid (.comma :: ts) (',' :: '\n' :: cs) :=
    (h.gap (gap_of_blanks ['\n'] rfl)).mark_cons rfl (by decide)
  have hvalue : Laid (x.value s ++ .comma :: ts) ((x.text s).toList ++ ',' :: '\n' :: cs) :=
    laid_value s x (by simp; decide) hbreak
  have hcolon : Laid (.colon :: (x.value s ++ .comma :: ts))
      (':' :: ' ' :: ((x.text s).toList ++ ',' :: '\n' :: cs)) :=
    (hvalue.gap (gap_of_blanks [' '] rfl)).mark_cons rfl (by decide)
  have hname : IsWord x.name.toList := by cases x <;> decide
  have hline := (hcolon.word_cons hname (by simp; decide)).gap (gap_of_blanks "    ".toList rfl)
  simpa [renderLine, Setting.field] using hline

/-- What is written for several fields is a layout of their tokens. -/
theorem laid_fields (s : Settings) (xs : List Setting) (h : Laid ts cs) :
    Laid (fieldsTokens s xs ++ ts)
      ((xs.map fun x => renderLine (x.name, x.text s)).flatMap String.toList ++ cs) := by
  induction xs with
  | nil => exact h
  | cons x xs ih =>
    rw [List.map_cons, List.flatMap_cons, fieldsTokens, List.flatMap_cons, List.append_assoc,
      List.append_assoc, List.append_assoc]
    exact laid_field s x ih

/-- What is written around the fields is a layout of the record. -/
theorem laid_record {inner : List Token} {cs : List Char}
    (h : Laid (inner ++ [.close .round]) (cs ++ [')'])) :
    Laid (.word recordName :: .open .round :: (inner ++ [.close .round]))
      (recordName ++ '(' :: '\n' :: (cs ++ [')'])) := by
  have hbreak : Laid (inner ++ [.close .round]) ('\n' :: (cs ++ [')'])) :=
    h.gap (gap_of_blanks ['\n'] rfl)
  exact (hbreak.open_cons (by decide)).word_cons (by decide) (by simp; decide)

/-- The characters of the text that is written. -/
theorem toList_toText (s : Settings) :
    s.toText.toList = recordName ++ '(' :: '\n' ::
      ((Setting.all.map fun x => renderLine (x.name, x.text s)).flatMap String.toList ++
        [')']) := by
  rw [toText, Setting.rendered_eq, List.map_map, String.toList_append, String.toList_append,
    String.toList_join, List.append_assoc]
  show "EngineConfig(\n".toList ++ (_ ++ [')']) = recordName ++ ['(', '\n'] ++ (_ ++ [')'])
  rfl

/-- Whether a text is that of certain settings but for the order of the fields, the layout, and
fields of usual values that are left out. -/
def Written (s : Settings) (text : String) : Prop :=
  ∃ xs : List Setting, xs.Nodup ∧ (∀ x ∉ xs, x.copy s {} = {}) ∧
    ∃ ts, IsRecord (fieldsTokens s xs) ts ∧ Laid ts text.toList

/-- The text that is written is one such text. -/
theorem written_toText (s : Settings) : Written s s.toText := by
  refine ⟨Setting.all, by decide, fun x hx => absurd ?_ hx, _, .brackets, ?_⟩
  · cases x <;> decide
  · have hclose : Laid [.close .round] [')'] := (Laid.nil .nil).mark_cons rfl (by decide)
    rw [toList_toText]
    exact laid_record (laid_fields s Setting.all hclose)

/-! ### Reading it -/

/-- **A text of certain settings is read as these**, and they are checked. -/
theorem parse_of_written {s : Settings} (hf : s.Fits) (hr : s.IntervalsReadBack) {text : String}
    (h : s.Written text) : parse text = s.check.map fun _ => s := by
  obtain ⟨xs, hd, hu, ts, hrecord, hlaid⟩ := h
  have hread : (tokens? text.toList).bind ofTokens? = some s := by
    rw [tokens?_of_laid hlaid]
    exact ofTokens?_of_isRecord hf hr hd hu hrecord
  rw [parse, hread]

/-- **Settings that are written and read again are the same.** If they pass the check, the text
written for them is read as just these settings, and so is every other text of them: with the fields
in any order, with any blanks and comments between the tokens, and without any fields of usual
values. If they do not pass, all of these texts are refused for just that reason. The integers are
in the range of their types, and of the finite intervals it is supposed that they are nearest to the
decimals written for them. -/
theorem round_trip {s : Settings} (hf : s.Fits) (hr : s.IntervalsReadBack) :
    (s.check = .ok () →
      parse s.toText = .ok s ∧ ∀ text, s.Written text → parse text = .ok s) ∧
    ∀ e, s.check = .error e →
      parse s.toText = .error e ∧ ∀ text, s.Written text → parse text = .error e := by
  have hread {text : String} (h : s.Written text) : parse text = s.check.map fun _ => s :=
    parse_of_written hf hr h
  refine ⟨fun hok => ?_, fun e he => ?_⟩
  · have hall {text : String} (h : s.Written text) : parse text = .ok s := by
      rw [hread h, hok]
      rfl
    exact ⟨hall s.written_toText, fun _ => hall⟩
  · have hall {text : String} (h : s.Written text) : parse text = .error e := by
      rw [hread h, he]
      rfl
    exact ⟨hall s.written_toText, fun _ => hall⟩

/-- A comment may hold anything without slashes and stars. -/
theorem inside_of_not_mem {text : List Char} (hslash : '/' ∉ text) (hstar : '*' ∉ text) :
    Inside text := by
  induction text with
  | nil => exact .nil
  | cons c text ih =>
    have hc : c ≠ '/' ∧ c ≠ '*' := ⟨fun he => hslash (he ▸ List.mem_cons_self),
      fun he => hstar (he ▸ List.mem_cons_self)⟩
    refine .char (fun d _ => by simp [isMark, hc]) (ih ?_ ?_)
    · exact fun hmem => hslash (List.mem_cons_of_mem c hmem)
    · exact fun hmem => hstar (List.mem_cons_of_mem c hmem)

/-- Settings with a short first tick and few commands. -/
def tuned : Settings := { defaultInterval := 0.1, maxCommands := some 16 }

/-- A text of them with a comment in front, in another order and without usual values. -/
def tunedText : String :=
  "/* by hand */ EngineConfig(\n    max_commands_per_frame: Some(16),\n" ++
    "    default_frame_interval_ms: 0.1,\n)"

/-- It is a text of them. -/
theorem written_tunedText : tuned.Written tunedText := by
  have hclose : Laid [.close .round] [')'] := (Laid.nil .nil).mark_cons rfl (by decide)
  have hrecord := laid_record (laid_fields tuned [.maxCommands, .defaultInterval] hclose)
  have hcomment : Gap "/* by hand */ ".toList :=
    have hinside : Inside " by hand ".toList := inside_of_not_mem (by decide) (by decide)
    .block hinside (gap_of_blanks [' '] rfl)
  refine ⟨[.maxCommands, .defaultInterval], by decide, fun x hx => ?_, _, .brackets, ?_⟩
  · cases x <;> first | exact absurd (by decide) hx | rfl
  · have htext : tunedText.toList = "/* by hand */ ".toList ++ (recordName ++ '(' :: '\n' ::
        (([Setting.maxCommands, .defaultInterval].map fun x =>
          renderLine (x.name, x.text tuned)).flatMap String.toList ++ [')'])) := by decide +kernel
    rw [htext]
    exact hrecord.gap hcomment

/-- They are read from either text. -/
theorem tuned_round_trip : tuned.check = .ok () ∧ parse tuned.toText = .ok tuned ∧
    parse tunedText = .ok tuned := by
  have hf : tuned.Fits := ⟨by decide, by decide, by decide⟩
  have hr : tuned.IntervalsReadBack := ⟨fun _ => by decide +kernel, fun _ => by decide +kernel⟩
  have hpass : tuned.check.toOption.isSome = true := by decide +kernel
  have hok : tuned.check = .ok () := by
    cases hc : tuned.check with
    | error e => rw [hc] at hpass; cases hpass
    | ok _ => rfl
  obtain ⟨hread, hwritten⟩ := (round_trip hf hr).1 hok
  exact ⟨hok, hread, hwritten tunedText written_tunedText⟩

end MotionGraph.Settings
