import MotionGraph.Proofs.Number.Nearest
import MotionGraph.Proofs.Settings.Layout
import MotionGraph.Settings.Printer
import MotionGraph.Settings.Reader

/-!
# Words that are read as they were written

What is written for an integer, a double, a truth value or a policy is a word, and the word says
just that: `integer?_toString`, `double?_render`, `truth?_renderBool`, `arbitration?_name`.

Of a finite double one thing is taken for granted: that the decimal written for it is nearest to
it among all doubles (`ReadsBack`). That the word has no underscores, no type at its end and no
other reading is proved here.
-/

namespace MotionGraph.Settings

open Scan Float.Model Float.Model.UnpackedFloat

/-! ### Digits -/

/-- What holds of the ten digits holds of every digit. -/
theorem of_isDigit {p : Char → Bool}
    (hp : (List.range' 48 10).all (fun n => p (Char.ofNat n)) = true) {c : Char}
    (h : c.isDigit = true) : p c = true := by
  have hrange : c.toNat ∈ List.range' 48 10 := by
    rw [List.mem_range'_1]
    rw [Char.isDigit, Bool.and_eq_true, decide_eq_true_eq, decide_eq_true_eq] at h
    have hl : 48 ≤ c.toNat := h.1
    have hr : c.toNat ≤ 57 := h.2
    omega
  have hc := List.all_eq_true.1 hp c.toNat hrange
  rwa [Char.ofNat_toNat] at hc

/-- Digits spell the number that core makes of them. -/
theorem digits?_eq {cs : List Char} (h : ∀ c ∈ cs, c.isDigit = true) (n : Nat) :
    digits? 10 n cs = some (Nat.ofDigitChars 10 cs n) := by
  induction cs generalizing n with
  | nil => rfl
  | cons c cs ih =>
    have hc := h c List.mem_cons_self
    have hgap : c ≠ '_' := by rintro rfl; cases hc
    have hdigit : digit? c = some (c.toNat - '0'.toNat) := if_pos hc
    have hlt : c.toNat - '0'.toNat < 10 :=
      of_decide_eq_true
        (of_isDigit (p := fun c => decide (c.toNat - '0'.toNat < 10)) (by decide) hc)
    rw [digits?, if_neg hgap, hdigit, Nat.ofDigitChars_cons]
    dsimp only
    rw [if_pos hlt]
    exact ih (fun d hd => h d (List.mem_cons_of_mem c hd)) _

/-- The digits of a number. -/
theorem toList_toString (n : Nat) : (toString n).toList = Nat.toDigits 10 n := Nat.toList_repr

/-- They are digits. -/
theorem isDigit_of_mem_toString {n : Nat} {c : Char} (h : c ∈ (toString n).toList) :
    c.isDigit = true := by
  rw [toList_toString] at h
  exact Nat.isDigit_of_mem_toDigits (by decide) (by decide) h

/-- There is at least one. -/
theorem toString_ne_nil (n : Nat) : (toString n).toList ≠ [] := by
  rw [toList_toString]
  exact Nat.toDigits_ne_nil

/-! ### Integers -/

/-- What begins with a digit has no sign. -/
theorem splitSign_of_isDigit {c : Char} (h : c.isDigit = true) (cs : List Char) :
    Numeral.splitSign (c :: cs) = (.absent, c :: cs) := by
  unfold Numeral.splitSign
  split
  · next heq => cases heq; cases h
  · next heq => cases heq; cases h
  · rfl

/-- Digits are in base ten. -/
theorem splitBase_of_isDigit {cs : List Char} (h : ∀ c ∈ cs, c.isDigit = true) :
    splitBase cs = (10, cs) := by
  unfold splitBase
  split
  · cases h 'x' (by simp)
  · cases h 'o' (by simp)
  · cases h 'b' (by simp)
  · rfl

/-- Digits spell a number. -/
theorem magnitude?_of_isDigit {cs : List Char} (hne : cs ≠ []) (h : ∀ c ∈ cs, c.isDigit = true) :
    magnitude? cs = some (Nat.ofDigitChars 10 cs 0) := by
  have hhead : cs.head? ≠ some '_' := fun hc => by cases h '_' (List.mem_of_head? hc)
  rw [magnitude?, splitBase_of_isDigit h]
  dsimp only
  rw [if_neg (by simp [hne, hhead]), digits?_eq h]

/-- Behind digits no type is written. -/
theorem dropName_of_isDigit {t : IntegerType} (ht : t.name ≠ []) {cs : List Char}
    (h : ∀ c ∈ cs, c.isDigit = true) : t.dropName cs = cs := by
  have hrest : cs.dropWhile isDigitOrGap = [] := by
    rw [List.dropWhile_eq_nil_iff]
    exact fun c hc => of_isDigit (p := isDigitOrGap) (by decide) (h c hc)
  rw [IntegerType.dropName, hrest, if_neg (Ne.symm ht)]

/-- **An integer is read as it was written**, by every type that holds it. -/
theorem integer?_toString {t : IntegerType} {n : Nat} (hn : n < t.above) (ht : t.name ≠ []) :
    integer? t (toString n).toList = some n := by
  have hdigits : ∀ c ∈ (toString n).toList, c.isDigit = true := fun c => isDigit_of_mem_toString
  have hmagnitude : magnitude? (t.dropName (toString n).toList) = some n := by
    rw [dropName_of_isDigit ht hdigits, magnitude?_of_isDigit (toString_ne_nil n) hdigits,
      toList_toString, Nat.ofDigitChars_ten_toDigits]
  have hholds : t.holds .absent n = true := decide_eq_true hn
  obtain ⟨c, cs, hcs⟩ := List.exists_cons_of_ne_nil (toString_ne_nil n)
  have hsign : Numeral.splitSign (toString n).toList = (.absent, (toString n).toList) := by
    rw [hcs]
    exact splitSign_of_isDigit (hdigits c (hcs ▸ List.mem_cons_self)) cs
  simp only [integer?, hsign, hmagnitude, Option.bind_eq_bind, Option.bind_some, hholds, if_true]

/-! ### Doubles -/

/-- Whether a double is the one nearest to the decimal written for it. -/
def ReadsBack (x : Float) : Prop :=
  (Numeral.scan? (NumberStyle.settings.render x).toList).map Numeral.toFloat = some x

instance (x : Float) : Decidable (ReadsBack x) := by
  unfold ReadsBack
  infer_instance

/-- Whether a text is made of digits and points. -/
def IsDecimal (cs : List Char) : Prop := ∀ c ∈ cs, c.isDigit = true ∨ c = '.'

/-- Digits are a decimal. -/
theorem isDecimal_of_isDigit {cs : List Char} (h : ∀ c ∈ cs, c.isDigit = true) : IsDecimal cs :=
  fun c hc => .inl (h c hc)

/-- Decimals one after the other are a decimal. -/
theorem IsDecimal.append {cs ds : List Char} (h : IsDecimal cs) (h' : IsDecimal ds) :
    IsDecimal (cs ++ ds) := fun c hc => (List.mem_append.1 hc).elim (h c) (h' c)

/-- A row of zeros is a decimal. -/
theorem isDecimal_zeros (n : Nat) : IsDecimal (NumberStyle.zeros n).toList := by
  rw [NumberStyle.zeros, String.toList_ofList]
  exact isDecimal_of_isDigit fun c hc => List.eq_of_mem_replicate hc ▸ rfl

/-- A positional text is a decimal and begins with a digit. -/
theorem exists_positional {style : NumberStyle} {d : Char} {ds : List Char}
    (h : ∀ c ∈ d :: ds, c.isDigit = true) (point : Int) :
    ∃ c cs, (style.positional (d :: ds) point).toList = c :: cs ∧ c.isDigit = true ∧
      IsDecimal cs := by
  have hd := h d List.mem_cons_self
  have hds : IsDecimal ds := isDecimal_of_isDigit fun c hc => h c (List.mem_cons_of_mem d hc)
  have hpoint : IsDecimal ['.'] := fun c hc => .inr (List.mem_singleton.1 hc)
  rw [NumberStyle.positional]
  split
  · refine ⟨'0', '.' :: ((NumberStyle.zeros (-point).toNat).toList ++ d :: ds), ?_, rfl, ?_⟩
    · simp
    · exact hpoint.append ((isDecimal_zeros _).append (isDecimal_of_isDigit h))
  · split
    · have hfraction : IsDecimal (if style.keepsFraction then ".0" else "").toList := by
        split
        · exact hpoint.append fun c hc => .inl (List.mem_singleton.1 hc ▸ rfl)
        · exact fun c hc => by cases hc
      refine ⟨d, ds ++ (NumberStyle.zeros (point - (d :: ds).length).toNat).toList ++
        (if style.keepsFraction then ".0" else "").toList, ?_, hd,
        (hds.append (isDecimal_zeros _)).append hfraction⟩
      simp
    · next hpos _ =>
      obtain ⟨n, hn⟩ : ∃ n, point.toNat = n + 1 := ⟨point.toNat - 1, by omega⟩
      have htake : IsDecimal (ds.take n) := fun c hc => hds c (List.mem_of_mem_take hc)
      have hdrop : IsDecimal (ds.drop n) := fun c hc => hds c (List.mem_of_mem_drop hc)
      refine ⟨d, ds.take n ++ '.' :: ds.drop n, ?_, hd, htake.append (hpoint.append hdrop)⟩
      rw [hn]
      simp

/-- The text of a positive decimal is one, and begins with a digit. -/
theorem exists_ofDecimal (d : Decimal) :
    ∃ c cs, (NumberStyle.settings.ofDecimal d).toList = c :: cs ∧ c.isDigit = true ∧
      IsDecimal cs := by
  obtain ⟨c, cs, hcs⟩ := List.exists_cons_of_ne_nil (toString_ne_nil d.digits)
  have hdigits : ∀ a ∈ c :: cs, a.isDigit = true := fun a ha => isDigit_of_mem_toString (hcs ▸ ha)
  rw [NumberStyle.ofDecimal, hcs]
  exact exists_positional hdigits _

/-- What is written for a finite double is a decimal that begins with a digit, behind a
sign if it is negative. -/
theorem exists_render {x : Float} {b : Binary64} (h : Binary64.ofFloat? x = some b) :
    ∃ sign c cs, (NumberStyle.settings.render x).toList = sign ++ c :: cs ∧
      (sign = [] ∨ sign = ['-']) ∧ c.isDigit = true ∧ IsDecimal cs := by
  obtain ⟨m, hm, hrender⟩ : ∃ m : String,
      (∃ c cs, m.toList = c :: cs ∧ c.isDigit = true ∧ IsDecimal cs) ∧
        NumberStyle.settings.render x = if b.negative then "-" ++ m else m := by
    simp only [NumberStyle.render, h]
    refine ⟨_, ?_, rfl⟩
    split
    · exact ⟨'0', ['.', '0'], rfl, rfl, by simp [IsDecimal]⟩
    · exact exists_ofDecimal _
  obtain ⟨c, cs, hcs, hc, hrest⟩ := hm
  rw [hrender]
  cases b.negative with
  | false => exact ⟨[], c, cs, hcs, .inl rfl, hc, hrest⟩
  | true => exact ⟨['-'], c, cs, by simpa using hcs, .inr rfl, hc, hrest⟩

/-- A decimal with a sign has no underscores to drop. -/
theorem dropUnderscores?_eq {cs : List Char} (h : '_' ∉ cs) (allowed : Bool) :
    dropUnderscores? allowed cs = some cs := by
  induction cs generalizing allowed with
  | nil => rfl
  | cons c cs ih =>
    have hc : c ≠ '_' := fun he => h (he ▸ List.mem_cons_self)
    rw [dropUnderscores?, if_neg hc]
    dsimp only
    rw [ih fun hmem => h (List.mem_cons_of_mem c hmem)]
    rfl

/-- The digits in front of a numeral that was found. -/
theorem whole_of_scan? {cs : List Char} {n : Numeral} (h : Numeral.scan? cs = some n) :
    n.whole = (Numeral.splitSign cs).2.takeWhile Char.isDigit := by
  unfold Numeral.scan? at h
  dsimp only at h
  split at h
  · obtain ⟨_, -, rfl⟩ := Option.map_eq_some_iff.1 h
    rfl
  · obtain ⟨_, -, rfl⟩ := Option.map_eq_some_iff.1 h
    rfl

/-- A text has no type at its end unless it has all characters of the type. -/
theorem dropType_of_not_mem {type : String} {c : Char} (hc : c ∈ type.toList) {cs : List Char}
    (h : c ∉ cs) : dropType type cs = cs :=
  if_neg fun hsuffix => h ((List.isSuffixOf_iff_suffix.1 hsuffix).subset hc)

section

variable {sign : List Char} (hsign : sign = [] ∨ sign = ['-']) {c : Char} {cs : List Char}
  (hc : c.isDigit = true)
include hsign hc

/-- A sign in front of a digit is split off. -/
theorem splitSign_append : (Numeral.splitSign (sign ++ c :: cs)).2 = c :: cs := by
  rcases hsign with rfl | rfl
  · exact congrArg Prod.snd (splitSign_of_isDigit hc cs)
  · rfl

variable (hcs : IsDecimal cs)
include hcs

/-- The characters of a decimal with a sign. -/
theorem signed_of_mem {d : Char} (hd : d ∈ sign ++ c :: cs) :
    d.isDigit = true ∨ d = '.' ∨ d = '-' := by
  rcases List.mem_append.1 hd with hd | hd
  · rcases hsign with rfl | rfl
    · cases hd
    · exact .inr (.inr (List.mem_singleton.1 hd))
  · rcases List.mem_cons.1 hd with rfl | hd
    · exact .inl hc
    · exact (hcs d hd).imp_right .inl

/-- A decimal with a sign is the double that it spells as a numeral. -/
theorem double?_of_isDecimal {x : Float}
    (h : (Numeral.scan? (sign ++ c :: cs)).map Numeral.toFloat = some x) :
    double? "f64" (sign ++ c :: cs) = some x := by
  have habsent {d : Char} (hd : d.isDigit = false ∧ d ≠ '.' ∧ d ≠ '-') : d ∉ sign ++ c :: cs := by
    intro hmem
    rcases signed_of_mem hsign hc hcs hmem with h | h | h
    · exact absurd (h.symm.trans hd.1) (by decide)
    · exact hd.2.1 h
    · exact hd.2.2 h
  have hsplit : (Numeral.splitSign (sign ++ c :: cs)).2 = c :: cs := splitSign_append hsign hc
  have hfirst {d : Char} {ds : List Char} (hd : d.isDigit = false) : c :: cs ≠ d :: ds := by
    intro heq
    cases heq
    exact absurd (hc.symm.trans hd) (by decide)
  obtain ⟨n, hn, hx⟩ := Option.map_eq_some_iff.1 h
  have hdigits : n.hasDigits = true := by
    rw [Numeral.hasDigits, whole_of_scan? hn, hsplit, List.takeWhile_cons_of_pos hc]
    rfl
  have hinf : (Numeral.splitSign (sign ++ c :: cs)).2 ≠ "inf".toList := by
    rw [hsplit]
    exact @hfirst 'i' ['n', 'f'] rfl
  have hnan : (Numeral.splitSign (sign ++ c :: cs)).2 ≠ "NaN".toList := by
    rw [hsplit]
    exact @hfirst 'N' ['a', 'N'] rfl
  rw [double?, dropType_of_not_mem (c := 'f') (by decide) (habsent (by decide))]
  dsimp only
  rw [if_neg hinf, if_neg hnan, dropUnderscores?_eq (habsent (by decide))]
  simp only [Option.bind_eq_bind, Option.bind_some, hn, hdigits, if_true, hx]

end

/-- **A double is read as it was written.** -/
theorem double?_render {x : Float} (h : x.isFinite = true → ReadsBack x) :
    double? "f64" (NumberStyle.settings.render x).toList = some x := by
  cases hb : Binary64.ofFloat? x with
  | some b =>
    obtain ⟨sign, c, cs, hrender, hsign, hc, hcs⟩ := exists_render hb
    have hread := h (Double.isFinite_iff_isSome_ofFloat?.2 (hb ▸ rfl))
    rw [ReadsBack, hrender] at hread
    rw [hrender]
    exact double?_of_isDecimal hsign hc hcs hread
  | none => rcases Double.eq_of_ofFloat?_eq_none hb with rfl | rfl | rfl <;> decide +kernel

/-! ### What is written is a word -/

/-- Digits go on with a word. -/
theorem isWordChar_of_isDigit {c : Char} (h : c.isDigit = true) : isWordChar c = true :=
  of_isDigit (by decide) h

/-- An integer is a word. -/
theorem isWord_toString (n : Nat) : IsWord (toString n).toList :=
  ⟨toString_ne_nil n, fun _ hc => isWordChar_of_isDigit (isDigit_of_mem_toString hc)⟩

/-- A double is a word. -/
theorem isWord_render (x : Float) : IsWord (NumberStyle.settings.render x).toList := by
  cases hb : Binary64.ofFloat? x with
  | some b =>
    obtain ⟨sign, c, cs, hrender, hsign, hc, hcs⟩ := exists_render hb
    rw [hrender]
    refine ⟨by simp, fun d hd => ?_⟩
    rcases signed_of_mem hsign hc hcs hd with hd | rfl | rfl
    · exact isWordChar_of_isDigit hd
    · rfl
    · rfl
  | none => rcases Double.eq_of_ofFloat?_eq_none hb with rfl | rfl | rfl <;> decide +kernel

/-- A truth value is a word, and read as it was written. -/
theorem truth?_renderBool (b : Bool) :
    IsWord (renderBool b).toList ∧ truth? (renderBool b).toList = some b := by
  cases b <;> decide

/-- A policy is a word, and read as it was written. -/
theorem arbitration?_name (a : Arbitration) :
    IsWord a.name.toList ∧ arbitration? a.name.toList = some a := by
  cases a <;> decide +kernel

end MotionGraph.Settings
