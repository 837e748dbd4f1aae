import MotionGraph.Proofs.Settings.Words

/-!
# Settings field by field

Settings are eight values, each with a name (`Setting`). What is written for one of them is read as
that value, whatever was read before (`setField?_value`). So the fields of some settings, in any
order, put just these in the place of the usual ones (`readFields?_fields`); and if the others have
their usual values, all settings are there (`Setting.foldl_copy`). A record in brackets is cut into
its fields again (`fieldTokens_fieldsTokens`), so that it is read as the settings that it was made
from (`ofTokens?_of_isRecord`).
-/

namespace MotionGraph.Settings

/-- The settings, one by one. -/
inductive Setting where
  | version
  | defaultInterval
  | maxDelta
  | arbitration
  | warnOnConflict
  | maxCommands
  | normalizeEvents
  | maxSettlePasses
  deriving DecidableEq, Repr

namespace Setting

/-- All of them, in their declared order. -/
def all : List Setting :=
  [.version, .defaultInterval, .maxDelta, .arbitration, .warnOnConflict, .maxCommands,
   .normalizeEvents, .maxSettlePasses]

/-- The name of a setting in a text. -/
def name : Setting → String
  | .version => "version"
  | .defaultInterval => "default_frame_interval_ms"
  | .maxDelta => "max_frame_delta_ms"
  | .arbitration => "driver_arbitration"
  | .warnOnConflict => "warn_on_driver_conflict"
  | .maxCommands => "max_commands_per_frame"
  | .normalizeEvents => "normalize_event_names"
  | .maxSettlePasses => "max_settle_passes"

/-- What is written for the value of a setting. -/
def text (s : Settings) : Setting → String
  | .version => toString s.version
  | .defaultInterval => NumberStyle.settings.render s.defaultInterval
  | .maxDelta => NumberStyle.settings.render s.maxDelta
  | .arbitration => s.arbitration.name
  | .warnOnConflict => renderBool s.warnOnConflict
  | .maxCommands => renderOptional s.maxCommands
  | .normalizeEvents => renderBool s.normalizeEvents
  | .maxSettlePasses => toString s.maxSettlePasses

/-- The settings that are written are all of them. -/
theorem rendered_eq (s : Settings) : s.rendered = all.map fun x => (x.name, x.text s) := rfl

/-- Settings with one value of others. -/
def copy (s : Settings) (t : Settings) : Setting → Settings
  | .version => { t with version := s.version }
  | .defaultInterval => { t with defaultInterval := s.defaultInterval }
  | .maxDelta => { t with maxDelta := s.maxDelta }
  | .arbitration => { t with arbitration := s.arbitration }
  | .warnOnConflict => { t with warnOnConflict := s.warnOnConflict }
  | .maxCommands => { t with maxCommands := s.maxCommands }
  | .normalizeEvents => { t with normalizeEvents := s.normalizeEvents }
  | .maxSettlePasses => { t with maxSettlePasses := s.maxSettlePasses }

variable {s t : Settings} {x y : Setting}

/-- Copying a value again changes nothing. -/
theorem copy_copy (s t : Settings) (x : Setting) : copy s (copy s t x) x = copy s t x := by
  cases x <;> rfl

/-- Values are copied in any order. -/
theorem copy_comm (s t : Settings) (x y : Setting) :
    copy s (copy s t x) y = copy s (copy s t y) x := by
  cases x <;> cases y <;> rfl

/-- Settings that have each value of others are the same. -/
theorem eq_of_copy_eq (h : ∀ x, copy s t x = t) : t = s := by
  have hall : all.foldl (copy s) t = s := by
    simp only [all, List.foldl_cons, List.foldl_nil, copy]
  rw [← hall, List.foldl_fixed' h]

/-- A value may be copied first or last. -/
theorem copy_foldl (s t : Settings) (xs : List Setting) (x : Setting) :
    copy s (xs.foldl (copy s) t) x = xs.foldl (copy s) (copy s t x) := by
  induction xs generalizing t with
  | nil => rfl
  | cons y ys ih => rw [List.foldl_cons, ih, copy_comm, List.foldl_cons]

/-- What was copied is there. -/
theorem copy_foldl_of_mem {xs : List Setting} (h : x ∈ xs) (s t : Settings) :
    copy s (xs.foldl (copy s) t) x = xs.foldl (copy s) t := by
  induction xs generalizing t with
  | nil => cases h
  | cons y ys ih =>
    rw [List.foldl_cons]
    rcases List.mem_cons.1 h with rfl | h
    · rw [copy_foldl, copy_copy]
    · exact ih h _

/-- **Settings are made of their values**: copying those that differ gives all. -/
theorem foldl_copy {xs : List Setting} (h : ∀ x ∉ xs, copy s t x = t) :
    xs.foldl (copy s) t = s := by
  refine eq_of_copy_eq fun x => ?_
  by_cases hx : x ∈ xs
  · exact copy_foldl_of_mem hx s t
  · rw [copy_foldl, h x hx]

/-! ### Fields -/

/-- Names tell settings apart. -/
theorem name_injective (h : x.name = y.name) : x = y := by
  revert h
  cases x <;> cases y <;> decide

/-- They are the names that are read. -/
theorem name_mem_names (x : Setting) : x.name ∈ names := by
  cases x <;> decide

/-- The tokens of an integer that may be left open. -/
def optionalTokens : Option Nat → List Token
  | none => [.word "None".toList]
  | some n => [.word "Some".toList, .open .round, .word (toString n).toList, .close .round]

/-- The tokens of a value. -/
def value (s : Settings) : Setting → List Token
  | .maxCommands => optionalTokens s.maxCommands
  | x => [.word (x.text s).toList]

/-- The tokens of a field. -/
def field (s : Settings) (x : Setting) : List Token := .word x.name.toList :: .colon :: x.value s

end Setting

/-- Whether the integers of settings are of their types. -/
structure Fits (s : Settings) : Prop where
  version : s.version < Word.size 32
  maxCommands : ∀ n ∈ s.maxCommands, n < Word.size 64
  maxSettlePasses : s.maxSettlePasses < Word.size 64

/-- Whether the finite intervals of settings are nearest to the decimals written for them. -/
structure IntervalsReadBack (s : Settings) : Prop where
  defaultInterval : s.defaultInterval.isFinite = true → ReadsBack s.defaultInterval
  maxDelta : s.maxDelta.isFinite = true → ReadsBack s.maxDelta

/-- An integer that may be left open is read as it was written. -/
theorem optional?_optionalTokens {n : Option Nat} (h : ∀ m ∈ n, m < Word.size 64) :
    optional? false .u64 (Setting.optionalTokens n) = some n := by
  cases n with
  | none => rfl
  | some m =>
    have hread : integer? .u64 (toString m).toList = some m :=
      integer?_toString (h m rfl) (by decide)
    rw [Setting.optionalTokens, optional?, hread]
    rfl

section

variable {s : Settings} (hf : s.Fits) (hr : s.IntervalsReadBack)
include hf hr

/-- **A field is read as it was written**, after any others. -/
theorem setField?_value (t : Settings) (x : Setting) :
    setField? false t x.name (x.value s) = some (x.copy s t) := by
  cases x with
  | version =>
    exact congrArg (Option.map _) (integer?_toString (t := .u32) hf.version (by decide))
  | defaultInterval => exact congrArg (Option.map _) (double?_render hr.defaultInterval)
  | maxDelta => exact congrArg (Option.map _) (double?_render hr.maxDelta)
  | arbitration => exact congrArg (Option.map _) (arbitration?_name s.arbitration).2
  | warnOnConflict => exact congrArg (Option.map _) (truth?_renderBool s.warnOnConflict).2
  | maxCommands => exact congrArg (Option.map _) (optional?_optionalTokens hf.maxCommands)
  | normalizeEvents => exact congrArg (Option.map _) (truth?_renderBool s.normalizeEvents).2
  | maxSettlePasses =>
    exact congrArg (Option.map _) (integer?_toString (t := .u64) hf.maxSettlePasses (by decide))

/-- **The fields of some settings are read as they were written**, in any order. -/
theorem readFields?_fields {xs : List Setting} (hd : xs.Nodup) (t : Settings) {seen : List String}
    (hs : ∀ x ∈ xs, x.name ∉ seen) :
    readFields? false t seen (xs.map (Setting.field s)) = some (xs.foldl (Setting.copy s) t) := by
  induction xs generalizing t seen with
  | nil => rfl
  | cons x xs ih =>
    obtain ⟨hx, hd⟩ := List.nodup_cons.1 hd
    have hname : (name? x.name.toList).map String.ofList = some x.name := by
      rw [name?_of_mem_names x.name_mem_names, Option.map_some, String.ofList_toList]
    have hnew : (names.contains x.name && seen.contains x.name) = false := by
      have hunseen : seen.contains x.name = false := by simpa using hs x List.mem_cons_self
      rw [hunseen, Bool.and_false]
    have hrest : ∀ y ∈ xs, y.name ∉ x.name :: seen := by
      intro y hy hmem
      rcases List.mem_cons.1 hmem with hsame | hmem
      · exact hx (Setting.name_injective hsame ▸ hy)
      · exact hs y (List.mem_cons_of_mem x hy) hmem
    rw [List.map_cons, Setting.field, readFields?, hname]
    dsimp only
    rw [hnew, setField?_value hf hr t x]
    exact ih hd _ hrest

end

/-! ### Between the brackets -/

/-- A field ends at its comma. -/
theorem splitFields_field (s : Settings) (x : Setting) (rest : List Token) :
    splitFields 0 (x.field s ++ .comma :: rest) = x.field s :: splitFields 0 rest := by
  cases x with
  | maxCommands =>
    rw [Setting.field, Setting.value]
    cases s.maxCommands <;> rfl
  | _ => rfl

/-- The tokens of fields, each with a comma behind it. -/
def fieldsTokens (s : Settings) (xs : List Setting) : List Token :=
  xs.flatMap fun x => x.field s ++ [.comma]

/-- Fields are cut apart at their commas, and nothing stands behind the last one. -/
theorem splitFields_fieldsTokens (s : Settings) (xs : List Setting) :
    splitFields 0 (fieldsTokens s xs) = xs.map (Setting.field s) ++ [[]] := by
  induction xs with
  | nil => rfl
  | cons x xs ih =>
    rw [fieldsTokens, List.flatMap_cons, List.append_assoc, List.singleton_append,
      splitFields_field]
    exact congrArg _ ih

/-- Between the brackets stand the fields. -/
theorem fieldTokens_fieldsTokens (s : Settings) (xs : List Setting) :
    fieldTokens (fieldsTokens s xs) = xs.map (Setting.field s) := by
  rw [fieldTokens, splitFields_fieldsTokens, if_pos List.getLast?_concat, List.dropLast_concat]

/-- Whether tokens are a record of certain fields, behind its name. -/
inductive IsRecord (inner : List Token) : List Token → Prop
  | brackets : IsRecord inner (.word recordName :: .open .round :: (inner ++ [.close .round]))
  /-- Brackets with nothing in them may be closed at once. -/
  | unit (empty : inner = []) : IsRecord inner [.word recordName, .unit]

/-- A record has no extensions in front, and what is inside is found. -/
theorem inner?_of_isRecord {inner ts : List Token} (h : IsRecord inner ts) :
    extensions? [] ts = some ([], ts) ∧ inner? false ts = some inner := by
  cases h with
  | brackets =>
    refine ⟨rfl, ?_⟩
    have hname : name? recordName = some recordName := by decide +kernel
    rw [inner?, hname, List.getLast?_concat, List.dropLast_concat]
    rfl
  | unit empty =>
    subst empty
    exact ⟨rfl, by decide +kernel⟩

/-- **A record of the settings that differ is read as all settings.** -/
theorem ofTokens?_of_isRecord {s : Settings} (hf : s.Fits) (hr : s.IntervalsReadBack)
    {xs : List Setting} (hd : xs.Nodup) (hu : ∀ x ∉ xs, x.copy s {} = {}) {ts : List Token}
    (h : IsRecord (fieldsTokens s xs) ts) : ofTokens? ts = some s := by
  obtain ⟨hextensions, hinner⟩ := inner?_of_isRecord h
  have hfields : readFields? false {} [] (fieldTokens (fieldsTokens s xs)) = some s := by
    rw [fieldTokens_fieldsTokens, readFields?_fields hf hr hd {} fun _ _ => List.not_mem_nil,
      Setting.foldl_copy hu]
  rw [ofTokens?, hextensions]
  simp only [Option.bind_eq_bind, Option.bind_some]
  show (inner? false ts).bind (fun inner => readFields? false {} [] (fieldTokens inner)) = some s
  rw [hinner]
  exact hfields

end MotionGraph.Settings
