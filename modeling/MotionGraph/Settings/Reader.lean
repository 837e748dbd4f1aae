import MotionGraph.Settings.Basic
import MotionGraph.Settings.Extension
import MotionGraph.Settings.Value

/-!
# Reading settings

A settings text is a record: fields in round brackets, in any order and separated by commas, with
the name of the record in front if one likes, and extensions of the syntax in front of that. Each
setting is given at most once; those that are not given have their usual value. Fields of other
names are passed over, as long as a value stands there.
-/

namespace MotionGraph.Settings

/-! ### Values -/

/-- A single word, read as asked. -/
def word? {α : Type} (read? : List Char → Option α) : List Token → Option α
  | [.word cs] => read? cs
  | _ => none

/-- The policy that a word names. -/
def arbitration? (cs : List Char) : Option Arbitration :=
  (name? cs).bind fun name => Arbitration.ofName? (String.ofList name)

/-- An integer that may be left open: `None`, or `Some` with the integer in brackets. With
`implicit`, both the brackets and `Some` may be left out. -/
def optional? (implicit : Bool) (t : IntegerType) : List Token → Option (Option Nat)
  | [.word cs] =>
    if cs = "None".toList then some none
    else if implicit then (integer? t cs).map some
    else none
  | [.word name, .word cs] =>
    if implicit && name = "Some".toList then (integer? t cs).map some else none
  | .word name :: .open .round :: .word cs :: rest =>
    if name = "Some".toList && (rest = [.close .round] || rest = [.comma, .close .round]) then
      (integer? t cs).map some
    else none
  | _ => none

/-! ### Fields -/

/-- Cuts tokens at the commas outside all brackets. -/
def splitFields : Nat → List Token → List (List Token)
  | _, [] => [[]]
  | depth, t :: ts =>
    match t with
    | .comma =>
      if depth = 0 then [] :: splitFields depth ts else push t (splitFields depth ts)
    | .open _ => push t (splitFields (depth + 1) ts)
    | .close _ => push t (splitFields (depth - 1) ts)
    | _ => push t (splitFields depth ts)
where
  /-- Puts a token in front of the first field. -/
  push (t : Token) : List (List Token) → List (List Token)
    | field :: fields => (t :: field) :: fields
    | [] => [[t]]

/-- The fields between the brackets of a record. A comma may follow the last one. -/
def fieldTokens (inner : List Token) : List (List Token) :=
  let fields := splitFields 0 inner
  if fields.getLast? = some [] then fields.dropLast else fields

/-- The settings with one more field read. -/
def setField? (implicit : Bool) (s : Settings) (name : String) (value : List Token) :
    Option Settings :=
  match name with
  | "version" => (word? (integer? .u32) value).map fun n => { s with version := n }
  | "default_frame_interval_ms" =>
    (word? (double? "f64") value).map fun x => { s with defaultInterval := x }
  | "max_frame_delta_ms" => (word? (double? "f64") value).map fun x => { s with maxDelta := x }
  | "driver_arbitration" =>
    (word? arbitration? value).map fun a => { s with arbitration := a }
  | "warn_on_driver_conflict" => (word? truth? value).map fun b => { s with warnOnConflict := b }
  | "max_commands_per_frame" =>
    (optional? implicit .u64 value).map fun n => { s with maxCommands := n }
  | "normalize_event_names" => (word? truth? value).map fun b => { s with normalizeEvents := b }
  | "max_settle_passes" =>
    (word? (integer? .u64) value).map fun n => { s with maxSettlePasses := n }
  | _ => if isValue implicit [] value then some s else none

/-- The names of all settings. -/
def names : List String :=
  ["version", "default_frame_interval_ms", "max_frame_delta_ms", "driver_arbitration",
   "warn_on_driver_conflict", "max_commands_per_frame", "normalize_event_names",
   "max_settle_passes"]

/-- The name of a setting, written as it is, is read as it is. -/
theorem name?_of_mem_names {n : String} (h : n ∈ names) : name? n.toList = some n.toList := by
  have all : names.all (fun n => name? n.toList = some n.toList) = true := by decide +kernel
  simpa using List.all_eq_true.mp all n h

/-- Reads fields one after the other; the names of those read are kept, so that no setting is
given twice. -/
def readFields? (implicit : Bool) (s : Settings) (seen : List String) :
    List (List Token) → Option Settings
  | [] => some s
  | (.word cs :: .colon :: value) :: fields =>
    match (name? cs).map String.ofList with
    | some name =>
      if names.contains name && seen.contains name then none
      else
        match setField? implicit s name value with
        | some s => readFields? implicit s (name :: seen) fields
        | none => none
    | none => none
  | _ => none

/-- The name of the record. -/
def recordName : List Char := "EngineConfig".toList

/-- What stands between the brackets of a record. With `explicit`, its name must be in front. -/
def inner? (explicit : Bool) : List Token → Option (List Token)
  | [.unit] => if explicit then none else some []
  | .open .round :: rest =>
    if !explicit && rest.getLast? = some (.close .round) then some rest.dropLast else none
  | [.word cs, .unit] => if name? cs = some recordName then some [] else none
  | .word cs :: .open .round :: rest =>
    if name? cs = some recordName && rest.getLast? = some (.close .round) then some rest.dropLast
    else none
  | _ => none

/-- The settings that tokens spell. -/
def ofTokens? (ts : List Token) : Option Settings := do
  let (on, record) ← extensions? [] ts
  let inner ← inner? (on.contains .explicitStructNames) record
  readFields? (on.contains .implicitSome) {} [] (fieldTokens inner)

/-- The usable settings that a text spells. -/
def parse (text : String) : Except SettingsError Settings :=
  match (tokens? text.toList).bind ofTokens? with
  | none => .error .unreadable
  | some s => s.check.map fun _ => s

end MotionGraph.Settings
