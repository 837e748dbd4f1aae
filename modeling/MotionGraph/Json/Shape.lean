import MotionGraph.Json.Basic
import MotionGraph.Number.Word

/-!
# The shapes that values are read from

Settings of nodes and animations arrive as JSON. A record is written as an object, whose fields
come in any order and may be joined by unknown ones, or as the list of its fields in their
declared order, which may stop early but not go on too long. A choice names its alternative in the
field `type`, or at the front of the list. Readers answer nothing for a value of another shape.
-/

namespace MotionGraph.Json

/-- The double of any number. -/
def toFloat? : Json → Option Float
  | .number n => some n.toFloat
  | _ => none

/-- A truth value. -/
def toBool? : Json → Option Bool
  | .bool b => some b
  | _ => none

/-- A text. -/
def toText? : Json → Option String
  | .string s => some s
  | _ => none

/-- A number written as an integer. -/
def toInt? : Json → Option Int
  | .number (.integer n) => some n
  | _ => none

/-- An integer from zero up to a limit, which is excluded. -/
def toNatBelow? (limit : Nat) (j : Json) : Option Nat :=
  match j.toInt? with
  | some (.ofNat n) => if n < limit then some n else none
  | _ => none

/-- An identifier: an integer of at most 32 bits. -/
def toId? : Json → Option Nat := toNatBelow? (Word.size 32)

/-- A signed integer of at most 64 bits. -/
def toInt64? (j : Json) : Option Int :=
  match j.toInt? with
  | some n => if n < Word.size 63 then some n else none
  | none => none

/-- A list of values of one shape. -/
def toList? {α : Type} (item? : Json → Option α) : Json → Option (List α)
  | .array items => items.mapM item?
  | _ => none

/-- A value that may be missing or `null`. -/
def toOption? {α : Type} (value? : Json → Option α) : Json → Option (Option α)
  | .null => some none
  | j => (value? j).map some

/-- A bare name: a text, or an object with that name as its one field and an empty value. Inside
a choice an object without fields counts as empty, too. -/
def toName? (inChoice : Bool) : Json → Option String
  | .string s => some s
  | .object [(name, .null)] => some name
  | .object [(name, .object [])] => if inChoice then some name else none
  | _ => none

/-- The fields of a record, as they are written. -/
inductive Fields where
  | named (fields : List (String × Json))
  | listed (items : List Json)

namespace Fields

/-- The fields of a record; other values have none. -/
def of? : Json → Option Fields
  | .object fields => some (.named fields)
  | .array items => some (.listed items)
  | _ => none

/-- The values of the declared fields, in their declared order. A list with more items than that
is refused. -/
def select? (names : List String) : Fields → Option (List (Option Json))
  | .named fields => some (names.map fun name => lookup? name fields)
  | .listed items =>
    if names.length < items.length then none
    else some ((items.map some) ++ List.replicate (names.length - items.length) none)

end Fields

/-- A field that must be there. -/
def required? {α : Type} (value? : Json → Option α) : Option Json → Option α
  | some j => value? j
  | none => none

/-- A field that may be missing or `null`. -/
def optional? {α : Type} (value? : Json → Option α) : Option Json → Option (Option α)
  | some j => toOption? value? j
  | none => some none

/-- A field that has a value of its own when it is missing, but must not be `null`. -/
def defaulted? {α : Type} (fallback : α) (value? : Json → Option α) : Option Json → Option α
  | some j => value? j
  | none => some fallback

/-- The name of an alternative: a text, or inside another choice also its position among the
alternatives. -/
def alternative? (alternatives : List String) (inChoice : Bool) : Json → Option String
  | .string s => if alternatives.contains s then some s else none
  | .number (.integer (.ofNat n)) => if inChoice then alternatives[n]? else none
  | _ => none

/-- A choice: the name of the alternative and its fields. -/
def choice? (alternatives : List String) (inChoice : Bool) : Json → Option (String × Fields)
  | .object fields =>
    match lookup? "type" fields with
    | some tag => (alternative? alternatives inChoice tag).map fun name => (name, .named fields)
    | none => none
  | .array (tag :: items) =>
    (alternative? alternatives inChoice tag).map fun name => (name, .listed items)
  | _ => none

end MotionGraph.Json
