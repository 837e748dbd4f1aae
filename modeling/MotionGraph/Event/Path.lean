import MotionGraph.Json.Basic
import MotionGraph.Number.Numeral
import MotionGraph.Number.Word
import MotionGraph.Text.Quoted

/-!
# Paths into events

A path names a number inside the JSON value that comes with an event: names of fields and
positions in lists, separated by dots. `EventPath.parse?` reads one, `EventPath.toText` writes it
again, and `EventPath.extract` follows it.
-/

namespace MotionGraph

/-- A path, segment by segment. -/
structure EventPath where
  segments : List String
  deriving DecidableEq, Repr

/-- Why following a path gives no number. -/
inductive PathError where
  /-- There is nothing at the end of this part of the path. -/
  | noField (part : EventPath)
  /-- What the path leads to is no number. -/
  | notNumber (path : EventPath)

namespace EventPath

/-- The pieces of a text between dots. -/
def split : List Char → List (List Char)
  | [] => [[]]
  | c :: cs =>
    if c = '.' then [] :: split cs
    else
      match split cs with
      | piece :: pieces => (c :: piece) :: pieces
      | [] => [[c]]

/-- The path that a text spells, unless a segment is empty. -/
def parse? (text : String) : Option EventPath :=
  let pieces := split text.toList
  if pieces.any List.isEmpty then none else some ⟨pieces.map String.ofList⟩

/-- The text of a path. -/
def toText (p : EventPath) : String := ".".intercalate p.segments

/-- What the user is told about a text that is no path. -/
def refusal (text : String) : String := "invalid event path " ++ Quoted.encode text

/-- The position in a list that a segment names: digits, perhaps after a plus sign, for a number
of at most 64 bits. -/
def position? (segment : String) : Option Nat :=
  let digits := match segment.toList with
    | '+' :: cs => cs
    | cs => cs
  if digits.isEmpty || !digits.all Char.isDigit then none
  else
    let n := Numeral.digitsValue digits
    if n < Word.size 64 then some n else none

/-- What a segment leads to. -/
def descend? (j : Json) (segment : String) : Option Json :=
  match j with
  | .object fields => Json.lookup? segment fields
  | .array items => (position? segment).bind fun i => items[i]?
  | _ => none

/-- Follows segments, after those already followed. -/
def follow (followed : List String) (j : Json) : List String → Except PathError Json
  | [] => .ok j
  | s :: rest =>
    match descend? j s with
    | some inner => follow (followed ++ [s]) inner rest
    | none => .error (.noField ⟨followed ++ [s]⟩)

/-- The number that a path leads to. -/
def extract (p : EventPath) (payload : Json) : Except PathError Float :=
  match follow [] payload p.segments with
  | .ok (.number n) => .ok n.toFloat
  | .ok _ => .error (.notNumber p)
  | .error cause => .error cause

end EventPath

/-- What the user is told. -/
def PathError.message : PathError → String
  | .noField part => "no field " ++ Quoted.encode part.toText
  | .notNumber path => path.toText ++ " is not a number"

end MotionGraph
