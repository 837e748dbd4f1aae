import MotionGraph.Settings.Literal
import MotionGraph.Settings.Token

/-!
# Values that are passed over

A field that is not a setting may have any value: a word, a quoted literal, values or entries in
brackets. `isValue` says whether one stands there. What is open around it is kept innermost first,
and no value stands deeper than `maxDepth`.
-/

namespace MotionGraph.Settings

/-- What is open around a value. -/
inductive Frame where
  /-- The brackets of `Some`, around a single value. -/
  | wrapped
  /-- `Some` without brackets, which ends with its value. -/
  | bare
  /-- Brackets with values in them. -/
  | items (b : Bracket)
  /-- An entry of curly brackets, before its colon. -/
  | key
  /-- An entry of curly brackets, after its colon. -/
  | entry
  /-- A field of round brackets, after its colon. -/
  | field
  deriving DecidableEq, Repr

namespace Frame

/-- What a bracket opens, unless it holds fields. -/
def opened : Bracket → Frame
  | .curly => .key
  | b => .items b

/-- Whether a bracket closes what is open after a value. -/
def closedBy (b : Bracket) : Frame → Bool
  | .wrapped | .field => b = .round
  | .items b' => b = b'
  | .entry => b = .curly
  | .bare | .key => false

/-- How much deeper the values inside stand. -/
def height : Frame → Nat
  | .wrapped | .bare => 1
  | .items _ | .key | .entry | .field => 2

end Frame

/-- How deep a value stands, given what is open around it; the value of a field stands at two. -/
def depth : List Frame → Nat
  | [] => 2
  | f :: outer => f.height + depth outer

/-- What is open after a value. -/
def afterValue (frames : List Frame) : List Frame := frames.dropWhile (· = .bare)

/-- How deep values may stand. -/
def maxDepth : Nat := 128

/-- The words that are values of their own, and no names of anything in brackets. -/
def reserved : List String :=
  ["true", "false", "None", "Some", "inf", "inff32", "inff64", "NaN", "NaNf32", "NaNf64"]

/-- Whether brackets after a word belong to it. -/
def takesBrackets (cs : List Char) : Bool :=
  (name? cs).isSome && !reserved.contains (String.ofList cs)

/-- Whether a name and a colon stand at the front. -/
def beginsWithName : List Token → Bool
  | .word cs :: .colon :: _ => (name? cs).isSome
  | _ => false

/-- Whether a word alone is a value, unless it is `Some`. -/
def isPlain (cs : List Char) : Bool := (name? cs).isSome || isNumber cs

mutual

/-- Whether a value stands at the front, and after it what is open asks for, to the end. With
`implicit`, `Some` may lack its brackets. -/
def isValue (implicit : Bool) (frames : List Frame) : List Token → Bool
  | .quoted :: rest => isRest implicit frames rest
  | .unit :: rest => isRest implicit frames rest
  | .open b :: .close c :: rest => b = c && depth frames < maxDepth && isRest implicit frames rest
  | .open b :: rest =>
    depth (Frame.opened b :: frames) ≤ maxDepth
      && if b = .round && beginsWithName rest then isField implicit frames rest
        else isValue implicit (Frame.opened b :: frames) rest
  | .word cs :: .unit :: rest =>
    takesBrackets cs && depth frames < maxDepth && isRest implicit frames rest
  | .word cs :: .open .round :: .close .round :: rest =>
    takesBrackets cs && depth frames < maxDepth && isRest implicit frames rest
  | .word cs :: .open .round :: rest =>
    if cs = "Some".toList then
      depth (.wrapped :: frames) ≤ maxDepth && isValue implicit (.wrapped :: frames) rest
    else
      takesBrackets cs && depth (Frame.opened .round :: frames) ≤ maxDepth
        && if beginsWithName rest then isField implicit frames rest
          else isValue implicit (Frame.opened .round :: frames) rest
  | .word cs :: rest =>
    if cs = "Some".toList then
      implicit && depth (.bare :: frames) ≤ maxDepth && isValue implicit (.bare :: frames) rest
    else isPlain cs && isRest implicit frames rest
  | _ => false
termination_by structural ts => ts

/-- Whether a field of round brackets stands at the front, and after it what is open asks for. -/
def isField (implicit : Bool) (frames : List Frame) : List Token → Bool
  | .word cs :: .colon :: rest => (name? cs).isSome && isValue implicit (.field :: frames) rest
  | _ => false
termination_by structural ts => ts

/-- Whether what follows a value is what is open asks for, to the end. -/
def isRest (implicit : Bool) (frames : List Frame) : List Token → Bool
  | [] => (afterValue frames).isEmpty
  | .close b :: rest =>
    match afterValue frames with
    | f :: outer => f.closedBy b && isRest implicit outer rest
    | [] => false
  | .comma :: .close b :: rest =>
    match afterValue frames with
    | f :: outer => f.closedBy b && isRest implicit outer rest
    | [] => false
  | .comma :: rest =>
    match afterValue frames with
    | .items b :: outer => isValue implicit (.items b :: outer) rest
    | .entry :: outer => isValue implicit (.key :: outer) rest
    | .field :: outer => isField implicit outer rest
    | _ => false
  | .colon :: rest =>
    match afterValue frames with
    | .key :: outer => isValue implicit (.entry :: outer) rest
    | _ => false
  | _ => false
termination_by structural ts => ts

end

end MotionGraph.Settings
