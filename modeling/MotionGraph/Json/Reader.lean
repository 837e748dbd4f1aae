import MotionGraph.Json.Token

/-!
# Reading JSON text

The reader keeps the arrays and objects that are still open, innermost first, and what may come
next. Each token either opens, extends or closes a container, or completes the whole value.
-/

namespace MotionGraph.Json

namespace Read

/-- An open container; what it holds so far is kept latest first. -/
inductive Frame where
  | array (items : List Json)
  /-- An object and the name of the field whose value is awaited. -/
  | object (fields : List (String × Json)) (name : String)

/-- What may come next. -/
inductive Expect where
  /-- A value; also the end of an array that was just opened. -/
  | value (orEnd : Bool)
  /-- The name of a field; also the end of an object that was just opened. -/
  | name (orEnd : Bool)
  /-- The colon after a name. -/
  | colon
  /-- A comma or the end of the container. -/
  | separator
  /-- Nothing: the value is complete. -/
  | nothing (value : Json)

/-- The open containers and what may come next. -/
structure State where
  frames : List Frame := []
  expect : Expect := .value false

/-- Puts a complete value where it belongs. -/
def complete (value : Json) : List Frame → State
  | [] => ⟨[], .nothing value⟩
  | .array items :: frames => ⟨.array (value :: items) :: frames, .separator⟩
  | .object fields name :: frames => ⟨.object ((name, value) :: fields) "" :: frames, .separator⟩

/-- Reads a token where a value is expected. -/
def stepValue (frames : List Frame) (orEnd : Bool) : Token → Option State
  | .openArray => some ⟨.array [] :: frames, .value true⟩
  | .openObject => some ⟨.object [] "" :: frames, .name true⟩
  | .text s => some (complete (.string s) frames)
  | .word v => some (complete v frames)
  | .closeArray =>
    match orEnd, frames with
    | true, .array _ :: outer => some (complete (.array []) outer)
    | _, _ => none
  | _ => none

/-- Reads a token where the name of a field is expected. -/
def stepName (frames : List Frame) (orEnd : Bool) : Token → Option State
  | .text s =>
    match frames with
    | .object fields _ :: outer => some ⟨.object fields s :: outer, .colon⟩
    | _ => none
  | .closeObject =>
    match orEnd, frames with
    | true, .object _ _ :: outer => some (complete (.object []) outer)
    | _, _ => none
  | _ => none

/-- Reads a token after a value inside a container. -/
def stepSeparator : List Frame → Token → Option State
  | .array items :: outer, .comma => some ⟨.array items :: outer, .value false⟩
  | .array items :: outer, .closeArray => some (complete (.array items.reverse) outer)
  | .object fields name :: outer, .comma => some ⟨.object fields name :: outer, .name false⟩
  | .object fields _ :: outer, .closeObject => some (complete (ofFields fields.reverse) outer)
  | _, _ => none

/-- Reads one token. -/
def step (s : State) (t : Token) : Option State :=
  match s.expect with
  | .value orEnd => stepValue s.frames orEnd t
  | .name orEnd => stepName s.frames orEnd t
  | .colon => match t with
    | .colon => some ⟨s.frames, .value false⟩
    | _ => none
  | .separator => stepSeparator s.frames t
  | .nothing _ => none

/-- The value read, once the tokens are at their end. -/
def finish (s : State) : Option Json :=
  match s.expect with
  | .nothing v => some v
  | _ => none

end Read

/-- The value that a JSON text stands for. -/
def parse? (text : String) : Option Json :=
  ((tokens? text).bind fun ts => ts.foldlM Read.step {}).bind Read.finish

end MotionGraph.Json
