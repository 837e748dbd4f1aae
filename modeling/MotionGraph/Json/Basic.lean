/-!
# JSON values

A `Json` value keeps apart the numbers written as integers and the numbers written with a point or
a power of ten, and lists the fields of an object in ascending order of their names, each name
once (`Json.ofFields`).
-/

namespace MotionGraph

/-- A number, as it is written: as an integer of at most 64 bits, or in any other way. -/
inductive Json.Number where
  | integer (n : Int)
  | real (x : Float)

/-- A JSON value. -/
inductive Json where
  | null
  | bool (b : Bool)
  | number (n : Json.Number)
  | string (s : String)
  | array (items : List Json)
  | object (fields : List (String × Json))
  deriving Inhabited

namespace Json

/-- The double nearest to a number. -/
def Number.toFloat : Number → Float
  | .integer n => Float.ofInt n
  | .real x => x

/-- Writes a field in its place among fields in ascending order of names. -/
def insertField (name : String) (value : Json) : List (String × Json) → List (String × Json)
  | [] => [(name, value)]
  | (n, v) :: rest =>
    if name < n then (name, value) :: (n, v) :: rest
    else if name = n then (name, value) :: rest
    else (n, v) :: insertField name value rest

/-- The value of a field. -/
def lookup? (name : String) (fields : List (String × Json)) : Option Json :=
  (fields.find? fun f => f.1 = name).map Prod.snd

/-- The object with the given fields; of two with one name the later counts. -/
def ofFields (fields : List (String × Json)) : Json :=
  .object (fields.foldl (fun acc f => insertField f.1 f.2 acc) [])

/-- The value of a field of an object. -/
def field? (name : String) : Json → Option Json
  | .object fields => lookup? name fields
  | _ => none

/-- The JSON form of a double: non-finite ones have none and become `null`. -/
def ofFloat (x : Float) : Json := if x.isFinite then .number (.real x) else .null

/-- The JSON form of a natural number. -/
def ofNat (n : Nat) : Json := .number (.integer n)

end Json

end MotionGraph
