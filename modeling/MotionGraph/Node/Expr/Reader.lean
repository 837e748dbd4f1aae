import MotionGraph.Json.Shape
import MotionGraph.Node.Expr.Basic

/-!
# Reading expressions

An expression is written as a choice between the operators: `a`, `b` and further operands in
`others` for a folding operator, `v` for a function, `left` and `right` for a test. One pass over
the JSON value reads every part of it both as an expression and as a list of expressions
(`Expr.Reading`), and each choice picks what its fields ask for.
-/

namespace MotionGraph.Expr

/-- The names of all alternatives. -/
def alternatives : List String :=
  ["add", "sub", "multiply", "divide", "modulo", "pow", "and", "or", "sqrt", "log", "sin", "cos",
   "tan", "acos", "asin", "atan", "exp", "round", "abs", "not", "eq", "neq", "lessThan",
   "greaterThan", "lessOrEq", "greaterOrEq", "value", "number", "cond", "set", "block"]

/-- The folding operator of a name. -/
def foldOp? : String → Option FoldOp
  | "add" => some .add
  | "sub" => some .sub
  | "multiply" => some .multiply
  | "divide" => some .divide
  | "modulo" => some .modulo
  | "pow" => some .pow
  | "and" => some .and
  | "or" => some .or
  | _ => none

/-- The function of a name. -/
def unaryOp? : String → Option UnaryOp
  | "sqrt" => some .sqrt
  | "log" => some .log
  | "sin" => some .sin
  | "cos" => some .cos
  | "tan" => some .tan
  | "acos" => some .acos
  | "asin" => some .asin
  | "atan" => some .atan
  | "exp" => some .exp
  | "round" => some .round
  | "abs" => some .abs
  | "not" => some .not
  | _ => none

/-- The test of a name. -/
def compareOp? : String → Option CompareOp
  | "eq" => some .eq
  | "neq" => some .neq
  | "lessThan" => some .lessThan
  | "greaterThan" => some .greaterThan
  | "lessOrEq" => some .lessOrEq
  | "greaterOrEq" => some .greaterOrEq
  | _ => none

/-- What a part of a JSON value reads as. -/
structure Reading where
  json : Json
  expr : Option Expr
  exprs : Option (List Expr)

/-- The fields of a choice, each with what it reads as. -/
inductive Fields where
  | named (fields : List (String × Reading))
  | listed (items : List Reading)

/-- The declared fields, in their order; a list must not have more. -/
def Fields.select? (names : List String) : Fields → Option (List (Option Reading))
  | .named fields =>
    some (names.map fun name => (fields.find? fun f => f.1 = name).map Prod.snd)
  | .listed items =>
    if names.length < items.length then none
    else some ((items.map some) ++ List.replicate (names.length - items.length) none)

/-- A field that must be an expression. -/
def expr? (r : Option Reading) : Option Expr := r.bind Reading.expr

/-- A field that must be a list of expressions. -/
def exprs? (r : Option Reading) : Option (List Expr) := r.bind Reading.exprs

/-- A list of expressions that may be missing. -/
def others? : Option Reading → Option (List Expr)
  | none => some []
  | some r => r.exprs

/-- A branch that may be missing or `null`; its value is then zero. -/
def branch? : Option Reading → Option Expr
  | none => some (.number 0.0)
  | some r => match r.json with
    | .null => some (.number 0.0)
    | _ => r.expr

/-- A field that must be a node's name. -/
def tag? (r : Option Reading) : Option Tag :=
  (Json.required? Json.toId? (r.map Reading.json)).map Tag.mk

/-- The expression that a named alternative and its fields stand for. -/
def build? (name : String) (fields : Fields) : Option Expr :=
  match foldOp? name, unaryOp? name, compareOp? name with
  | some op, _, _ => do
    let [a, b, others] ← fields.select? ["a", "b", "others"] | none
    return .fold op ((← expr? a) :: (← expr? b) :: (← others? others))
  | _, some op, _ => do
    let [v] ← fields.select? ["v"] | none
    return .unary op (← expr? v)
  | _, _, some op => do
    let [left, right] ← fields.select? ["left", "right"] | none
    return .compare op (← expr? left) (← expr? right)
  | none, none, none =>
    match name with
    | "value" => do
      let [tag] ← fields.select? ["tag"] | none
      return .value (← tag? tag)
    | "number" => do
      let [x] ← fields.select? ["value"] | none
      return .number (← Json.required? Json.toFloat? (x.map Reading.json))
    | "cond" => do
      let [test, yes, no] ← fields.select? ["expr", "ifNode", "elseNode"] | none
      return .cond (← expr? test) (← expr? yes) (← branch? no)
    | "set" => do
      let [target, source] ← fields.select? ["target", "source"] | none
      return .set (← tag? target) (← expr? source)
    | "block" => do
      let [nodes] ← fields.select? ["nodes"] | none
      return .block (← exprs? nodes)
    | _ => none

/-- The expression of an object with the given fields. -/
def ofNamed? (fields : List (String × Reading)) : Option Expr := do
  let (_, tag) ← fields.find? fun f => f.1 = "type"
  build? (← Json.alternative? alternatives true tag.json) (.named fields)

/-- The expression of a list with the given items. -/
def ofListed? : List Reading → Option Expr
  | [] => none
  | tag :: items => do
    build? (← Json.alternative? alternatives true tag.json) (.listed items)

mutual

/-- What a JSON value reads as inside an expression. -/
def reading : Json → Reading
  | .object fields => ⟨.object fields, ofNamed? (fieldReadings fields), none⟩
  | .array items =>
    let readings := itemReadings items
    ⟨.array items, ofListed? readings, readings.mapM Reading.expr⟩
  | j => ⟨j, none, none⟩
termination_by structural j => j

/-- What the items of a list read as. -/
def itemReadings : List Json → List Reading
  | [] => []
  | j :: rest => reading j :: itemReadings rest
termination_by structural l => l

/-- What the fields of an object read as. -/
def fieldReadings : List (String × Json) → List (String × Reading)
  | [] => []
  | (name, j) :: rest => (name, reading j) :: fieldReadings rest
termination_by structural l => l

end

/-- The expression inside another record. -/
def ofInner? (j : Json) : Option Expr := (reading j).expr

/-- The expression that a whole JSON value stands for; here an operator goes by its name only. -/
def ofJson? (j : Json) : Option Expr :=
  match j with
  | .object fields =>
    match Json.lookup? "type" fields with
    | some (.string _) => ofInner? j
    | _ => none
  | .array (.string _ :: _) => ofInner? j
  | _ => none

end MotionGraph.Expr
