import MotionGraph.Json.Shape
import MotionGraph.Node.Angle
import MotionGraph.Node.Basic
import MotionGraph.Node.Expr.Reader
import MotionGraph.Node.PropReader
import MotionGraph.Number.Style
import MotionGraph.Text.Quoted

/-!
# Settings of nodes

A node is described by a JSON value. Reading goes in two steps: `NodeConfig.ofJson?` takes the
value for what it says and answers nothing if it has another shape; `NodeConfig.build` then checks
what it says and makes the node, or tells what is wrong (`ConfigError`).
-/

namespace MotionGraph

/-- The operand of an operation as it is written. -/
inductive OperandConfig where
  | node (tag : Tag)
  | number (x : Float)
  /-- An angle with its unit. -/
  | text (s : String)

/-- An operation as it is written. -/
structure TransformConfig where
  property : TransformProperty
  operand : OperandConfig

/-- A node as it is written. -/
inductive NodeConfig where
  | value (base offset : Float)
  | style (sources : OrderedMap String Tag)
  | transform (entries : List TransformConfig)
  | props (sources : OrderedMap String Tag)
  | interpolation (input : Option Tag) (inputs outputs : List Float)
      (both left right : Option Extrapolation)
  | arithmetic (op : Arithmetic) (inputs : List Tag)
  | diffClamp (input : Option Tag) (low high : Float)
  | tracking (animation : AnimationId) (followed follower : Tag) (template : Json)
  | expression (tree : Expr)
  | proc (expression : Tag) (args params : List Tag)

/-- What can be wrong with the description of a node. -/
inductive ConfigError where
  /-- It has not the shape of any node. -/
  | shape
  | breakpoints (cause : BreakpointError)
  /-- The bounds of a diff-clamp are no bounds. -/
  | bounds (low high : Float)
  /-- The settings of a tracking node's animation are not an object. -/
  | templateNotObject
  /-- A call has not as many inputs as receivers. -/
  | arity (args params : Nat)
  /-- A text is no angle. -/
  | angle (text : String)
  /-- An operation without an angle is given a text. -/
  | operandNotNumber (property : TransformProperty) (text : String)

/-- What the user is told. -/
def ConfigError.message : ConfigError → String
  | .shape => "unreadable"
  | .breakpoints cause => cause.message
  | .bounds low high =>
    "diffclamp min " ++ NumberStyle.message.render low ++ " must not exceed max "
      ++ NumberStyle.message.render high
  | .templateNotObject => "tracking animationConfig must be an object"
  | .arity args params =>
    "proc has " ++ toString args ++ " args but " ++ toString params ++ " params"
  | .angle text => "invalid angle " ++ Quoted.encode text
  | .operandNotNumber property text =>
    property.caption ++ " expects a number, got " ++ Quoted.encode text

/-- The policy of a name. -/
def Extrapolation.ofName? : String → Option Extrapolation
  | "extend" => some .extend
  | "clamp" => some .clamp
  | "identity" => some .identity
  | _ => none

/-- The policy that a bare name stands for. -/
def Extrapolation.ofJson? (j : Json) : Option Extrapolation :=
  (Json.toName? true j).bind ofName?

/-- The name of a node. -/
def Tag.ofJson? (j : Json) : Option Tag := j.toId?.map Tag.mk

/-- Names with a node each. -/
def Tag.mapOfJson? : Json → Option (OrderedMap String Tag)
  | .object fields =>
    (fields.mapM fun f => (Tag.ofJson? f.2).map fun t => (f.1, t)).map OrderedMap.ofList
  | _ => none

namespace TransformConfig

/-- A constant operand: a number or a text. -/
def constant? : Json → Option OperandConfig
  | .number n => some (.number n.toFloat)
  | .string s => some (.text s)
  | _ => none

/-- The operation that a JSON value inside a node's description stands for. -/
def ofJson? (j : Json) : Option TransformConfig := do
  let (name, fields) ← Json.choice? ["animated", "static"] true j
  match name with
  | "animated" =>
    let [property, tag] ← fields.select? ["property", "nodeTag"] | none
    return ⟨← Json.required? (TransformProperty.ofJson? true) property,
      .node (← Json.required? Tag.ofJson? tag)⟩
  | _ =>
    let [property, value] ← fields.select? ["property", "value"] | none
    return ⟨← Json.required? (TransformProperty.ofJson? true) property,
      ← Json.required? constant? value⟩

/-- The angle that a text stands for. -/
def angle (text : String) : Except ConfigError Float :=
  let trimmed := Blank.trim text.toList
  match Angle.parse? trimmed with
  | some x => .ok x
  | none => .error (.angle (String.ofList trimmed))

/-- The operation described. -/
def build (c : TransformConfig) : Except ConfigError TransformEntry :=
  match c.operand with
  | .node tag => .ok ⟨c.property, .node tag⟩
  | .number x => .ok ⟨c.property, .constant x⟩
  | .text s =>
    if c.property.isAngle then (angle s).map fun x => ⟨c.property, .constant x⟩
    else .error (.operandNotNumber c.property s)

end TransformConfig

namespace NodeConfig

/-- The names of all kinds. -/
def alternatives : List String :=
  ["value", "style", "transform", "props", "interpolation", "addition", "subtraction",
   "multiplication", "division", "modulus", "diffclamp", "tracking", "expression", "proc"]

/-- The arithmetic operator of a name. -/
def arithmetic? : String → Option Arithmetic
  | "addition" => some .addition
  | "subtraction" => some .subtraction
  | "multiplication" => some .multiplication
  | "division" => some .division
  | "modulus" => some .modulus
  | _ => none

/-- The description that a named kind and its fields stand for. -/
def ofFields? (name : String) (fields : Json.Fields) : Option NodeConfig :=
  match name with
  | "value" => do
    let [base, offset] ← fields.select? ["value", "offset"] | none
    return .value (← Json.defaulted? 0.0 Json.toFloat? base)
      (← Json.defaulted? 0.0 Json.toFloat? offset)
  | "style" => do
    let [sources] ← fields.select? ["style"] | none
    return .style (← Json.required? Tag.mapOfJson? sources)
  | "transform" => do
    let [transforms] ← fields.select? ["transforms"] | none
    return .transform (← Json.required? (Json.toList? TransformConfig.ofJson?) transforms)
  | "props" => do
    let [sources] ← fields.select? ["props"] | none
    return .props (← Json.required? Tag.mapOfJson? sources)
  | "interpolation" => do
    let [input, inputs, outputs, both, left, right] ← fields.select?
      ["input", "inputRange", "outputRange", "extrapolate", "extrapolateLeft", "extrapolateRight"]
      | none
    return .interpolation (← Json.optional? Tag.ofJson? input)
      (← Json.required? (Json.toList? Json.toFloat?) inputs)
      (← Json.required? (Json.toList? Json.toFloat?) outputs)
      (← Json.optional? Extrapolation.ofJson? both)
      (← Json.optional? Extrapolation.ofJson? left)
      (← Json.optional? Extrapolation.ofJson? right)
  | "diffclamp" => do
    let [input, low, high] ← fields.select? ["input", "min", "max"] | none
    return .diffClamp (← Json.optional? Tag.ofJson? input) (← Json.required? Json.toFloat? low)
      (← Json.required? Json.toFloat? high)
  | "tracking" => do
    let [animation, followed, follower, template] ← fields.select?
      ["animationId", "toValue", "value", "animationConfig"] | none
    return .tracking ⟨← Json.required? Json.toId? animation⟩
      (← Json.required? Tag.ofJson? followed) (← Json.required? Tag.ofJson? follower)
      (← Json.required? some template)
  | "expression" => do
    let [graph] ← fields.select? ["graph"] | none
    return .expression (← Json.required? Expr.ofInner? graph)
  | "proc" => do
    let [callee, args, params] ← fields.select? ["expression", "args", "params"] | none
    return .proc (← Json.required? Tag.ofJson? callee)
      (← Json.required? (Json.toList? Tag.ofJson?) args)
      (← Json.required? (Json.toList? Tag.ofJson?) params)
  | name => do
    let op ← arithmetic? name
    let [input] ← fields.select? ["input"] | none
    return .arithmetic op (← Json.defaulted? [] (Json.toList? Tag.ofJson?) input)

/-- The description that a JSON value stands for. -/
def ofJson? (j : Json) : Option NodeConfig := do
  let (name, fields) ← Json.choice? alternatives false j
  ofFields? name fields

/-- The node described, under the given name. -/
def build (tag : Tag) : NodeConfig → Except ConfigError Node
  | .value base offset => .ok { tag, kind := .value, base, offset }
  | .style sources => .ok { tag, kind := .style sources }
  | .transform entries =>
    (entries.mapM TransformConfig.build).map fun entries => { tag, kind := .transform entries }
  | .props sources => .ok { tag, kind := .props { sources } }
  | .interpolation input inputs outputs both left right =>
    let both := both.getD .extend
    match Interpolation.ofLists inputs outputs (left.getD both) (right.getD both) with
    | .ok curve => .ok { tag, kind := .interpolation input curve }
    | .error cause => .error (.breakpoints cause)
  | .arithmetic op inputs => .ok { tag, kind := .arithmetic op inputs }
  | .diffClamp input low high =>
    if DiffClamp.areBounds low high then .ok { tag, kind := .diffClamp input { low, high } }
    else .error (.bounds low high)
  | .tracking animation followed follower template =>
    match template with
    | .object fields =>
      .ok { tag, kind := .tracking ⟨animation, some followed, some follower, fields⟩ }
    | _ => .error .templateNotObject
  | .expression tree => .ok { tag, kind := .expression tree }
  | .proc callee args params =>
    if args.length = params.length then .ok { tag, kind := .proc ⟨some callee, args.zip params⟩ }
    else .error (.arity args.length params.length)

end NodeConfig

/-- The node that a JSON value describes, under the given name. -/
def Node.ofJson (tag : Tag) (j : Json) : Except ConfigError Node :=
  match NodeConfig.ofJson? j with
  | some config => config.build tag
  | none => .error .shape

end MotionGraph
