import MotionGraph.Node.Arithmetic
import MotionGraph.Ordered.Set
import MotionGraph.Tag

/-!
# Expressions

An expression computes a number from the values of nodes and may ask for values to be written into
nodes. Truth is a number other than zero; tests give one or zero.

`Expr.evaluate` walks the tree from left to right with the list of writes asked for so far: a write
is not carried out, but later reads of its target see it. `Expr.tags` lists the nodes that a tree
names, and `Expr.forget` removes a node from it.
-/

namespace MotionGraph

/-- Operators that combine two or more operands from the left. -/
inductive FoldOp where
  | add
  | sub
  | multiply
  | divide
  | modulo
  | pow
  | and
  | or
  deriving DecidableEq, Repr

/-- Functions of one operand. -/
inductive UnaryOp where
  | sqrt
  | log
  | sin
  | cos
  | tan
  | acos
  | asin
  | atan
  | exp
  | round
  | abs
  | not
  deriving DecidableEq, Repr

/-- Tests of two operands. -/
inductive CompareOp where
  | eq
  | neq
  | lessThan
  | greaterThan
  | lessOrEq
  | greaterOrEq
  deriving DecidableEq, Repr

/-- Whether a number counts as true. -/
def isTrue (x : Float) : Bool := x != 0.0

/-- The number that stands for a truth value. -/
def truth (b : Bool) : Float := if b then 1.0 else 0.0

/-- The value so far and the next operand, combined. A zero divisor gives zero. -/
def FoldOp.apply (op : FoldOp) (acc rhs : Float) : Float :=
  match op with
  | .add => acc + rhs
  | .sub => acc - rhs
  | .multiply => acc * rhs
  | .divide => if rhs == 0.0 then 0.0 else acc / rhs
  | .modulo => if rhs == 0.0 then 0.0 else Double.modulus acc rhs
  | .pow => Float.pow acc rhs
  | .and => truth (isTrue acc && isTrue rhs)
  | .or => truth (isTrue acc || isTrue rhs)

/-- The value of a function; `round` takes a half up. -/
def UnaryOp.apply (op : UnaryOp) (x : Float) : Float :=
  match op with
  | .sqrt => Float.sqrt x
  | .log => Float.log x
  | .sin => Float.sin x
  | .cos => Float.cos x
  | .tan => Float.tan x
  | .acos => Float.acos x
  | .asin => Float.asin x
  | .atan => Float.atan x
  | .exp => Float.exp x
  | .round => Float.floor (x + 0.5)
  | .abs => Float.abs x
  | .not => truth (!isTrue x)

/-- One if the test holds, and zero if not. -/
def CompareOp.apply (op : CompareOp) (left right : Float) : Float :=
  truth <| match op with
  | .eq => left == right
  | .neq => left != right
  | .lessThan => left < right
  | .greaterThan => right < left
  | .lessOrEq => left ≤ right
  | .greaterOrEq => right ≤ left

/-- An expression. -/
inductive Expr where
  /-- An operator over its operands; without operands the value is zero. -/
  | fold (op : FoldOp) (operands : List Expr)
  /-- A function of one operand. -/
  | unary (op : UnaryOp) (operand : Expr)
  /-- A test. -/
  | compare (op : CompareOp) (left right : Expr)
  /-- The value of a node; one that does not exist reads as zero. -/
  | value (tag : Tag)
  /-- A number. -/
  | number (x : Float)
  /-- One of two branches. -/
  | cond (test yes no : Expr)
  /-- Asks for a value to be written into a node, and has that value. -/
  | set (target : Tag) (source : Expr)
  /-- Steps one after the other; the value is that of the last, or zero. -/
  | block (steps : List Expr)
  deriving Inhabited

/-- Values asked to be written, in the order of asking. -/
abbrev Writes := List (Tag × Float)

/-- The value last asked to be written into a node. -/
def Writes.latest? (writes : Writes) (tag : Tag) : Option Float :=
  (writes.reverse.find? fun w => w.1 = tag).map Prod.snd

namespace Expr

/-- What a read of a node gives: the value last asked for, else the node's own, else zero. -/
def readThrough (read : Tag → Option Float) (writes : Writes) (tag : Tag) : Float :=
  ((writes.latest? tag).or (read tag)).getD 0.0

mutual

/-- The value of an expression and the writes asked for, after those asked for before it. -/
def eval (read : Tag → Option Float) : Expr → Writes → Float × Writes
  | .fold op operands, ws => evalFold read op operands ws
  | .unary op e, ws =>
    let (x, ws) := eval read e ws
    (op.apply x, ws)
  | .compare op l r, ws =>
    let (x, ws) := eval read l ws
    let (y, ws) := eval read r ws
    (op.apply x y, ws)
  | .value tag, ws => (readThrough read ws tag, ws)
  | .number x, ws => (x, ws)
  | .cond test yes no, ws =>
    let (x, ws) := eval read test ws
    if isTrue x then eval read yes ws else eval read no ws
  | .set target source, ws =>
    let (x, ws) := eval read source ws
    (x, ws ++ [(target, x)])
  | .block steps, ws => evalSteps read 0.0 steps ws
termination_by structural e => e

/-- The value of an operator over its operands. -/
def evalFold (read : Tag → Option Float) (op : FoldOp) : List Expr → Writes → Float × Writes
  | [], ws => (0.0, ws)
  | e :: es, ws =>
    let (x, ws) := eval read e ws
    evalRest read op x es ws
termination_by structural es => es

/-- The value of an operator over the value so far and further operands. -/
def evalRest (read : Tag → Option Float) (op : FoldOp) (acc : Float) :
    List Expr → Writes → Float × Writes
  | [], ws => (acc, ws)
  | e :: es, ws =>
    let (x, ws) := eval read e ws
    evalRest read op (op.apply acc x) es ws
termination_by structural es => es

/-- The value of the last of several steps. -/
def evalSteps (read : Tag → Option Float) (last : Float) : List Expr → Writes → Float × Writes
  | [], ws => (last, ws)
  | e :: es, ws =>
    let (x, ws) := eval read e ws
    evalSteps read x es ws
termination_by structural es => es

end

/-- The value of an expression and all writes it asks for. -/
def evaluate (read : Tag → Option Float) (e : Expr) : Float × Writes := e.eval read []

mutual

/-- Every naming of a node in a tree, from left to right, a target before its source. -/
def mentions : Expr → List Tag
  | .fold _ operands => mentionsAll operands
  | .unary _ e => mentions e
  | .compare _ l r => mentions l ++ mentions r
  | .value tag => [tag]
  | .number _ => []
  | .cond test yes no => mentions test ++ mentions yes ++ mentions no
  | .set target source => target :: mentions source
  | .block steps => mentionsAll steps
termination_by structural e => e

/-- Every naming of a node in a list of trees. -/
def mentionsAll : List Expr → List Tag
  | [] => []
  | e :: es => mentions e ++ mentionsAll es
termination_by structural es => es

end

/-- The nodes that a tree reads or writes, each once, in the order of their first naming. -/
def tags (e : Expr) : OrderedSet Tag := OrderedSet.empty.insertAll e.mentions

mutual

/-- The tree without a node: reads of it become the zero that a missing node reads as, and of
writes to it the source remains. -/
def forget (tag : Tag) : Expr → Expr
  | .fold op operands => .fold op (forgetAll tag operands)
  | .unary op e => .unary op (forget tag e)
  | .compare op l r => .compare op (forget tag l) (forget tag r)
  | .value t => if t = tag then .number 0.0 else .value t
  | .number x => .number x
  | .cond test yes no => .cond (forget tag test) (forget tag yes) (forget tag no)
  | .set target source =>
    if target = tag then forget tag source else .set target (forget tag source)
  | .block steps => .block (forgetAll tag steps)
termination_by structural e => e

/-- Several trees without a node. -/
def forgetAll (tag : Tag) : List Expr → List Expr
  | [] => []
  | e :: es => forget tag e :: forgetAll tag es
termination_by structural es => es

end

end Expr

end MotionGraph
