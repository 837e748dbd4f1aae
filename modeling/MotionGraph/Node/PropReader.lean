import MotionGraph.Json.Shape
import MotionGraph.Node.Prop

/-!
# Reading property values

A property value is a number, a list of operations with their operands, or `null`.
-/

namespace MotionGraph

/-- The operation that a bare name stands for. -/
def TransformProperty.ofJson? (inChoice : Bool) (j : Json) : Option TransformProperty :=
  (Json.toName? inChoice j).bind TransformProperty.ofName?

/-- An operation with its operand. -/
def TransformValue.ofJson? (j : Json) : Option TransformValue := do
  let [property, value] ← (← Json.Fields.of? j).select? ["property", "value"] | none
  return ⟨← Json.required? (TransformProperty.ofJson? false) property,
    ← Json.required? Json.toFloat? value⟩

/-- The property value that a JSON value stands for. -/
def PropValue.ofJson? : Json → Option PropValue
  | .number n => some (.number n.toFloat)
  | .array items => (items.mapM TransformValue.ofJson?).map .transform
  | .null => some .viewDefault
  | _ => none

end MotionGraph
