import MotionGraph.Settings.Literal
import MotionGraph.Settings.Token

/-!
# Extensions of a settings text

In front of the record a text may switch on extensions of its syntax, any number of times:
`#![enable(implicit_some, explicit_struct_names)]`.
-/

namespace MotionGraph.Settings

/-- The extensions. -/
inductive Extension where
  /-- What may be left open is written without `Some`. -/
  | implicitSome
  /-- The record has its name in front. -/
  | explicitStructNames
  /-- Wrappers of a single value are left out; settings have none. -/
  | unwrapNewtypes
  /-- Brackets around the fields of a wrapped record are left out; settings have none. -/
  | unwrapVariantNewtypes
  deriving DecidableEq, Repr

/-- The extension of a name. -/
def Extension.ofName? : String → Option Extension
  | "implicit_some" => some .implicitSome
  | "explicit_struct_names" => some .explicitStructNames
  | "unwrap_newtypes" => some .unwrapNewtypes
  | "unwrap_variant_newtypes" => some .unwrapVariantNewtypes
  | _ => none

/-- The extension that a word names. -/
def extension? (cs : List Char) : Option Extension :=
  (name? cs).bind fun name => Extension.ofName? (String.ofList name)

mutual

/-- The extensions switched on at the front, after those given, and the tokens behind. -/
def extensions? (on : List Extension) : List Token → Option (List Extension × List Token)
  | .word ['#', '!'] :: .open .square :: .word cs :: .open .round :: rest =>
    if cs = "enable".toList then listed? on rest else none
  | .word ['#'] :: .word ['!'] :: .open .square :: .word cs :: .open .round :: rest =>
    if cs = "enable".toList then listed? on rest else none
  | ts => some (on, ts)
termination_by structural ts => ts

/-- The same from inside a list of names. A comma may follow the last one. -/
def listed? (on : List Extension) : List Token → Option (List Extension × List Token)
  | .word cs :: .comma :: .close .round :: .close .square :: rest
  | .word cs :: .close .round :: .close .square :: rest =>
    (extension? cs).bind fun e => extensions? (e :: on) rest
  | .word cs :: .comma :: rest => (extension? cs).bind fun e => listed? (e :: on) rest
  | _ => none
termination_by structural ts => ts

end

end MotionGraph.Settings
