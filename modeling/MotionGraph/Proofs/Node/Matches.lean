import Mathlib.Data.List.Perm.Subperm
import MotionGraph.Node.Prop
import MotionGraph.Proofs.Ordered.Lookup

/-!
# Property maps that are the same for a view

Two property maps match (`PropMap.Matches`) if they give every name values that match, where numbers
match if they are equal as numbers or both undefined. Every map matches itself
(`PropMap.Matches.refl`), and maps that agree match (`PropMap.matches_of_agrees`): agreement looks
up the entries of the first map alone, but the two maps are of one size. A map agrees with itself
only if all its numbers are defined (`PropMap.agrees_self`).
-/

namespace MotionGraph

/-- Whether two numbers are equal as numbers, or both undefined. -/
def Double.Matches (x y : Float) : Prop := (x == y) = true ∨ x.isNaN = true ∧ y.isNaN = true

/-- Whether two operations are the same, with operands that match. -/
def TransformValue.Matches (a b : TransformValue) : Prop :=
  a.property = b.property ∧ Double.Matches a.value b.value

/-- Whether two property values match. -/
def PropValue.Matches : PropValue → PropValue → Prop
  | .number x, .number y => Double.Matches x y
  | .transform as, .transform bs => List.Forall₂ TransformValue.Matches as bs
  | .viewDefault, .viewDefault => True
  | _, _ => False

/-- Whether two property maps give matching values to the same names. -/
def PropMap.Matches (m n : PropMap) : Prop :=
  ∀ name, Option.Rel PropValue.Matches (m.get? name) (n.get? name)

/-! ### Every map matches itself -/

/-- A double is equal to itself unless it is undefined. -/
theorem Double.beq_self {x : Float} (h : x.isNaN = false) : (x == x) = true := by
  have hx : x.toModel.unpack.isNaN = false := h
  show x.toModel.unpack.beq x.toModel.unpack = true
  generalize x.toModel.unpack = u at hx
  unfold Float.Model.UnpackedFloat.beq
  cases u with
  | notANumber => cases hx
  | infinity s => cases s <;> rfl
  | zero s => rfl
  | finite s m e hm =>
    have hsame : (compare e e).then (compare m m) = .eq := by simp
    unfold Float.Model.UnpackedFloat.compare
    cases s <;> dsimp only <;> rw [hsame] <;> rfl

/-- Every double matches itself. -/
theorem Double.Matches.refl (x : Float) : Double.Matches x x := by
  cases h : x.isNaN with
  | false => exact Or.inl (Double.beq_self h)
  | true => exact Or.inr ⟨h, h⟩

/-- Every property value matches itself. -/
theorem PropValue.Matches.refl (v : PropValue) : v.Matches v := by
  cases v with
  | number x => exact Double.Matches.refl x
  | transform operations =>
    exact List.forall₂_same.2 fun a _ => ⟨rfl, Double.Matches.refl a.value⟩
  | viewDefault => trivial

/-- Every property map matches itself. -/
theorem PropMap.Matches.refl (m : PropMap) : m.Matches m := by
  intro name
  cases m.get? name with
  | none => exact .none
  | some v => exact .some (PropValue.Matches.refl v)

/-! ### Maps that agree -/

/-- Operations that agree match. -/
theorem TransformValue.matches_of_agreeAll {as bs : List TransformValue}
    (h : TransformValue.agreeAll as bs = true) : List.Forall₂ TransformValue.Matches as bs := by
  fun_induction TransformValue.agreeAll as bs with
  | case1 => exact .nil
  | case2 a as b bs ih =>
    rw [Bool.and_eq_true, TransformValue.agrees, Bool.and_eq_true, decide_eq_true_eq] at h
    exact .cons ⟨h.1.1, Or.inl h.1.2⟩ (ih h.2)
  | case3 => cases h

/-- Values that agree match. -/
theorem PropValue.matches_of_agrees {v w : PropValue} (h : v.agrees w = true) : v.Matches w := by
  fun_cases PropValue.agrees v w with
  | case1 x y => exact Or.inl h
  | case2 as bs => exact TransformValue.matches_of_agreeAll h
  | case3 => trivial
  | case4 => simp_all [agrees]

/-- Maps that agree match. -/
theorem PropMap.matches_of_agrees {m n : PropMap} (h : m.agrees n = true) : m.Matches n := by
  rw [agrees, Bool.and_eq_true, decide_eq_true_eq, List.all_eq_true] at h
  obtain ⟨hsize, hall⟩ := h
  have hsome : ∀ name v, m.get? name = some v → ∃ w, n.get? name = some w ∧ v.Matches w := by
    intro name v hv
    have he := hall (name, v) (OrderedMap.get?_eq_some_iff.1 hv)
    dsimp only at he
    split at he
    · next w hw => exact ⟨w, hw, PropValue.matches_of_agrees he⟩
    · cases he
  -- the names of the first map are among those of the second, and are as many
  have hsub : m.keys ⊆ n.keys := by
    intro name hname
    obtain ⟨v, hv⟩ := Option.isSome_iff_exists.1 (OrderedMap.get?_isSome_iff.2 hname)
    obtain ⟨w, hw, -⟩ := hsome name v hv
    exact OrderedMap.get?_isSome_iff.1 (Option.isSome_iff_exists.2 ⟨w, hw⟩)
  have hperm : m.keys.Perm n.keys := by
    refine (m.keys_nodup.subperm hsub).perm_of_length_le ?_
    simp only [OrderedMap.size] at hsize
    simp [OrderedMap.keys, hsize]
  intro name
  cases hv : m.get? name with
  | some v =>
    obtain ⟨w, hw, hvw⟩ := hsome name v hv
    rw [hw]
    exact .some hvw
  | none =>
    have hn : n.get? name = none := by
      rw [OrderedMap.get?_eq_none_iff] at hv ⊢
      exact fun hname => hv (hperm.mem_iff.2 hname)
    rw [hn]
    exact .none

/-! ### Maps that agree with themselves -/

/-- Whether all numbers of a value are defined. -/
def PropValue.isDefined : PropValue → Bool
  | .number x => !x.isNaN
  | .transform operations => operations.all fun a => !a.value.isNaN
  | .viewDefault => true

/-- Whether all numbers of a map are defined. -/
def PropMap.isDefined (m : PropMap) : Bool := m.toList.all fun e => e.2.isDefined

/-- What is equal to something is defined. -/
theorem Double.isNaN_of_beq {x y : Float} (h : (x == y) = true) : y.isNaN = false := by
  have hxy : x.toModel.unpack.beq y.toModel.unpack = true := h
  show y.toModel.unpack.isNaN = false
  cases hy : y.toModel.unpack with
  | notANumber =>
    rw [hy] at hxy
    cases hx : x.toModel.unpack <;> rw [hx] at hxy <;> cases hxy
  | _ => rfl

/-- A double is equal to itself exactly if it is defined. -/
theorem Double.beq_self_eq (x : Float) : (x == x) = !x.isNaN := by
  cases h : x.isNaN with
  | false => exact Double.beq_self h
  | true =>
    rw [Bool.not_true, Bool.eq_false_iff]
    intro hx
    rw [Double.isNaN_of_beq hx] at h
    cases h

/-- Operations agree with themselves exactly if their operands are defined. -/
theorem TransformValue.agreeAll_self (as : List TransformValue) :
    agreeAll as as = as.all fun a => !a.value.isNaN := by
  induction as with
  | nil => rfl
  | cons a as ih => rw [agreeAll, agrees, ih, Double.beq_self_eq, List.all_cons]; simp

/-- Operations that agree with others have defined operands, and so have the others. -/
theorem TransformValue.all_of_agreeAll {as bs : List TransformValue} (h : agreeAll as bs = true) :
    (bs.all fun b => !b.value.isNaN) = true := by
  fun_induction agreeAll as bs with
  | case1 => rfl
  | case2 a as b bs ih =>
    rw [Bool.and_eq_true, agrees, Bool.and_eq_true] at h
    rw [List.all_cons, Double.isNaN_of_beq h.1.2, ih h.2]
    rfl
  | case3 => cases h

/-- A value agrees with itself exactly if its numbers are defined. -/
theorem PropValue.agrees_self (v : PropValue) : v.agrees v = v.isDefined := by
  cases v with
  | number x => exact Double.beq_self_eq x
  | transform operations => exact TransformValue.agreeAll_self operations
  | viewDefault => rfl

/-- What a value agrees with is defined. -/
theorem PropValue.isDefined_of_agrees {v w : PropValue} (h : v.agrees w = true) :
    w.isDefined = true := by
  fun_cases agrees v w with
  | case1 x y => rw [isDefined, Double.isNaN_of_beq h]; rfl
  | case2 as bs => exact TransformValue.all_of_agreeAll h
  | case3 => rfl
  | case4 => simp_all [agrees]

/-- **A map agrees with itself exactly if its numbers are defined.** -/
theorem PropMap.agrees_self (m : PropMap) : m.agrees m = m.isDefined := by
  have hsize : decide (m.size = m.size) = true := decide_eq_true rfl
  rw [agrees, hsize, Bool.true_and, isDefined, Bool.eq_iff_iff, List.all_eq_true, List.all_eq_true]
  refine forall₂_congr fun e he => ?_
  have hget : m.get? e.1 = some e.2 := OrderedMap.get?_eq_some_iff.2 he
  rw [hget]
  exact iff_of_eq (congrArg (· = true) (PropValue.agrees_self e.2))

/-- What a map agrees with is defined. -/
theorem PropMap.isDefined_of_agrees {m n : PropMap} (h : m.agrees n = true) :
    n.isDefined = true := by
  refine List.all_eq_true.2 fun e he => ?_
  have hn : n.get? e.1 = some e.2 := OrderedMap.get?_eq_some_iff.2 he
  have hrel := matches_of_agrees h e.1
  rw [hn] at hrel
  cases hm : m.get? e.1 with
  | none =>
    rw [hm] at hrel
    cases hrel
  | some v =>
    rw [agrees, Bool.and_eq_true, List.all_eq_true] at h
    have hv := h.2 (e.1, v) (OrderedMap.get?_eq_some_iff.1 hm)
    rw [hn] at hv
    exact PropValue.isDefined_of_agrees hv

end MotionGraph
