import Mustache.Proofs.Script.Execution

/-!
When an inverted section is hidden.

A generated module tests the value of an inverted section with a condition, and the renderer
with a function of its own. They agree on every value for one of the policies. For the other
one they agree except on objects whose member `length` the renderer takes for another number
than a script does: a string that is a number for only one of them, or an array of one item,
which a script takes for the item.
-/
set_option autoImplicit false

namespace Mustache

open Json Script

namespace Routine

/-! ## The length of a value -/

theorem ownProperty?_length (value : Value) :
    ownProperty? value "length" = property? value "length" := by
  cases value <;> rfl

/-- Where the length of a value compares alike, it is greater than zero for the renderer if
and only if it is for a script. -/
theorem isPositive_length {value : Value}
    (h : ∀ l, property? value "length" = some l → ComparesAlike l) :
    (quantityOf (ownProperty? value "length")).isPositive = hasPositiveLength value := by
  have habove : hasPositiveLength value = isAboveZero (property? value "length") := by
    rw [hasPositiveLength]
    cases property? value "length" with
    | none => rfl
    | some l => cases l <;> rfl
  rw [ownProperty?_length, habove]
  cases hlength : property? value "length" with
  | none => rfl
  | some l => exact isPositive_quantityOf (h l hlength)

/-! ## The condition -/

section

variable {functions : Functions} {value : Value}

/-- What the names of the condition stand for. -/
def conditionScope (v : Option Value) : Environment :=
  globals.bind "v" (.value v)

theorem eval_isBoolean (v : Option Value) :
    (hasType (.name "v") "boolean").eval functions (conditionScope v)
      = some (.of (.bool (v.any isBoolean)), conditionScope v) := by
  cases v with
  | none => rfl
  | some value => cases value <;> rfl

theorem eval_hasLength (hvalue : value.truthy = true) :
    (Expression.binary .above (.member (.name "v") "length") (.number 0)).eval functions
        (conditionScope (some value))
      = some (.of (.bool (quantityOf (ownProperty? value "length")).isPositive),
          conditionScope (some value)) := by
  cases value with
  | null => cases hvalue
  | bool _ | num _ | str _ | arr _ | obj _ => rfl

theorem eval_isNoArray (v : Option Value) :
    (Expression.binary .differ
        (.send (.member (.member (.name "Object") "prototype") "toString") "call" [.name "v"])
        (.text "[object Array]")).eval functions (conditionScope v)
      = some (.of (.bool (!v.any isArray)), conditionScope v) := by
  cases v with
  | none => rfl
  | some value => cases value <;> rfl

theorem eval_notNot (v : Option Value) :
    (Expression.not (.not (.name "v"))).eval functions (conditionScope v)
      = some (.of (.bool (Mustache.truthy v)), conditionScope v) := by
  have hbool (b : Bool) : (Thing.of (.bool b)).truthy = b := rfl
  have hv : conditionScope v "v" = some (.value v) := rfl
  rw [Expression.eval, Expression.eval, Expression.eval, hv]
  simp only [Option.bind_eq_bind, Option.bind_some, hbool, Bool.not_not]
  rfl

end

/-- The condition of a generated module is what the renderer tests, for every value and
policy, except for objects whose length the two take for different numbers, where the length
alone counts. -/
theorem hidden_condition (functions : Functions) (policy : InvertedPolicy) (v : Option Value)
    (hlength : policy = .lengthOnly → ∀ members l, v = some (.obj members) →
      NameMap.get? members "length" = some l → ComparesAlike l) :
    (hiddenCondition policy).layout = Script.text (hiddenTest policy).pieces
      ∧ (hiddenCondition policy).eval functions (conditionScope v)
        = some (.of (.bool (isHidden policy v)), conditionScope v) := by
  refine ⟨layout_hiddenCondition policy, ?_⟩
  cases v with
  | none =>
      -- The rest of the condition has no value here, and is not reached.
      have hfalse : isHidden policy none = (Mustache.truthy none && true) := rfl
      rw [hfalse]
      exact eval_and (eval_notNot none) fun h => by cases h
  | some value =>
      have hpositive : (∀ members, value ≠ .obj members) ∨ policy = .lengthOnly →
          (quantityOf (ownProperty? value "length")).isPositive = hasPositiveLength value := by
        intro hcase
        refine isPositive_length fun l hl => ?_
        cases value with
        | null | bool _ | num _ => cases hl
        | str _ | arr _ =>
            cases hl
            trivial
        | obj members =>
            rcases hcase with hno | hpolicy
            · exact absurd rfl (hno members)
            · exact hlength hpolicy members l rfl hl
      cases policy with
      | lengthOnly =>
          refine eval_and (eval_notNot _) fun htrue => ?_
          rw [← hpositive (.inr rfl)]
          exact eval_or (eval_isBoolean _) (eval_hasLength htrue)
      | arrayAware =>
          refine (eval_and (eval_notNot (some value)) fun htrue =>
            eval_or (eval_or (eval_isBoolean _) (eval_hasLength htrue)) (eval_isNoArray _)).trans ?_
          cases value with
          -- An object is no array, and so its length does not count.
          | obj members =>
              simp only [isHidden, isArray, Option.any_some, Bool.not_false, Bool.or_true]
              rfl
          | null | bool _ | num _ | str _ | arr _ =>
              rw [hpositive (.inl fun _ => Value.noConfusion)]
              rfl

/-- An object whose length is a string with a sign and a decimal point. -/
theorem hidden_condition_of_decimal :
    (hiddenCondition .lengthOnly).eval (fun _ _ => none)
        (conditionScope (some (.obj [("length", .str " +1.5 ")])))
      = some (.of (.bool true), conditionScope (some (.obj [("length", .str " +1.5 ")]))) := by
  have halike : ReadsAlike " +1.5 ".toList := by decide +kernel
  have htest := (hidden_condition (fun _ _ => none) .lengthOnly
    (some (.obj [("length", .str " +1.5 ")])) fun _ members l hobject hl => by
      cases hobject
      cases hl
      exact halike).2
  have hhidden : isHidden .lengthOnly (some (.obj [("length", .str " +1.5 ")])) = true := by
    decide +kernel
  exact hhidden ▸ htest

/-- The renderer knows no base but ten and reads a word that scripts do not know, and it takes
no array for a number. -/
theorem hidden_condition_of_length :
    let test (length : Value) : Option Bool :=
      ((hiddenCondition .lengthOnly).eval (fun _ _ => none)
        (conditionScope (some (.obj [("length", length)])))).map (·.1.truthy)
    let hidden (length : Value) : Bool := isHidden .lengthOnly (some (.obj [("length", length)]))
    (test (.str "0x10") = some true ∧ hidden (.str "0x10") = false)
      ∧ (test (.str "inf") = some false ∧ hidden (.str "inf") = true)
      ∧ (test (.str "\uFEFF1") = some true ∧ hidden (.str "\uFEFF1") = false)
      ∧ (test (.str "\u00851") = some false ∧ hidden (.str "\u00851") = true)
      ∧ (test (.arr [.num (.int 1)]) = some true ∧ hidden (.arr [.num (.int 1)]) = false) := by
  decide +kernel

end Routine

end Mustache
