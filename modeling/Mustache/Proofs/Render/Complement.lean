import Mustache.Proofs.Data.Merging
import Mustache.Proofs.Render.Building

/-!
A section beside the inverted section of the same expression.

The elements of a section and the test that hides an inverted section look at the value
of the expression in two ways. The one that knows arrays comes out the same: a section has
no element exactly where the inverted one is shown. The one that goes by the length alone
hides less: values that count as true without being a boolean or having a positive length
are shown in both, unless they are arrays (`sections_complementary`).
-/
set_option autoImplicit false

namespace Mustache

open Json

variable {scope : Value} {expression : String}

/-! ## Two ways to look at a value -/

theorem hasPositiveLength_arr (items : List Value) :
    hasPositiveLength (.arr items) = true ↔ items ≠ [] := by
  have hlength : hasPositiveLength (.arr items) = decide ((0 : Int) < items.length) := rfl
  rw [hlength, decide_eq_true_eq, ← List.length_pos_iff]
  omega

/-- What a section is shown for: a value that counts as true, and is no array without
items. -/
theorem elements_ne_nil_iff :
    elements scope expression ≠ [] ↔ ∃ value, lookup scope expression false = some value
      ∧ value.truthy = true ∧ (isArray value = true → hasPositiveLength value = true) := by
  rw [elements]
  cases hlookup : lookup scope expression false with
  | none => simp
  | some value =>
      have hvalue : (∃ v, some value = some v ∧ v.truthy = true
            ∧ (isArray v = true → hasPositiveLength v = true))
          ↔ value.truthy = true ∧ (isArray value = true → hasPositiveLength value = true) := by
        simp
      rw [hvalue]
      by_cases htruthy : value.truthy = true
      · simp only [htruthy, if_true, true_and]
        -- Any other value that counts as true is the one element itself.
        cases value with
        | arr items => exact ⟨fun h _ => (hasPositiveLength_arr items).mpr h,
            fun h => (hasPositiveLength_arr items).mp (h rfl)⟩
        | null | bool _ | num _ | str _ | obj _ => simp [isArray]
      · simp [htruthy]

/-- What hides an inverted section: a value that counts as true, and is a boolean or has a
positive length, or, for a test that knows arrays, is none. -/
theorem isHidden_iff (policy : InvertedPolicy) (found : Option Value) :
    isHidden policy found = true ↔ ∃ value, found = some value ∧ value.truthy = true
      ∧ (isBoolean value = true ∨ hasPositiveLength value = true
        ∨ policy = .arrayAware ∧ isArray value = false) := by
  cases found with
  | none => simp [isHidden]
  | some value => cases policy <;> simp [isHidden, or_assoc]

theorem isArray_eq_false_of_isBoolean {value : Value} (h : isBoolean value = true) :
    isArray value = false := by
  cases value with
  | bool _ => rfl
  | null | num _ | str _ | arr _ | obj _ => cases h

/-- The test that knows arrays hides an inverted section where the section is shown. -/
theorem hidden_iff_elements :
    isHidden .arrayAware (lookup scope expression false) = true
      ↔ elements scope expression ≠ [] := by
  rw [isHidden_iff, elements_ne_nil_iff]
  refine exists_congr fun value => and_congr_right fun _ => and_congr_right fun _ => ?_
  constructor
  · rintro (hboolean | hpositive | ⟨-, harray⟩) hisArray
    · rw [isArray_eq_false_of_isBoolean hboolean] at hisArray
      cases hisArray
    · exact hpositive
    · rw [harray] at hisArray
      cases hisArray
  · -- An array is shown for its items, and these are what its length counts.
    intro h
    by_cases harray : isArray value = true
    · exact .inr (.inl (h harray))
    · exact .inr (.inr ⟨rfl, by simpa using harray⟩)

/-- The test that goes by the length hides an inverted section only where the section is
shown. -/
theorem elements_ne_nil_of_hidden
    (h : isHidden .lengthOnly (lookup scope expression false) = true) :
    elements scope expression ≠ [] := by
  obtain ⟨value, hlookup, htruthy, hcases⟩ := (isHidden_iff _ _).mp h
  refine elements_ne_nil_iff.mpr ⟨value, hlookup, htruthy, fun harray => ?_⟩
  rcases hcases with hboolean | hpositive | ⟨hpolicy, -⟩
  · rw [isArray_eq_false_of_isBoolean hboolean] at harray
    cases harray
  · exact hpositive
  · cases hpolicy

/-- By the length alone, both are shown for a value that counts as true and is no boolean,
no array and of no positive length. -/
theorem both_shown_iff :
    elements scope expression ≠ [] ∧ isHidden .lengthOnly (lookup scope expression false) = false
      ↔ ∃ value, lookup scope expression false = some value ∧ value.truthy = true
        ∧ isBoolean value = false ∧ isArray value = false ∧ hasPositiveLength value = false := by
  constructor
  · rintro ⟨hshown, hhidden⟩
    obtain ⟨value, hlookup, htruthy, harray⟩ := elements_ne_nil_iff.mp hshown
    have hno : ¬ (isBoolean value = true ∨ hasPositiveLength value = true) := by
      intro hcases
      have htrue : isHidden .lengthOnly (lookup scope expression false) = true :=
        (isHidden_iff _ _).mpr ⟨value, hlookup, htruthy, hcases.imp_right .inl⟩
      rw [hhidden] at htrue
      cases htrue
    rw [not_or, Bool.not_eq_true, Bool.not_eq_true] at hno
    have hnoArray : isArray value = false := by
      cases hisArray : isArray value with
      | false => rfl
      | true =>
          have hpositive := harray hisArray
          rw [hno.2] at hpositive
          cases hpositive
    exact ⟨value, hlookup, htruthy, hno.1, hnoArray, hno.2⟩
  · rintro ⟨value, hlookup, htruthy, hboolean, harray, hlength⟩
    refine ⟨elements_ne_nil_iff.mpr ⟨value, hlookup, htruthy, fun h => ?_⟩, ?_⟩
    · rw [harray] at h
      cases h
    · simp [isHidden, hlookup, hboolean, hlength]

/-! ## Scopes -/

/-- The scopes of a section: one for each element, in order, with its place and their
number. -/
def scopePerElement (scope : Value) (expression : String) : List Value :=
  (elements scope expression).mapIdx fun index element =>
    elementScope scope element index (elements scope expression).length

theorem sectionScopes_eq (scope : Value) (expression : String) :
    sectionScopes scope expression = scopePerElement scope expression := by
  unfold sectionScopes
  rw [elementScopesFrom_eq]
  simp only [Nat.zero_add]
  rfl

/-- A section without elements has no scope. -/
theorem scopePerElement_eq_nil (h : elements scope expression = []) :
    scopePerElement scope expression = [] :=
  List.mapIdx_eq_nil_iff.mpr h

/-- The scope of an inverted section: the entries of its parent. -/
def copyOf (scope : Value) : Value :=
  .obj (overlay [] scope)

/-! ## Rendering -/

/-- A section and the inverted section of the same expression. -/
def pairOf (expression : String) (body other : List Node) (l l' : Location) : List Node :=
  [.block .normal expression body l, .block .inverted expression other l']

/-- Whether nodes render as some bodies, each in a scope of its own, one after another:
where text is built, and among texts and elements. -/
structure RendersAs (policy : InvertedPolicy) (inclusions : Inclusions) (scope : Value)
    (nodes : List Node) (shown : List (List Node × Value)) : Prop where
  text : ∀ target, builtText target policy inclusions scope nodes
    = (shown.mapM fun part => builtText target policy inclusions part.2 part.1).map String.join
  entries : renderNodes policy inclusions scope nodes
    = (shown.mapM fun part => renderNodes policy inclusions part.2 part.1).map List.flatten

/-- Where text is built, the texts of two blocks come one after the other. -/
theorem builtText_blocks (target : Target) (policy : InvertedPolicy) (inclusions : Inclusions)
    (body other : List Node) (l l' : Location) :
    builtText target policy inclusions scope (pairOf expression body other l l') = (do
      let first ← joinScopes (fun child => builtText target policy inclusions child body)
        (sectionScopes scope expression)
      let second ← joinScopes (fun child => builtText target policy inclusions child other)
        (invertedScopes policy scope expression)
      some (first ++ second)) := by
  rw [pairOf, builtText_cons_eq, builtText_cons_eq, builtTextOfNode_block, builtTextOfNode_block,
    builtText_nil]
  simp only [blockScopes, Option.bind_eq_bind, Option.bind_some, String.append_empty,
    Option.bind_fun_some]

/-- The entries of two blocks come one after the other. -/
theorem renderNodes_blocks (policy : InvertedPolicy) (inclusions : Inclusions)
    (body other : List Node) (l l' : Location) :
    renderNodes policy inclusions scope (pairOf expression body other l l') = (do
      let first ← appendScopes (fun child => renderNodes policy inclusions child body)
        (sectionScopes scope expression)
      let second ← appendScopes (fun child => renderNodes policy inclusions child other)
        (invertedScopes policy scope expression)
      some (first ++ second)) := by
  simp only [pairOf, renderNodes, renderNode, blockScopes, Option.bind_eq_bind, Option.bind_some,
    List.append_nil, Option.bind_fun_some]

/-- Bodies in the scopes of two blocks give what the first block gives and then what the
second one gives, and nothing if one of them gives nothing. -/
theorem mapM_two {α γ δ : Type} (f : List Node × α → Option γ) {join : List γ → δ}
    {append : δ → δ → δ}
    (hjoin : ∀ first second, join (first ++ second) = append (join first) (join second))
    (body other : List Node) (scopes scopes' : List α) :
    ((scopes.map (body, ·) ++ scopes'.map (other, ·)).mapM f).map join = (do
      let first ← (scopes.mapM fun child => f (body, child)).map join
      let second ← (scopes'.mapM fun child => f (other, child)).map join
      some (append first second)) := by
  have hparts : (scopes.map (body, ·) ++ scopes'.map (other, ·)).mapM f = (do
      let first ← scopes.mapM fun child => f (body, child)
      let second ← scopes'.mapM fun child => f (other, child)
      some (first ++ second)) := by
    rw [List.mapM_append, List.mapM_map, List.mapM_map]
    rfl
  rw [hparts]
  cases scopes.mapM fun child => f (body, child) with
  | none => rfl
  | some first =>
      cases scopes'.mapM fun child => f (other, child) with
      | none => rfl
      | some second => exact congrArg some (hjoin first second)

theorem pair_renders (policy : InvertedPolicy) (scope : Value) (expression : String)
    (inclusions : Inclusions) (body other : List Node) (l l' : Location) :
    RendersAs policy inclusions scope (pairOf expression body other l l')
      ((scopePerElement scope expression).map (body, ·)
        ++ if isHidden policy (lookup scope expression false) then []
          else [(other, copyOf scope)]) := by
  have hinverted : (if isHidden policy (lookup scope expression false) then []
      else [(other, copyOf scope)]) = (invertedScopes policy scope expression).map (other, ·) := by
    rw [invertedScopes]
    cases isHidden policy (lookup scope expression false) <;> rfl
  rw [hinverted, ← sectionScopes_eq]
  constructor
  · intro target
    rw [builtText_blocks, mapM_two _ fun _ _ => String.join_append]
    rfl
  · rw [renderNodes_blocks, mapM_two _ fun _ _ => List.flatten_append]
    rfl

/-- A section and the inverted section of the same expression. Where arrays are known, the
inverted one is hidden exactly if there are elements, and so one of the two is shown: the
section once for each element, or the inverted section once. By the length alone, it is
hidden only if there are elements, so that one of the two is always shown; and both are, for
a value that counts as true and is no boolean, no array and of no positive length. -/
theorem sections_complementary (scope : Value) (expression : String) :
    (isHidden .arrayAware (lookup scope expression false) = true
        ↔ elements scope expression ≠ [])
      ∧ (∀ inclusions body other l l',
        RendersAs .arrayAware inclusions scope (pairOf expression body other l l')
          (if elements scope expression = [] then [(other, copyOf scope)]
          else (scopePerElement scope expression).map (body, ·)))
      ∧ (isHidden .lengthOnly (lookup scope expression false) = true
        → elements scope expression ≠ [])
      ∧ (∀ inclusions body other l l',
        RendersAs .lengthOnly inclusions scope (pairOf expression body other l l')
          ((scopePerElement scope expression).map (body, ·)
            ++ if isHidden .lengthOnly (lookup scope expression false) then []
              else [(other, copyOf scope)]))
      ∧ (elements scope expression ≠ []
          ∧ isHidden .lengthOnly (lookup scope expression false) = false
        ↔ ∃ value, lookup scope expression false = some value ∧ value.truthy = true
          ∧ isBoolean value = false ∧ isArray value = false
          ∧ hasPositiveLength value = false) := by
  refine ⟨hidden_iff_elements, ?_, elements_ne_nil_of_hidden,
    pair_renders .lengthOnly scope expression, both_shown_iff⟩
  intro inclusions body other l l'
  have hpair := pair_renders .arrayAware scope expression inclusions body other l l'
  -- Under this policy one of the two lists of scopes is empty.
  by_cases hnone : elements scope expression = []
  · have hshown : ¬ isHidden .arrayAware (lookup scope expression false) = true :=
      fun hhidden => hidden_iff_elements.mp hhidden hnone
    rw [scopePerElement_eq_nil hnone, if_neg hshown] at hpair
    rw [if_pos hnone]
    exact hpair
  · rw [if_pos (hidden_iff_elements.mpr hnone), List.append_nil] at hpair
    rw [if_neg hnone]
    exact hpair

/-- By the length alone, a number shows both, and a string the section only. -/
theorem sections_complementary_of_scalars :
    (elements (.obj [("n", .num (.int 7))]) "n" ≠ []
        ∧ isHidden .lengthOnly (lookup (.obj [("n", .num (.int 7))]) "n" false) = false)
      ∧ elements (.obj [("n", .str "7")]) "n" ≠ []
      ∧ isHidden .lengthOnly (lookup (.obj [("n", .str "7")]) "n" false) = true := by
  obtain ⟨-, -, -, -, hboth⟩ := sections_complementary (.obj [("n", .num (.int 7))]) "n"
  obtain ⟨-, -, hshown, -, -⟩ := sections_complementary (.obj [("n", .str "7")]) "n"
  have hhidden : isHidden .lengthOnly (lookup (.obj [("n", .str "7")]) "n" false) = true := by
    decide +kernel
  exact ⟨hboth.mpr ⟨.num (.int 7), rfl, rfl, rfl, rfl, rfl⟩, hshown hhidden, hhidden⟩

end Mustache
