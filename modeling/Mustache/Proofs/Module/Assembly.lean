import Mustache.Module.Compile

/-!
How a wrapper is filled in.

What stands between the marks of a wrapper is copied as it is, and each mark gives way
to what it stands for, which is not looked at again. A module is therefore fixed text
around the functions that it brings along and the function that renders data
(`assemble_code`, `code_eq`), whatever its body holds.
-/
set_option autoImplicit false

namespace Mustache

/-! ## Copied text -/

/-- Whether a text holds no two opening braces in a row and ends in none. -/
def isUnmarked : List Char → Bool
  | [] => true
  | [c] => c ≠ '{'
  | c :: d :: s => !(c = '{' && d = '{') && isUnmarked (d :: s)

/-- No mark starts in a text without two opening braces in a row. -/
theorem readMark?_eq_none {c : Char} {s : List Char} (h : isUnmarked (c :: s) = true)
    (rest : List Char) : readMark? (c :: (s ++ rest)) = none := by
  -- A brace at the end of the text could open a mark with what follows; none stands there.
  have hbraces : ∀ t, c :: (s ++ rest) ≠ '{' :: '{' :: t := by
    intro t heq
    cases s with
    | nil =>
        obtain ⟨rfl, -⟩ := List.cons.inj heq
        exact absurd h (by decide)
    | cons d s =>
        obtain ⟨rfl, hmore⟩ := List.cons.inj heq
        obtain ⟨rfl, -⟩ := List.cons.inj hmore
        simp [isUnmarked] at h
  rw [readMark?]
  exact hbraces

/-- What follows the first character of such a text is such a text. -/
theorem isUnmarked_of_cons {c : Char} {s : List Char} (h : isUnmarked (c :: s) = true) :
    isUnmarked s = true := by
  cases s with
  | nil => rfl
  | cons d s => exact (Bool.and_eq_true_iff.mp h).2

/-- Text without marks is copied. -/
theorem substitute_append (value? : List Char → Option (List Char)) {s : List Char}
    (h : isUnmarked s = true) (rest : List Char) :
    substitute value? (s ++ rest) = s ++ substitute value? rest := by
  induction s with
  | nil => rfl
  | cons c s ih =>
      have hnone := readMark?_eq_none h rest
      rw [List.cons_append, substitute]
      split
      · next heq =>
          rw [hnone] at heq
          cases heq
      · rw [ih (isUnmarked_of_cons h), List.cons_append]

/-! ## Marks -/

theorem readMark?_mark {name : List Char} (hname : name ≠ []) (hfree : '}' ∉ name)
    (rest : List Char) :
    readMark? ('{' :: '{' :: (name ++ '}' :: '}' :: rest)) = some (name, rest) := by
  have hkept : ∀ c ∈ name, decide (c ≠ '}') = true := by
    intro c hc
    exact decide_eq_true fun heq => hfree (heq ▸ hc)
  have htake : (name ++ '}' :: '}' :: rest).takeWhile (· ≠ '}') = name := by
    rw [List.takeWhile_append_of_pos hkept, List.takeWhile_cons_of_neg (by decide), List.append_nil]
  have hdrop : (name ++ '}' :: '}' :: rest).dropWhile (· ≠ '}') = '}' :: '}' :: rest := by
    rw [List.dropWhile_append_of_pos hkept, List.dropWhile_cons_of_neg (by decide)]
  obtain ⟨c, more, rfl⟩ := List.exists_cons_of_ne_nil hname
  rw [readMark?, htake, hdrop]
  rfl

/-- A mark gives way to what it stands for. -/
theorem substitute_mark {value? : List Char → Option (List Char)} {name value : List Char}
    (hname : name ≠ []) (hfree : '}' ∉ name) (hvalue : value? name = some value)
    (rest : List Char) :
    substitute value? ('{' :: '{' :: (name ++ '}' :: '}' :: rest))
      = value ++ substitute value? rest := by
  have hread := readMark?_mark hname hfree rest
  rw [substitute]
  split
  · next heq =>
      rw [hread] at heq
      cases heq
      rw [hvalue, Option.getD_some]
  · next heq =>
      rw [hread] at heq
      cases heq

/-! ## Modules -/

/-- The text of a module up to the functions that it brings along. -/
def moduleStart : List Char :=
  "module.exports = (function () \x7b\n".toList

/-- The text between those functions and the one that renders data. -/
def moduleMiddle : List Char :=
  "\n\n\treturn \x7b\n\t\trender: ".toList

/-- The text of a module behind the function that renders data. -/
def moduleEnd : List Char :=
  "\n\t\x7d;\n\x7d());\n".toList

/-- The text of the function that renders data up to the body. -/
def functionStart : List Char :=
  "function (data) \x7b\n\t\t\treturn [].concat(".toList

/-- The text of the function that renders data behind the body. -/
def functionEnd (target : Target) : List Char :=
  (wrapperEnd target).toList ++ "\n\t\t\x7d".toList

/-- The function that renders data, as a module holds it. -/
def Tree.renderFunction (tree : Tree) (options : Options) : List Char :=
  functionStart ++ (bodyText (tree.fragments options) ++ functionEnd tree.target)

/-- A wrapper is these texts with the two marks between them. -/
theorem wrapper_eq (target : Target) :
    (wrapper target).toList
      = moduleStart ++ '{' :: '{' :: ("helperFunctions".toList ++ '}' :: '}' ::
        ((moduleMiddle ++ functionStart) ++ '{' :: '{' :: ("render".toList ++ '}' :: '}' ::
          (functionEnd target ++ moduleEnd)))) := by
  have hstrings (a b c d e : String) : (a ++ b ++ c ++ d ++ e).toList
      = a.toList ++ (b.toList ++ (c.toList ++ (d.toList ++ e.toList))) := by
    simp [String.toList_append]
  -- The texts are kept as variables, so that no step looks into their characters.
  have hlists (start name gap line first mark rest : List Char) :
      (start ++ '{' :: '{' :: (name ++ '}' :: '}' :: gap))
          ++ (line ++ ((first ++ '{' :: '{' :: (mark ++ ['}', '}'])) ++ rest))
        = start ++ '{' :: '{' :: (name ++ '}' :: '}' ::
          ((gap ++ (line ++ first)) ++ '{' :: '{' :: (mark ++ '}' :: '}' :: rest))) := by
    simp
  have hend : (wrapperEnd target).toList ++ "\n\t\t\x7d\n\t\x7d;\n\x7d());\n".toList
      = functionEnd target ++ moduleEnd := by
    cases target <;> rfl
  rw [← hend]
  exact (hstrings _ _ _ _ _).trans
    (hlists moduleStart "helperFunctions".toList "\n\n".toList
      "\treturn \x7b\n\t\trender: function (data) \x7b\n".toList
      "\t\t\treturn [].concat(".toList "render".toList _)

/-- A wrapper that is filled in is its texts around what stands for its marks. -/
theorem assemble_code (body : String) (usesBlock : Bool) (target : Target) (options : Options) :
    (assemble body usesBlock target options).code.toList
      = moduleStart ++ ((Helper.sources options (Helper.select usesBlock)).toList
        ++ (moduleMiddle ++ (functionStart ++ (body.toList
          ++ (functionEnd target ++ moduleEnd))))) := by
  let helpers := (Helper.sources options (Helper.select usesBlock)).toList
  have hhelpers : markValue? helpers body.toList "helperFunctions".toList = some helpers := rfl
  have hbody : markValue? helpers body.toList "render".toList = some body.toList := rfl
  have hend : isUnmarked (functionEnd target ++ moduleEnd) = true := by
    cases target <;> decide
  have hcode : (assemble body usesBlock target options).code.toList
      = substitute (markValue? helpers body.toList) (wrapper target).toList := by
    rw [assemble, String.toList_ofList]
  -- The wrapper is read from left to right: unmarked text, the mark of the functions, unmarked
  -- text, the mark of the body, unmarked text.
  rw [hcode, wrapper_eq, substitute_append _ (by decide),
    substitute_mark (by decide) (by decide) hhelpers, substitute_append _ (by decide),
    substitute_mark (by decide) (by decide) hbody,
    ← List.append_nil (functionEnd target ++ moduleEnd), substitute_append _ hend, substitute]
  simp only [List.append_assoc, List.append_nil]
  rfl

/-- A module is fixed text around the functions that it brings along and the one that
renders data. -/
theorem code_eq (tree : Tree) (options : Options) :
    (tree.unit options).code.toList
      = moduleStart ++ ((Helper.sources options (tree.unit options).helpers).toList
        ++ (moduleMiddle ++ (tree.renderFunction options ++ moduleEnd))) := by
  rw [Tree.unit, assemble_code, String.toList_ofList, Tree.renderFunction]
  simp only [List.append_assoc]
  rfl

end Mustache
