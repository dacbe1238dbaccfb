import Mustache.Module.Body
import Mustache.Module.Helper

/-!
Putting a generated module together.

A module is a fixed wrapper with two marks in it, one for the functions that it
brings along and one for its body. Marks are replaced in one pass from left to
right, so that what is put in is never looked at again, whatever it holds.
-/
set_option autoImplicit false

namespace Mustache

/-! ## Marks -/

/-- Reads a mark at the very start of a text: two opening braces, a name of one
or more characters other than a closing brace, and two closing braces. Gives the
name and what follows the mark. -/
def readMark? : List Char → Option (List Char × List Char)
  | '{' :: '{' :: s =>
      match s.takeWhile (· ≠ '}'), s.dropWhile (· ≠ '}') with
      | c :: name, '}' :: '}' :: rest => some (c :: name, rest)
      | _, _ => none
  | _ => none

/-- What follows a mark is shorter than the whole. -/
theorem length_lt_of_readMark {s name rest : List Char} (h : readMark? s = some (name, rest)) :
    rest.length < s.length := by
  unfold readMark? at h
  split at h
  · rename_i s
    split at h
    · rename_i hdrop
      have hle := (List.dropWhile_suffix (l := s) (· ≠ '}')).length_le
      simp only [Option.some.injEq, Prod.mk.injEq] at h
      obtain ⟨-, rfl⟩ := h
      rw [hdrop] at hle
      simp only [List.length_cons] at hle ⊢
      omega
    · simp at h
  · simp at h

/-- Replaces each mark by what `value?` gives for its name; a mark of an unknown name
stays as it is. -/
def substitute (value? : List Char → Option (List Char)) (s : List Char) : List Char :=
  match s with
  | [] => []
  | c :: s =>
      match _h : readMark? (c :: s) with
      | some (name, rest) =>
          (value? name).getD ('{' :: '{' :: (name ++ ['}', '}'])) ++ substitute value? rest
      | none => c :: substitute value? s
termination_by s.length
decreasing_by
  · exact length_lt_of_readMark _h
  · simp

/-! ## Wrappers -/

/-- How the body of a module ends. -/
def wrapperEnd : Target → String
  | .flat => "'').join('');"
  | .structural => "[]);"

/-- The text around the functions and the body of a module (`wrapper_for`). -/
def wrapper (target : Target) : String :=
  "module.exports = (function () \x7b\n\x7b\x7bhelperFunctions\x7d\x7d\n\n"
    ++ "\treturn \x7b\n\t\trender: function (data) \x7b\n"
    ++ "\t\t\treturn [].concat(\x7b\x7brender\x7d\x7d"
    ++ wrapperEnd target ++ "\n\t\t\x7d\n\t\x7d;\n\x7d());\n"

/-! ## Units -/

/-- A generated module (`CompiledUnit`). -/
structure Unit where
  /-- The whole text of the module. -/
  code : String
  /-- The body alone. -/
  body : String
  /-- The functions that the module brings along, in order. -/
  helpers : List Helper
  target : Target
  deriving DecidableEq, Repr

/-- What stands for the marks of a wrapper. -/
def markValue? (helpers body : List Char) (name : List Char) : Option (List Char) :=
  if name = "helperFunctions".toList then some helpers
  else if name = "render".toList then some body
  else none

/-- The module of a body. -/
def assemble (body : String) (usesBlock : Bool) (target : Target) (options : Options) : Unit :=
  let helpers := Helper.select usesBlock
  { code := String.ofList
      (substitute (markValue? (Helper.sources options helpers).toList body.toList)
        (wrapper target).toList)
    body
    helpers
    target }

end Mustache
