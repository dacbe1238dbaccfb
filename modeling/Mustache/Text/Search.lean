/-
Searching a text for a word.

A word occurs in a text wherever the text from some place on starts with it;
occurrences may overlap.
-/
set_option autoImplicit false

namespace Mustache.Text

/-- The number of places of `s` where `word` stands. -/
def occurrences (word : List Char) : List Char → Nat
  | [] => if word.isEmpty then 1 else 0
  | c :: s => (if word.isPrefixOf (c :: s) then 1 else 0) + occurrences word s

/-- Whether `word` stands somewhere in `s`. -/
def occursIn (word s : List Char) : Bool :=
  occurrences word s != 0

/-- What follows `word` in a text that starts with it. -/
def stripStart? : (word s : List Char) → Option (List Char)
  | [], s => some s
  | _ :: _, [] => none
  | w :: word, c :: s => if w = c then stripStart? word s else none

/-- The word and what follows it spell the text. -/
theorem stripStart?_eq_some_iff {word s rest : List Char} :
    stripStart? word s = some rest ↔ word ++ rest = s := by
  induction word generalizing s with
  | nil => simp [stripStart?, eq_comm]
  | cons w word ih =>
      cases s with
      | nil => simp [stripStart?]
      | cons c s => by_cases h : w = c <;> simp [stripStart?, h, ih]

/-- Every text starts with the empty word. -/
@[simp] theorem occursIn_nil_word (s : List Char) : occursIn [] s = true := by
  cases s with
  | nil => rfl
  | cons c s => simp [occursIn, occurrences, List.isPrefixOf]

end Mustache.Text
