import Mustache.Text.Blank

/-!
Newlines: counting them, and the collapse of a newline with the blanks after it.

In a structural template the layout of the source is not content: a newline is
dropped together with every blank that follows it, and with a carriage return
right before it. What is left holds no newline. Rendering drops newlines as it
comes to them (`collapse`), and emission drops whole runs that it finds
(`dropNewlineRuns`).
-/
set_option autoImplicit false

namespace Mustache.Text

/-- The number of line feeds in a text. -/
def newlines (s : List Char) : Nat :=
  s.count '\n'

/-- Drops each line feed, the carriage return right before it and the blanks
after it. `skipping` holds while the blanks after a line feed are dropped. -/
def collapseFrom : Bool → List Char → List Char
  | _, [] => []
  | skipping, c :: s =>
      if skipping && isBlank c then collapseFrom true s
      else if c = '\n' then collapseFrom true s
      else if c = '\r' ∧ s.head? = some '\n' then collapseFrom false s
      else c :: collapseFrom false s

/-- The text without its newlines and the blanks that follow them. -/
def collapse (s : List Char) : List Char :=
  collapseFrom false s

/-- The length of the newline run that a text starts with: a line feed, the carriage
return right before it and the blanks after it; zero if it starts with none. -/
def newlineRunLength : List Char → Nat
  | '\r' :: '\n' :: s => 2 + (s.takeWhile isBlank).length
  | '\n' :: s => 1 + (s.takeWhile isBlank).length
  | _ => 0

/-- Drops a number of characters, and from there on each newline run. -/
def dropRunsFrom : Nat → List Char → List Char
  | _, [] => []
  | inside + 1, _ :: s => dropRunsFrom inside s
  | 0, c :: s =>
      match newlineRunLength (c :: s) with
      | 0 => c :: dropRunsFrom 0 s
      | others + 1 => dropRunsFrom others s

/-- The text without its newline runs. -/
def dropNewlineRuns (s : List Char) : List Char :=
  dropRunsFrom 0 s

end Mustache.Text
