import Mustache.Markup.Lexer
import Mustache.Text.Utf8

/-!
Text that arrives in portions.

Markup is read in portions of a fixed number of bytes. A character whose bytes lie
in two of them is joined from both and makes a portion of its own, together with the
characters behind it that fit into the four bytes set aside for it. A byte order mark
that a portion starts with is no part of the text. Behind a script the rest of a
portion is read as one that has just arrived, so the places where portions start are
kept.
-/
set_option autoImplicit false

namespace Mustache.Markup

/-- The number of bytes that are read at once. -/
def portionSize : Nat := 4096

/-- Whether the bytes of a character that stands at a byte lie in two portions. -/
def liesInTwo (offset : Nat) (c : Char) : Bool :=
  offset / portionSize != (offset + c.utf8Size - 1) / portionSize

/-- The number of bytes set aside for a character that lies in two portions. -/
def joinedSize : Nat := 4

/-- How many bytes a joined portion holds with a character that stands at a byte,
given how many it holds before. There are none outside of one. -/
def joinedWith (joined offset : Nat) (c : Char) : Nat :=
  if joined == 0 && !liesInTwo offset c then 0 else joined + c.utf8Size

/-- Whether a portion ends at a byte, given what a joined portion holds. -/
def endsPortion (joined offset : Nat) (rest : List Char) : Bool :=
  if joined == 0 then offset % portionSize == 0 || rest.head?.any (liesInTwo offset)
  else rest.head?.any fun c => decide (joinedSize < joined + c.utf8Size)

/-- The portions of a text that starts at a byte. -/
def portionsFrom (joined offset : Nat) : List Char → List (List Char)
  | [] => []
  | c :: s =>
      let next := offset + c.utf8Size
      let joined := joinedWith joined offset c
      if endsPortion joined next s then [c] :: portionsFrom 0 next s
      else
        match portionsFrom joined next s with
        | [] => [[c]]
        | portion :: rest => (c :: portion) :: rest

/-- A text as it is read. -/
structure Source where
  /-- The text without byte order marks at the start of portions, and with line
  feeds for all line ends. -/
  text : List Char
  /-- How much of the text is left where a portion starts. -/
  starts : List Nat

/-- How much of a text is left at the start of each of its portions. -/
def startsOf : List (List Char) → List Nat
  | [] => []
  | portion :: rest =>
      (normalizeNewlines (portion :: rest).flatten).length :: startsOf rest

/-- A text as it is read in portions. -/
def Source.ofText (s : List Char) : Source :=
  let portions := (portionsFrom 0 0 s).map Text.dropByteOrderMark
  ⟨normalizeNewlines portions.flatten, startsOf portions⟩

/-- What is read behind a script. -/
def Source.behindScript (source : Source) (rest : List Char) : List Char :=
  if source.starts.contains rest.length then rest else Text.dropByteOrderMark rest

end Mustache.Markup
