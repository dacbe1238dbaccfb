import Mustache.Text.Quoted

/-!
Script text in pieces.

A script is laid out as code characters with string literals between them, and
the literals keep the text that they stand for. So what the literals hold can
never be taken for code: `text` writes it down with its quotes and escapes, and
whatever it is, the code around it stays the same.
-/
set_option autoImplicit false

namespace Mustache.Script

/-- A piece of script text. -/
inductive Piece where
  /-- A character of code; not a quote. -/
  | code (c : Char)
  /-- A single-quoted literal that stands for a text. -/
  | literal (text : List Char)
  /-- The empty literal in double quotes. -/
  | emptyLiteral
  deriving DecidableEq, Repr

/-- A piece as it is written. -/
def Piece.text : Piece → List Char
  | .code c => [c]
  | .literal s => Text.Quoted.literal s
  | .emptyLiteral => ['"', '"']

/-- Pieces as they are written. -/
def text (pieces : List Piece) : List Char :=
  pieces.flatMap Piece.text

/-- Code without any literal. -/
def code (s : String) : List Piece :=
  s.toList.map .code

@[simp] theorem text_nil : text [] = [] := rfl

@[simp] theorem text_cons (p : Piece) (ps : List Piece) : text (p :: ps) = p.text ++ text ps := rfl

@[simp] theorem text_append (ps qs : List Piece) : text (ps ++ qs) = text ps ++ text qs := by
  simp [text]

@[simp] theorem text_code (s : String) : text (code s) = s.toList := by
  simp [text, code, List.flatMap_map, Piece.text]

end Mustache.Script
