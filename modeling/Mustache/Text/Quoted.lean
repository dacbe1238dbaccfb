/-
Single-quoted string literals.

Text that goes into a generated module stands between single quotes. Four
characters cannot stand there as themselves: the backslash and the quote, which
would be read as an escape or as the end, and the two line ends. Each is written
as a backslash and one letter, and nothing else changes.
-/
set_option autoImplicit false

namespace Mustache.Text.Quoted

/-- One character as it is written between single quotes. -/
def encodeChar (c : Char) : List Char :=
  if c = '\\' then ['\\', '\\']
  else if c = '\'' then ['\\', '\'']
  else if c = '\n' then ['\\', 'n']
  else if c = '\r' then ['\\', 'r']
  else [c]

/-- The text as it is written between single quotes (`escape_js_string`). -/
def encode (s : List Char) : List Char :=
  s.flatMap encodeChar

@[simp] theorem encode_nil : encode [] = [] := rfl

@[simp] theorem encode_cons (c : Char) (s : List Char) :
    encode (c :: s) = encodeChar c ++ encode s := rfl

@[simp] theorem encode_append (s t : List Char) : encode (s ++ t) = encode s ++ encode t := by
  simp [encode]

/-- A whole literal, quotes included. -/
def literal (s : List Char) : List Char :=
  '\'' :: (encode s ++ ['\''])

end Mustache.Text.Quoted
