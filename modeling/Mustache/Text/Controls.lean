import Mustache.Text.Hexadecimal

/-
Control characters made visible.

A text that is shown on a terminal could command it. The characters that begin or
are a command there are shown as escapes: bell, backspace, form feed, escape and
delete, and the whole second block of control characters. All else is shown as it
is.
-/
set_option autoImplicit false

namespace Mustache.Text

def showControl (c : Char) : List Char :=
  if [0x07, 0x08, 0x0C, 0x1B, 0x7F].contains c.toNat then '\\' :: 'x' :: hexByte c.toNat
  else if 0x80 ≤ c.toNat ∧ c.toNat ≤ 0x9F then
    '\\' :: 'u' :: '{' :: (hexByte c.toNat ++ ['}'])
  else [c]

def showControls (s : List Char) : List Char :=
  s.flatMap showControl

end Mustache.Text
