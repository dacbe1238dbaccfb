/-
Text that is safe to place in markup.

Four characters can open a tag, close a quoted attribute or start a character
reference. Each is replaced by the reference that names it; an apostrophe stays.
-/
set_option autoImplicit false

namespace Mustache.Text

/-- The reference that stands for a character in markup. -/
def markupEntity (c : Char) : List Char :=
  if c = '&' then ['&', 'a', 'm', 'p', ';']
  else if c = '<' then ['&', 'l', 't', ';']
  else if c = '"' then ['&', 'q', 'u', 'o', 't', ';']
  else if c = '>' then ['&', 'g', 't', ';']
  else [c]

/-- The text with markup characters written as references (`escape_html`). -/
def escapeMarkup (s : List Char) : List Char :=
  s.flatMap markupEntity

end Mustache.Text
