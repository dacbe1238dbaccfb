/-
UTF-16 units.

The `length` of a string and the positions that an index names count UTF-16
units. A character outside the basic plane takes two, and neither half can be
read on its own: a half reads as the replacement character.
-/
set_option autoImplicit false

namespace Mustache.Text

/-- U+FFFD, which stands for what cannot be read. -/
def replacement : Char := '\uFFFD'

/-- What the units of one character read as, each taken alone. -/
def unitsOf (c : Char) : List Char :=
  if c.toNat < 0x10000 then [c] else [replacement, replacement]

/-- What the UTF-16 units of a text read as, each taken alone (`utf16_units`). -/
def units (s : List Char) : List Char :=
  s.flatMap unitsOf

end Mustache.Text
