import Mustache.Json.Value
import Mustache.Numeral.Layout
import Mustache.Text.Hexadecimal

/-!
Writing a JSON value.

The text has no blanks, and the members of an object come in the order of their
names. In a string the quote, the backslash and the control characters are
escaped, and every other character stands for itself.
-/
set_option autoImplicit false

namespace Mustache.Json

open Text

/-! ## Strings -/

/-- One character as it is written in a string. -/
def encodeChar (c : Char) : List Char :=
  if c = '"' then ['\\', '"']
  else if c = '\\' then ['\\', '\\']
  else if c.toNat < 0x20 then '\\' :: 'u' :: '0' :: '0' :: hexByte c.toNat
  else [c]

def quoted (s : String) : List Char :=
  '"' :: (s.toList.flatMap encodeChar ++ ['"'])

/-! ## Values -/

def Number.text : Number → List Char
  | .int n => integerText n
  | .double x => x.text

mutual

/-- The text of a value. -/
def Value.text : Value → List Char
  | .null => "null".toList
  | .bool b => if b then "true".toList else "false".toList
  | .num n => n.text
  | .str s => quoted s
  | .arr items => '[' :: (itemsText items ++ [']'])
  | .obj members => '{' :: (membersText members ++ ['}'])

/-- The items of an array, with commas between them. -/
def itemsText : List Value → List Char
  | [] => []
  | [item] => item.text
  | item :: next :: rest => item.text ++ ',' :: itemsText (next :: rest)

/-- The members of an object, with commas between them. -/
def membersText : List (String × Value) → List Char
  | [] => []
  | [(name, value)] => quoted name ++ ':' :: value.text
  | (name, value) :: next :: rest =>
      quoted name ++ ':' :: (value.text ++ ',' :: membersText (next :: rest))

end

end Mustache.Json
