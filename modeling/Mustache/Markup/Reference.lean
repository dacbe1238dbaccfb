import Mustache.Markup.ReferenceNames
import Mustache.Text.Hexadecimal
import Mustache.Text.Units

/-!
Character references.

A reference is an ampersand and a name from the table, or an ampersand, a hash
sign and a number. The longest name that matches wins, and some names need no
semicolon. In the value of an attribute a name without a semicolon is no
reference if a letter, a digit or an equals sign follows, so that addresses with
query strings survive. A number that names no character, or one of the codes that
old documents use for typographic characters, is replaced.
-/
set_option autoImplicit false

namespace Mustache.Markup

open Text

/-! ## The table -/

/-- The parts of a text between the places where a character stands. -/
def partsOf (separator : Char) (s : List Char) : List (List Char) :=
  s.foldr (fun c parts =>
    if c = separator then [] :: parts
    else match parts with
      | [] => [[c]]
      | part :: rest => (c :: part) :: rest) [[]]

/-- The name and the characters of an entry of the table. -/
def readEntry (entry : List Char) : String × List Char :=
  let name := entry.takeWhile (· ≠ ':')
  let codes := entry.drop (name.length + 1)
  (String.ofList name, (partsOf ',' codes).map fun code => Char.ofNat (hexValue code))

/-- The entries of the table whose names start with a character, for each such
character. -/
def referenceTable : List (Char × List (String × List Char)) :=
  let entries := referenceRows.flatMap fun row => (partsOf ' ' row.toList).map readEntry
  entries.foldr (fun entry table =>
    let initial := entry.1.toList.headD ' '
    match table with
    | (c, group) :: rest => if c = initial then (c, entry :: group) :: rest
        else (initial, [entry]) :: table
    | [] => [(initial, [entry])]) []

/-- The characters that a name stands for. -/
def referenceOf? (name : List Char) : Option (List Char) :=
  match name with
  | [] => none
  | c :: _ => (referenceTable.lookup c).bind fun group => group.lookup (String.ofList name)

/-! ## References by name -/

/-- The number of characters of the longest name in the table. -/
def longestName : Nat := 32

/-- The longest leading part of `s` of at most `length` characters that is a
name, with what it stands for. -/
def longestReference? (s : List Char) : (length : Nat) → Option (List Char × List Char)
  | 0 => none
  | length + 1 =>
      let name := s.take (length + 1)
      match referenceOf? name with
      | some chars => some (name, chars)
      | none => longestReference? s length

/-- Whether a name at the start of `s` is kept as text in an attribute value. -/
def keepsName (name rest : List Char) : Bool :=
  name.getLast? != some ';' && rest.head?.any fun c => c == '=' || c.isAlphanum

/-- Reads a reference by name after its ampersand. -/
def readNamed? (inAttribute : Bool) (s : List Char) : Option (List Char × List Char) :=
  let run := s.takeWhile fun c => c.isAlphanum || c == ';'
  match longestReference? run (min longestName run.length) with
  | none => none
  | some (name, chars) =>
      let rest := s.drop name.length
      if inAttribute && keepsName name rest then none else some (chars, rest)

/-! ## References by number -/

/-- The characters that the codes from 0x80 to 0x9F stand for in old documents;
zero where there is none. -/
def windowsCodes : List Nat :=
  [0x20AC, 0, 0x201A, 0x0192, 0x201E, 0x2026, 0x2020, 0x2021, 0x02C6, 0x2030, 0x0160, 0x2039,
   0x0152, 0, 0x017D, 0, 0, 0x2018, 0x2019, 0x201C, 0x201D, 0x2022, 0x2013, 0x2014, 0x02DC,
   0x2122, 0x0161, 0x203A, 0x0153, 0, 0x017E, 0x0178]

/-- The character that a number refers to. -/
def numberedChar (n : Nat) : Char :=
  if n = 0 ∨ 0x10FFFF < n ∨ (0xD800 ≤ n ∧ n < 0xE000) then replacement
  else if 0x80 ≤ n ∧ n ≤ 0x9F then
    match windowsCodes[n - 0x80]? with
    | some (code + 1) => Char.ofNat (code + 1)
    | _ => Char.ofNat n
  else Char.ofNat n

/-- Reads the digits of a reference by number, and its semicolon if there is
one. -/
def readDigits? (isDigit : Char → Bool) (value : List Char → Nat) (s : List Char) :
    Option (List Char × List Char) :=
  let digits := s.takeWhile isDigit
  if digits.isEmpty then none
  else
    let rest := s.drop digits.length
    some ([numberedChar (value digits)], if rest.head? = some ';' then rest.drop 1 else rest)

/-- Reads a reference after its ampersand: the characters that it stands for, and
what follows it. -/
def readReference? (inAttribute : Bool) : List Char → Option (List Char × List Char)
  | '#' :: 'x' :: s | '#' :: 'X' :: s => readDigits? isHexDigit hexValue s
  | '#' :: s => readDigits? Char.isDigit digitsValue s
  | s => readNamed? inAttribute s

/-! ## Decoding -/

/-- A text with its references replaced. Each step takes at least one character,
so `fuel` need not exceed the length. -/
def decodeWithin (inAttribute : Bool) : (fuel : Nat) → List Char → List Char
  | 0, s => s
  | _ + 1, [] => []
  | fuel + 1, '&' :: s =>
      match readReference? inAttribute s with
      | some (chars, rest) => chars ++ decodeWithin inAttribute fuel rest
      | none => '&' :: decodeWithin inAttribute fuel s
  | fuel + 1, c :: s => c :: decodeWithin inAttribute fuel s

/-- A text with its references replaced. -/
def decode (inAttribute : Bool) (s : List Char) : List Char :=
  decodeWithin inAttribute s.length s

end Mustache.Markup
