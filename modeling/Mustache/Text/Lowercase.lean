/-
Searching without regard to letter case.

Tag names in markup may be written in either case. A search folds the ASCII
letters only. Where a position is wanted, it is a byte position in the
lowercased text, so the width of each character's lowercase form counts:
`lowercaseWidth` gives it, from the table of the characters whose lowercase form
takes more or fewer bytes than the character itself.
-/
set_option autoImplicit false

namespace Mustache.Text

/-- The characters whose lowercase form has a UTF-8 width of its own, with that
width. -/
def lowercaseWidths : List (Nat × Nat) :=
  [(0x130, 3), (0x23A, 3), (0x23E, 3), (0x1E9E, 2), (0x2126, 2), (0x212A, 1), (0x212B, 2),
   (0x2C62, 2), (0x2C64, 2), (0x2C6D, 2), (0x2C6E, 2), (0x2C6F, 2), (0x2C70, 2), (0x2C7E, 2),
   (0x2C7F, 2), (0xA78D, 2), (0xA7AA, 2), (0xA7AB, 2), (0xA7AC, 2), (0xA7AD, 2), (0xA7AE, 2),
   (0xA7B0, 2), (0xA7B1, 2), (0xA7B2, 2), (0xA7C5, 2), (0xA7CB, 2), (0xA7DC, 2)]

/-- The number of bytes that the lowercase form of a character takes in UTF-8. -/
def lowercaseWidth (c : Char) : Nat :=
  (lowercaseWidths.lookup c.toNat).getD c.utf8Size

/-- The number of bytes that the lowercase form of a text takes in UTF-8. -/
def lowercaseLength : List Char → Nat
  | [] => 0
  | c :: s => lowercaseWidth c + lowercaseLength s

/-- Whether `s` starts with `word`, a word in lower case, in any letter case. -/
def startsWithFolded : (word s : List Char) → Bool
  | [], _ => true
  | _ :: _, [] => false
  | w :: word, c :: s => w == c.toLower && startsWithFolded word s

/-- The part of `s` before the first place where `word` stands in any letter
case; nothing if it stands nowhere. -/
def beforeFolded? (word : List Char) : List Char → Option (List Char)
  | [] => if word.isEmpty then some [] else none
  | c :: s =>
      if startsWithFolded word (c :: s) then some []
      else (beforeFolded? word s).map (c :: ·)

end Mustache.Text
