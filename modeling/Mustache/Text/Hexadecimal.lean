import Mustache.Text.Digits

/-!
Hexadecimal digits.

A digit is read in either case and written in lower case. A byte is written as two
digits, and two digits read back as the byte that they write.
-/
set_option autoImplicit false

namespace Mustache.Text

/-! ## Reading -/

def hexDigitValue? (c : Char) : Option Nat :=
  if c.isDigit then some (c.toNat - 48)
  else if 'a' ≤ c ∧ c ≤ 'f' then some (c.toNat - 87)
  else if 'A' ≤ c ∧ c ≤ 'F' then some (c.toNat - 55)
  else none

def isHexDigit (c : Char) : Bool :=
  (hexDigitValue? c).isSome

/-- The number that a row of hexadecimal digits spells. Any other character counts
as a zero. -/
def hexValue (s : List Char) : Nat :=
  s.foldl (fun n c => 16 * n + (hexDigitValue? c).getD 0) 0

/-- Reads a number of exactly four hexadecimal digits. -/
def readHexQuad? : List Char → Option (Nat × List Char)
  | a :: b :: c :: d :: s =>
      if [a, b, c, d].all isHexDigit then some (hexValue [a, b, c, d], s) else none
  | _ => none

/-! ## Writing -/

/-- A hexadecimal digit in lower case. -/
def hexDigitChar (n : Nat) : Char :=
  if n < 10 then digitChar n else Char.ofNat (87 + n)

/-- A number below 256 as two hexadecimal digits. -/
def hexByte (n : Nat) : List Char :=
  [hexDigitChar (n / 16), hexDigitChar (n % 16)]

/-- A digit that is written reads back. -/
theorem hexDigitValue?_hexDigitChar : ∀ n < 16, hexDigitValue? (hexDigitChar n) = some n := by
  decide

/-- A byte that is written reads back. -/
theorem hexValue_hexByte (n : Nat) (h : n < 256) : hexValue (hexByte n) = n := by
  have low := hexDigitValue?_hexDigitChar (n % 16) (by omega)
  have high := hexDigitValue?_hexDigitChar (n / 16) (by omega)
  simp only [hexValue, hexByte, List.foldl_cons, List.foldl_nil, low, high, Option.getD_some]
  omega

end Mustache.Text
