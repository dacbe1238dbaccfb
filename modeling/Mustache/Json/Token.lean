import Mustache.Json.Record
import Mustache.Json.Value
import Mustache.Numeral.Reading
import Mustache.Text.Bytes
import Mustache.Text.Hexadecimal

/-!
The tokens of a JSON text.

A text is split into tokens before anything is read from it. Where the text
stops being JSON the list ends with a `fault` that says whether the text was
malformed or merely ended too early; a reader that is done before it gets there
never sees it. Strings keep the UTF-16 units that they spell, so that a reader
which skips a string need not care whether its surrogates are paired.
-/
set_option autoImplicit false

namespace Mustache.Json

open Text

/-! ## Tokens -/

/-- A token of a JSON text. -/
inductive Token where
  | openObject
  | closeObject
  | openArray
  | closeArray
  | comma
  | colon
  | null
  | bool (value : Bool)
  /-- A number; `whole` holds if it has neither a point nor an exponent. -/
  | number (negative whole : Bool) (numeral : Numeral)
  /-- A string, as the UTF-16 units or characters that it spells. -/
  | string (units : List Nat)
  /-- A string that goes wrong after the given units. -/
  | brokenString (units : List Nat) (fault : Fault)
  /-- A number that goes wrong. -/
  | brokenNumber (fault : Fault)
  /-- The text goes wrong here. -/
  | fault (fault : Fault)
  deriving DecidableEq, Repr

/-- The blanks that JSON allows between tokens. -/
def isJsonBlank (c : Char) : Bool :=
  c == ' ' || c == '\t' || c == '\n' || c == '\r'

/-! ## Words -/

/-- Reads the rest of a word that stands for a value. -/
def readWord (value : Token) : (word s : List Char) → Token × List Char
  | [], s => (value, s)
  | _ :: _, [] => (.fault .truncated, [])
  | w :: word, c :: s => if w = c then readWord value word s else (.fault .malformed, [])

/-! ## Numbers -/

/-- The fault of a place where a digit is missing. -/
def missingDigit (s : List Char) : Token × List Char :=
  (.brokenNumber (if s.isEmpty then .truncated else .malformed), [])

def readExponentDigits (negative minus : Bool) (whole fraction : List Char) (s : List Char) :
    Token × List Char :=
  if (s.takeWhile Char.isDigit).isEmpty then missingDigit s
  else
    let n : Int := digitsValue (s.takeWhile Char.isDigit)
    (.number negative false ⟨whole, fraction, if minus then -n else n⟩,
      s.dropWhile Char.isDigit)

/-- Reads what follows the letter of an exponent. -/
def readExponentPart (negative : Bool) (whole fraction : List Char) :
    List Char → Token × List Char
  | '-' :: s => readExponentDigits negative true whole fraction s
  | '+' :: s => readExponentDigits negative false whole fraction s
  | s => readExponentDigits negative false whole fraction s

/-- Ends a number, with its exponent if there is one. -/
def readAfterFraction (negative isWhole : Bool) (whole fraction : List Char) :
    List Char → Token × List Char
  | [] => (.number negative isWhole ⟨whole, fraction, 0⟩, [])
  | c :: s =>
      if c = 'e' ∨ c = 'E' then readExponentPart negative whole fraction s
      else (.number negative isWhole ⟨whole, fraction, 0⟩, c :: s)

/-- Reads what follows the digits before the point of a number. -/
def readAfterWhole (negative : Bool) (whole : List Char) : List Char → Token × List Char
  | '.' :: s =>
      if (s.takeWhile Char.isDigit).isEmpty then missingDigit s
      else readAfterFraction negative false whole (s.takeWhile Char.isDigit)
        (s.dropWhile Char.isDigit)
  | s => readAfterFraction negative true whole [] s

/-- Reads a number without its sign. A leading zero stands alone. -/
def readUnsigned (negative : Bool) (s : List Char) : Token × List Char :=
  let whole := s.takeWhile Char.isDigit
  if whole.isEmpty then missingDigit s
  else if whole.head? = some '0' ∧ 1 < whole.length then (.brokenNumber .malformed, [])
  else readAfterWhole negative whole (s.dropWhile Char.isDigit)

/-! ## Strings -/

/-- The character that a one-letter escape stands for. -/
def escapedChar? (c : Char) : Option Nat :=
  if c = '"' ∨ c = '\\' ∨ c = '/' then some c.toNat
  else if c = 'b' then some 8
  else if c = 'f' then some 12
  else if c = 'n' then some 10
  else if c = 'r' then some 13
  else if c = 't' then some 9
  else none

/-- Reads a string after its opening quote; `units` are those before, the latest
first. An escape by number wants four more bytes, whatever they are. -/
def readString (units : List Nat) : List Char → Token × List Char
  | [] => (.brokenString units.reverse .truncated, [])
  | '"' :: s => (.string units.reverse, s)
  | '\\' :: 'u' :: a :: b :: c :: d :: s =>
      if [a, b, c, d].all isHexDigit then readString (hexValue [a, b, c, d] :: units) s
      else (.brokenString units.reverse .malformed, [])
  | '\\' :: 'u' :: s =>
      (.brokenString units.reverse (if byteLength s < 4 then .truncated else .malformed), [])
  | ['\\'] => (.brokenString units.reverse .truncated, [])
  | '\\' :: c :: s =>
      match escapedChar? c with
      | some unit => readString (unit :: units) s
      | none => (.brokenString units.reverse .malformed, [])
  | c :: s =>
      if c.toNat < 0x20 then (.brokenString units.reverse .malformed, [])
      else readString (c.toNat :: units) s

/-! ## The next token -/

/-- The token that starts with the character `c`, and what follows it. -/
def readToken (c : Char) (s : List Char) : Token × List Char :=
  if c = '{' then (.openObject, s)
  else if c = '}' then (.closeObject, s)
  else if c = '[' then (.openArray, s)
  else if c = ']' then (.closeArray, s)
  else if c = ',' then (.comma, s)
  else if c = ':' then (.colon, s)
  else if c = '"' then readString [] s
  else if c = 'n' then readWord .null ['u', 'l', 'l'] s
  else if c = 't' then readWord (.bool true) ['r', 'u', 'e'] s
  else if c = 'f' then readWord (.bool false) ['a', 'l', 's', 'e'] s
  else if c = '-' then readUnsigned true s
  else if c.isDigit then readUnsigned false (c :: s)
  else (.fault .malformed, [])

/-! ## The rest is shorter -/

theorem length_readWord (value : Token) (word s : List Char) :
    (readWord value word s).2.length ≤ s.length := by
  fun_induction readWord value word s <;> simp_all
  omega

theorem length_dropWhile_le (p : Char → Bool) (s : List Char) :
    (s.dropWhile p).length ≤ s.length :=
  (List.dropWhile_suffix p).length_le

theorem length_missingDigit (s : List Char) : (missingDigit s).2.length = 0 := rfl

theorem length_readExponentDigits (negative minus : Bool) (whole fraction s : List Char) :
    (readExponentDigits negative minus whole fraction s).2.length ≤ s.length := by
  unfold readExponentDigits
  split
  · simp [length_missingDigit]
  · exact length_dropWhile_le _ _

theorem length_readExponentPart (negative : Bool) (whole fraction s : List Char) :
    (readExponentPart negative whole fraction s).2.length ≤ s.length := by
  unfold readExponentPart
  split
  · exact Nat.le_succ_of_le (length_readExponentDigits _ _ _ _ _)
  · exact Nat.le_succ_of_le (length_readExponentDigits _ _ _ _ _)
  · exact length_readExponentDigits _ _ _ _ _

theorem length_readAfterFraction (negative isWhole : Bool) (whole fraction s : List Char) :
    (readAfterFraction negative isWhole whole fraction s).2.length ≤ s.length := by
  unfold readAfterFraction
  split
  · simp
  · split
    · exact Nat.le_succ_of_le (length_readExponentPart _ _ _ _)
    · simp

theorem length_readAfterWhole (negative : Bool) (whole s : List Char) :
    (readAfterWhole negative whole s).2.length ≤ s.length := by
  unfold readAfterWhole
  split
  · split
    · simp [length_missingDigit]
    · exact Nat.le_succ_of_le
        (Nat.le_trans (length_readAfterFraction _ _ _ _ _) (length_dropWhile_le _ _))
  · exact length_readAfterFraction _ _ _ _ _

theorem length_readUnsigned (negative : Bool) (c : Char) (s : List Char) :
    (readUnsigned negative s).2.length ≤ s.length ∧
      (c.isDigit = true → (readUnsigned negative (c :: s)).2.length ≤ s.length) := by
  constructor
  · simp only [readUnsigned]
    split
    · simp [length_missingDigit]
    · split
      · simp
      · exact Nat.le_trans (length_readAfterWhole _ _ _) (length_dropWhile_le _ _)
  · intro hc
    simp only [readUnsigned, List.takeWhile_cons, List.dropWhile_cons, hc, if_true]
    split
    · simp [length_missingDigit]
    · split
      · simp
      · exact Nat.le_trans (length_readAfterWhole _ _ _) (length_dropWhile_le _ _)

theorem length_readString (units : List Nat) (s : List Char) :
    (readString units s).2.length ≤ s.length := by
  fun_induction readString units s <;> simp_all <;> omega

theorem length_ite_le {p : Prop} [Decidable p] {a b : Token × List Char} {n : Nat}
    (ha : p → a.2.length ≤ n) (hb : b.2.length ≤ n) : (if p then a else b).2.length ≤ n := by
  by_cases h : p
  · rw [if_pos h]; exact ha h
  · rw [if_neg h]; exact hb

/-- What follows a token is no longer than what followed its first character. -/
theorem length_readToken (c : Char) (s : List Char) : (readToken c s).2.length ≤ s.length := by
  unfold readToken
  iterate 6 refine length_ite_le (fun _ => Nat.le_refl _) ?_
  refine length_ite_le (fun _ => length_readString _ _) ?_
  iterate 3 refine length_ite_le (fun _ => length_readWord _ _ _) ?_
  refine length_ite_le (fun _ => (length_readUnsigned _ c _).1) ?_
  exact length_ite_le (fun h => (length_readUnsigned _ c _).2 h) (Nat.zero_le _)

/-! ## All tokens -/

/-- The tokens of a text, in order. -/
def tokens (s : List Char) : List Token :=
  match _h : s.dropWhile isJsonBlank with
  | [] => []
  | c :: rest => (readToken c rest).1 :: tokens (readToken c rest).2
termination_by s.length
decreasing_by
  have hrest := length_readToken c rest
  have hdrop := length_dropWhile_le isJsonBlank s
  simp only [_h, List.length_cons] at hdrop
  omega

/-! ## The text of a string -/

/-- Whether a unit is the first half of a surrogate pair. -/
def isLead (unit : Nat) : Bool :=
  0xD800 ≤ unit && unit < 0xDC00

/-- Whether a unit is the second half of a surrogate pair. -/
def isTrail (unit : Nat) : Bool :=
  0xDC00 ≤ unit && unit < 0xE000

/-- The characters that units spell, with `end?` as the verdict on a first half
that nothing follows. A half without its other half is malformed. -/
def decodeUnits (atEnd : Fault) : List Nat → Except Fault (List Char)
  | [] => .ok []
  | [unit] =>
      if isLead unit then .error atEnd
      else if isTrail unit then .error .malformed
      else .ok [Char.ofNat unit]
  | unit :: next :: rest =>
      if isLead unit then
        if isTrail next then
          (decodeUnits atEnd rest).map
            (Char.ofNat (0x10000 + 0x400 * (unit - 0xD800) + (next - 0xDC00)) :: ·)
        else .error .malformed
      else if isTrail unit then .error .malformed
      else (decodeUnits atEnd (next :: rest)).map (Char.ofNat unit :: ·)

def stringText (units : List Nat) : Except Fault String :=
  (decodeUnits .malformed units).map String.ofList

/-- What is wrong with a string that goes wrong after `units`: an unpaired
surrogate among them comes first. -/
def brokenStringFault (units : List Nat) (fault : Fault) : Fault :=
  match decodeUnits fault units with
  | .ok _ => fault
  | .error first => first

/-! ## The value of a number -/

/-- The number that a token spells. An integer that fits 64 bits is exact, and
any other number is rounded; a magnitude that is out of range is malformed. -/
def numberValue (negative whole : Bool) (n : Numeral) : Except Fault Number :=
  let value : Int := if negative then -(n.significand : Int) else n.significand
  let fits := -(Nat.pow 2 63 : Nat) ≤ value && value < (Nat.pow 2 64 : Nat)
  if whole && !(negative && n.significand == 0) && fits then
    .ok (.int value)
  else
    match n.toBinary64? negative with
    | some x => .ok (.double x)
    | none => .error .malformed

end Mustache.Json
