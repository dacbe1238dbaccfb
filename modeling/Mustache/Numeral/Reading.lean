import Mustache.Numeral.Binary64
import Mustache.Text.Digits

/-!
Numbers read from text.

A numeral is split into its digits before the point, its digits after it and its
exponent. `FloatText.read?` takes the free form in which a number may stand in a
string: an optional sign, digits with or without a point (at least one digit in
all), an optional exponent, or one of the words `inf`, `infinity` and `nan` in
any letter case. There are no hexadecimal numerals and no digit separators.
-/
set_option autoImplicit false

namespace Mustache

open Text

/-! ## Numerals in parts -/

/-- The digits and the exponent of an unsigned numeral. -/
structure Numeral where
  whole : List Char
  fraction : List Char
  exponent : Int
  deriving DecidableEq, Repr

namespace Numeral

/-- All digits of the numeral as one number. -/
def significand (n : Numeral) : Nat :=
  digitsValue (n.whole ++ n.fraction)

/-- The power of ten that the significand is multiplied by. -/
def scale (n : Numeral) : Int :=
  n.exponent - (n.fraction.length : Int)

/-- The number nearest to the numeral; nothing if it is out of range. -/
def toBinary64? (negative : Bool) (n : Numeral) : Option Binary64 :=
  Binary64.ofDecimal? negative n.significand n.scale

end Numeral

/-- An exponent with its optional sign, without the letter before it: one or
more digits to the end of the text. -/
def readExponent? (s : List Char) : Option Int :=
  let negative := s.head? == some '-'
  let digits := if s.head? = some '-' ∨ s.head? = some '+' then s.drop 1 else s
  if digits.isEmpty || !digits.all Char.isDigit then none
  else some (if negative then -(digitsValue digits : Int) else digitsValue digits)

/-! ## Numbers in strings -/

/-- What the text of a number denotes. -/
inductive FloatText where
  | nan
  | infinite (negative : Bool)
  | finite (value : Binary64)
  deriving DecidableEq, Repr

namespace FloatText

/-- The words that stand for a number, in lower case. -/
def words (negative : Bool) : List (String × FloatText) :=
  [("inf", .infinite negative), ("infinity", .infinite negative), ("nan", .nan)]

/-- The point and the digits after it, and what follows them. -/
def splitFraction : List Char → List Char × List Char
  | '.' :: s => (s.takeWhile Char.isDigit, s.dropWhile Char.isDigit)
  | s => ([], s)

/-- An unsigned numeral that takes the whole text. -/
def readNumeral? (s : List Char) : Option Numeral :=
  let whole := s.takeWhile Char.isDigit
  let (fraction, rest) := splitFraction (s.dropWhile Char.isDigit)
  if whole.isEmpty && fraction.isEmpty then none
  else
    match rest with
    | [] => some ⟨whole, fraction, 0⟩
    | c :: exponent =>
        if c = 'e' ∨ c = 'E' then (readExponent? exponent).map (⟨whole, fraction, ·⟩) else none

/-- What the text denotes as a number, if it denotes one. -/
def read? (s : List Char) : Option FloatText :=
  let negative := s.head? == some '-'
  let unsigned := if s.head? = some '-' ∨ s.head? = some '+' then s.drop 1 else s
  match (words negative).lookup (String.ofList (unsigned.map Char.toLower)) with
  | some word => some word
  | none =>
      (readNumeral? unsigned).map fun n =>
        match n.toBinary64? negative with
        | some x => .finite x
        | none => .infinite negative

/-- Whether the number is greater than zero. -/
def isPositive : FloatText → Bool
  | .nan => false
  | .infinite negative => !negative
  | .finite x => x.isPositive

end FloatText

end Mustache
