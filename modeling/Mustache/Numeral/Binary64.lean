/-
Binary64 numbers, exactly.

A finite number is a sign and `mantissa * 2 ^ exponent`. It is kept in the one
form that the interchange format stores: a mantissa below `2 ^ 53` that has its
top bit set unless the exponent is the least one. Arithmetic here is on natural
numbers, so rounding is a division with a remainder and nothing is approximate.
-/
set_option autoImplicit false

namespace Mustache

/-- A finite binary64 number. -/
structure Binary64 where
  negative : Bool
  mantissa : Nat
  exponent : Int
  deriving DecidableEq, Repr

namespace Binary64

/-! ## Parameters -/

/-- The number of bits of a mantissa. -/
def precision : Nat := 53

/-- The least mantissa that has its top bit set. -/
def topBit : Nat := Nat.pow 2 (precision - 1)

/-- The least exponent of a mantissa's last bit. -/
def minExponent : Int := -1074

/-- The greatest exponent of a mantissa's last bit. -/
def maxExponent : Int := 971

/-- Zero of either sign. -/
def zero (negative : Bool) : Binary64 := ⟨negative, 0, minExponent⟩

/-- Whether the number is zero, of either sign. -/
def isZero (x : Binary64) : Bool :=
  x.mantissa == 0

/-- Whether the number is greater than zero. -/
def isPositive (x : Binary64) : Bool :=
  !x.negative && x.mantissa != 0

/-! ## Rounding -/

/-- The quotient rounded to the nearest natural number, a half going to the even
one. -/
def roundQuotient (num den : Nat) : Nat :=
  let quotient := num / den
  let twice := 2 * (num % den)
  if twice < den then quotient
  else if den < twice then quotient + 1
  else if quotient % 2 = 0 then quotient else quotient + 1

/-- `num / den` in units of `2 ^ exponent`, as a numerator and a denominator. -/
def inUnits (num den : Nat) (exponent : Int) : Nat × Nat :=
  (num * Nat.pow 2 (-exponent).toNat, den * Nat.pow 2 exponent.toNat)

/-- The exponent of the last bit of the number nearest to `num / den`: the one
that leaves `precision` bits before the point, or the least one. -/
def unitExponent (num den : Nat) : Int :=
  let estimate : Int := (num.log2 : Int) - (den.log2 : Int) - 52
  let (n, d) := inUnits num den estimate
  let exponent := if n < d * topBit then estimate - 1 else estimate
  if exponent < minExponent then minExponent else exponent

/-- A mantissa and its exponent after rounding; one that came to exceed its bits is
halved. -/
def carry (mantissa : Nat) (exponent : Int) : Nat × Int :=
  if mantissa = 2 * topBit then (topBit, exponent + 1) else (mantissa, exponent)

/-- The magnitude nearest to `num / den` as a mantissa and an exponent; nothing
if it is beyond the greatest finite number. -/
def nearest? (num den : Nat) : Option (Nat × Int) :=
  let exponent := unitExponent num den
  let units := inUnits num den exponent
  let rounded := carry (roundQuotient units.1 units.2) exponent
  if maxExponent < rounded.2 then none else some rounded

/-- The number of decimal digits of a natural number; zero has one. -/
def decimalLength (n : Nat) : Nat :=
  (Nat.toDigits 10 n).length

/-- The number nearest to `significand * 10 ^ scale`; nothing if it is beyond
the greatest finite number. Magnitudes that are far out of range are answered
without computing the power. -/
def ofDecimal? (negative : Bool) (significand : Nat) (scale : Int) : Option Binary64 :=
  let magnitude := (decimalLength significand : Int) + scale
  if significand = 0 ∨ magnitude < -330 then some (zero negative)
  else if 330 < magnitude then none
  else
    (nearest? (significand * Nat.pow 10 scale.toNat) (Nat.pow 10 (-scale).toNat)).map fun (m, e) =>
      ⟨negative, m, e⟩

/-- The number nearest to an integer of at most 64 bits. -/
def ofInt? (n : Int) : Option Binary64 :=
  ofDecimal? (n < 0) n.natAbs 0

/-! ## The interchange format -/

/-- The 64 bits that store the number: sign, biased exponent, and the mantissa
without its top bit. -/
def bits (x : Binary64) : Nat :=
  let sign := if x.negative then Nat.pow 2 63 else 0
  if x.mantissa < topBit then sign + x.mantissa
  else sign + (x.exponent - minExponent + 1).toNat * topBit + (x.mantissa - topBit)

end Binary64

end Mustache
