import Mustache.Numeral.Shortest
import Mustache.Text.Digits

/-!
How a number is printed.

A number prints with the fewest digits that read back. Magnitudes from `10 ^ -6`
up to `10 ^ 21` are written positionally, without an exponent and without a
trailing point; all others with one digit before the point and an exponent that
bears a sign. Zero of either sign prints as `0`.
-/
set_option autoImplicit false

namespace Mustache

open Text

namespace Decimal

/-- The digits of the magnitude, as text. -/
def digitText (d : Decimal) : List Char :=
  Text.decimal d.digits

/-- The number of digits before the decimal point; not positive if the first
digit comes after it. -/
def pointAt (d : Decimal) : Int :=
  (d.digitText.length : Int) + d.scale

/-- The magnitude without an exponent. -/
def positional (d : Decimal) : List Char :=
  let digits := d.digitText
  let point := d.pointAt
  if 0 ≤ d.scale then digits ++ List.replicate d.scale.toNat '0'
  else if 0 < point then digits.take point.toNat ++ '.' :: digits.drop point.toNat
  else '0' :: '.' :: (List.replicate (-point).toNat '0' ++ digits)

/-- The magnitude with one digit before the point and an exponent (`exponent_form`). -/
def scientific (d : Decimal) : List Char :=
  let digits := d.digitText
  let exponent := d.pointAt - 1
  let fraction := digits.drop 1
  digits.take 1 ++ (if fraction.isEmpty then [] else '.' :: fraction)
    ++ 'e' :: (if 0 ≤ exponent then '+' else '-') :: Text.decimal exponent.natAbs

end Decimal

/-- The decimal text of an integer. -/
def integerText (n : Int) : List Char :=
  if n < 0 then '-' :: Text.decimal n.natAbs else Text.decimal n.natAbs

/-- The text of a binary64 number. -/
def Binary64.text (x : Binary64) : List Char :=
  if x.isZero then ['0']
  else
    let d := x.shortest
    let magnitude :=
      if -6 < d.pointAt ∧ d.pointAt ≤ 21 then d.positional else d.scientific
    if x.negative then '-' :: magnitude else magnitude

end Mustache
