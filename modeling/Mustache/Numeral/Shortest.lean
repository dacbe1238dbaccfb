import Mustache.Numeral.Binary64

/-!
The shortest decimal that reads back.

Every real number nearer to a binary64 number than to its neighbours is read
back as that number; so are the ends of that interval if the mantissa is even.
Among the decimals in the interval those on the coarsest power-of-ten grid have
the fewest digits, and of two on the same grid the nearer is taken, or the upper
one if both are equally near. If a grid has a point in the interval, it has one
next to the number itself, so two candidates a grid are enough.
-/
set_option autoImplicit false

namespace Mustache

/-- A magnitude `digits * 10 ^ scale`. -/
structure Decimal where
  digits : Nat
  scale : Int
  deriving DecidableEq, Repr

namespace Binary64

/-! ## The interval that reads back -/

/-- A number and the ends of the interval that is rounded to it, all in one
unit, with whether the ends belong to it. -/
structure Interval where
  low : Nat
  value : Nat
  high : Nat
  closed : Bool
  deriving DecidableEq, Repr

/-- The interval of a nonzero number, in quarters of its last bit. The lower
neighbour of a power of two is half as far away. -/
def interval (x : Binary64) : Interval where
  low :=
    if x.mantissa = topBit ∧ minExponent < x.exponent then 4 * x.mantissa - 1
    else 4 * x.mantissa - 2
  value := 4 * x.mantissa
  high := 4 * x.mantissa + 2
  closed := x.mantissa % 2 == 0

/-! ## The search -/

/-- The quarter of the last bit of `x` in units of `10 ^ scale`, as a numerator
and a denominator. -/
def quarterInGrid (x : Binary64) (scale : Int) : Nat × Nat :=
  let exponent := x.exponent - 2
  (Nat.pow 2 exponent.toNat * Nat.pow 10 (-scale).toNat,
    Nat.pow 2 (-exponent).toNat * Nat.pow 10 scale.toNat)

/-- The multiple of `10 ^ scale` that reads back as `x` and is nearest to it. -/
def gridPoint? (x : Binary64) (scale : Int) : Option Nat :=
  let i := x.interval
  let (num, den) := x.quarterInGrid scale
  let inside (n : Nat) : Bool :=
    if i.closed then i.low * num ≤ n * den && n * den ≤ i.high * num
    else i.low * num < n * den && n * den < i.high * num
  let below := i.value * num / den
  let above := below + 1
  match inside below, inside above with
  | true, true =>
      if i.value * num - below * den < above * den - i.value * num then some below else some above
  | true, false => some below
  | false, true => some above
  | false, false => none

/-- The first grid with a hit among `tries` grids from `10 ^ scale` down. -/
def searchGrids (x : Binary64) : (tries : Nat) → (scale : Int) → Decimal
  | 0, scale => ⟨0, scale⟩
  | tries + 1, scale =>
      match x.gridPoint? scale with
      | some n => ⟨n, scale⟩
      | none => searchGrids x tries (scale - 1)

/-- The scale of a grid that is too coarse for a nonzero `x`: its unit exceeds
the whole number. -/
def coarseScale (x : Binary64) : Int :=
  (x.exponent + x.mantissa.log2 + 1) * 30103 / 100000 + 2

/-- The shortest decimal that reads back as the magnitude of a nonzero `x`. No
binary64 number needs more than 17 digits, so 25 grids are enough. -/
def shortest (x : Binary64) : Decimal :=
  x.searchGrids 25 x.coarseScale

end Binary64

end Mustache
