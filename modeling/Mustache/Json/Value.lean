import Mustache.Data.NameMap
import Mustache.Numeral.Binary64

/-!
JSON values.

A number keeps whether it was written as an integer: an integer of at most 64
bits stays exact, every other number is the nearest binary64 number. The members
of an object are kept in the order of their names, each name once; setting a
member replaces the one of that name.
-/
set_option autoImplicit false

namespace Mustache.Json

/-! ## Values -/

/-- A JSON number. -/
inductive Number where
  /-- An integer that fits 64 bits, signed or unsigned. -/
  | int (value : Int)
  /-- Any other number. -/
  | double (value : Binary64)
  deriving DecidableEq, Repr

/-- Whether a number is zero, of either sign. -/
def Number.isZero : Number → Bool
  | .int n => n == 0
  | .double x => x.isZero

/-- Whether a number is greater than zero. -/
def Number.isPositive : Number → Bool
  | .int n => 0 < n
  | .double x => x.isPositive

/-- A JSON value. -/
inductive Value where
  | null
  | bool (value : Bool)
  | num (value : Number)
  | str (value : String)
  | arr (items : List Value)
  | obj (members : List (String × Value))
  deriving Inhabited

/-- The number of things, as a value. -/
def Value.ofNat (n : Nat) : Value :=
  .num (.int n)

/-! ## Objects -/

/-- The members of an object. -/
abbrev Members := NameMap Value

/-- An object with the given members, the last of a name winning. -/
def Value.ofMembers (members : List (String × Value)) : Value :=
  .obj (NameMap.insertAll [] members)

end Mustache.Json
