import Mustache.Json.Value
import Mustache.Numeral.Layout

/-!
How a value prints, and whether it counts as true.

A generated module puts values into text by string conversion and tests them as
conditions. A value may be missing, which is not the same as null: `none` stands
for a missing value throughout.
-/
set_option autoImplicit false

namespace Mustache

open Json

/-! ## Truth -/

/-- Whether a value counts as true in a condition. -/
def Json.Value.truthy : Value → Bool
  | .null => false
  | .bool b => b
  | .num n => !n.isZero
  | .str s => s ≠ ""
  | .arr _ | .obj _ => true

/-- Whether a value that may be missing counts as true. -/
def truthy : Option Value → Bool
  | none => false
  | some value => value.truthy

/-! ## Text -/

/-- The text that a number prints (`number_to_string`). -/
def Json.Number.printed : Number → String
  | .int n => String.ofList (integerText n)
  | .double x => String.ofList x.text

mutual

def Json.Value.printed : Value → String
  | .null => "null"
  | .bool b => if b then "true" else "false"
  | .num n => n.printed
  | .str s => s
  | .arr items => ",".intercalate (printedItems items)
  | .obj _ => "[object Object]"

def printedItems : List Value → List String
  | [] => []
  | .null :: rest => "" :: printedItems rest
  | item :: rest => item.printed :: printedItems rest

end

/-- The text that a value prints that may be missing (`to_js_string`). -/
def printed : Option Value → String
  | none => "undefined"
  | some value => value.printed

end Mustache
