import Mustache.Data.Printed
import Mustache.Text.Markup
import Mustache.Text.Units
import Mustache.Text.Blank
import Mustache.Numeral.Reading

/-!
Looking up what a tag names.

An expression is a path of keys with dots between them, up to the first space. A
lookup never fails: it stops at null or at a missing value, and what it finds is
replaced by the empty string unless it is a number or counts as true. An
expression that starts with a dot is one key, looked up as it is.
-/
set_option autoImplicit false

namespace Mustache

open Json Text

/-! ## Properties -/

/-- One UTF-16 unit of a string, as a value. -/
def unitValue (unit : Char) : Value :=
  .str (String.singleton unit)

/-- The property `length` of a list of things, or the one at an index. -/
def indexed? (things : List Value) (key : String) : Option Value :=
  if key = "length" then some (.ofNat things.length)
  else (readIndex? key.toList).bind (things[·]?)

/-- The property of a value (`get_property`): a member of an object, or the length or an item of an
array or of a string. -/
def property? (value : Value) (key : String) : Option Value :=
  match value with
  | .obj members => NameMap.get? members key
  | .arr items => indexed? items key
  | .str s => indexed? ((units s.toList).map unitValue) key
  | .null | .bool _ | .num _ => none

/-! ## Paths -/

/-- The parts of a text between the places where `separator` stands; a text
without it is one part. -/
def splitAtChar (separator : Char) : List Char → List (List Char)
  | [] => [[]]
  | c :: s =>
      if c = separator then [] :: splitAtChar separator s
      else
        match splitAtChar separator s with
        | [] => [[c]]
        | part :: parts => (c :: part) :: parts

/-- The keys that an expression walks through. -/
def pathKeys (expression : String) : List String :=
  (splitAtChar '.' (expression.toList.takeWhile (· ≠ ' '))).map String.ofList

/-- One step of a walk: it stays where nothing can be looked up. -/
def walkStep (current : Option Value) (key : String) : Option Value :=
  match current with
  | none => none
  | some .null => some .null
  | some value => property? value key

/-- Where a path leads. -/
def walk (scope : Value) (keys : List String) : Option Value :=
  keys.foldl walkStep (some scope)

/-- What a lookup makes of the value that a path leads to. -/
def settle (escape : Bool) (found : Option Value) : Option Value :=
  match found with
  | some (.str s) =>
      some (.str (if escape then String.ofList (escapeMarkup s.toList) else s))
  | some (.num n) => some (.num n)
  | other => if truthy other then other else some (.str "")

/-- What an expression finds in a scope, escaped if it is a string (`safe_access`). -/
def lookup (scope : Value) (expression : String) (escape : Bool) : Option Value :=
  match expression.toList with
  | [] => some scope
  | '.' :: _ => property? scope expression
  | _ => settle escape (walk scope (pathKeys expression))

/-- An expression that is not empty and does not start with a dot is a path. -/
theorem lookup_of_path {expression : String} (hne : expression ≠ "")
    (hdot : expression.toList.head? ≠ some '.') (scope : Value) (escape : Bool) :
    lookup scope expression escape = settle escape (walk scope (pathKeys expression)) := by
  rw [lookup]
  split
  · rename_i hnil
    exact absurd (String.toList_inj.mp (hnil.trans String.toList_empty.symm)) hne
  · rename_i hrest
    rw [hrest] at hdot
    exact absurd rfl hdot
  · rfl

/-! ## Sections -/

/-- The values that a section is shown for (`to_array`): the items of an array, or the value itself
if it counts as true. -/
def elements (scope : Value) (expression : String) : List Value :=
  match lookup scope expression false with
  | none => []
  | some value =>
      if value.truthy then
        match value with
        | .arr items => items
        | other => [other]
      else []

/-! ## Inverted sections -/

/-- Whether the property `length` of a value is greater than zero (`length_is_positive`). A string
is read as a number. -/
def hasPositiveLength (value : Value) : Bool :=
  match property? value "length" with
  | some (.num n) => n.isPositive
  | some (.str s) => (FloatText.read? (trim s.toList)).any FloatText.isPositive
  | some (.bool b) => b
  | _ => false

def isBoolean : Value → Bool
  | .bool _ => true
  | _ => false

def isArray : Value → Bool
  | .arr _ => true
  | _ => false

end Mustache
