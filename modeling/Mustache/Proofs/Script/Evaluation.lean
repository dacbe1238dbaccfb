import Mustache.Data.Bindings
import Mustache.Proofs.Script.Term

/-!
What generated code means.

A term is evaluated under an environment, to a value, a function, or one of the few
things that generated code only passes through: a module, a built-in object, a method
of a value. The four functions that a module brings along mean what the renderer does
in their place. The comparison with zero is the renderer's: a string is read as a
number, and a list or an object is not above zero. Whatever a term could do besides
has no meaning here, and evaluation gives nothing.
-/
set_option autoImplicit false

namespace Mustache.Script

open Json

/-! ## What a term stands for -/

/-- What a term stands for. -/
inductive Denotation where
  /-- A value; `none` is the missing one. -/
  | value (v : Option Value)
  | function (run : List (Option Value) → Option (Option Value))
  /-- The function that loads a module by its path. -/
  | importer
  | module (path : String)
  /-- A built-in object, by the names that lead to it. -/
  | builtin (path : List String)
  | method (receiver : Denotation) (name : String)

namespace Denotation

/-- A value that is not missing. -/
def of (v : Value) : Denotation :=
  .value (some v)

/-- The value that a term stands for. -/
def value? : Denotation → Option (Option Value)
  | .value v => some v
  | _ => none

/-- The value that a term stands for, if it is not missing. -/
def present? (d : Denotation) : Option Value :=
  d.value?.bind id

/-- A property. Nothing is looked up in null or in a missing value; of a value only
its length is looked up, any other name is one of a method. -/
def member (d : Denotation) (name : String) : Option Denotation :=
  match d with
  | .value none | .value (some .null) => none
  | .value (some v) =>
      some (if name = "length" then .value (property? v "length") else .method d name)
  | .module _ => some (.method d name)
  | .builtin path => some (.builtin (path ++ [name]))
  | .function _ | .importer | .method _ _ => none

end Denotation

/-! ## Built-in functions -/

/-- What a value puts into a list that it is added to: the items of a list, or
itself. -/
def spliced : Value → List Value
  | .arr items => items
  | v => [v]

/-- Applies a function to each item of a list, with its place and the list. -/
def mapItems (run : List (Option Value) → Option (Option Value)) (whole : List Value) :
    (place : Nat) → List Value → Option (List Value)
  | _, [] => some []
  | place, item :: rest => do
      let result ← (← run [some item, some (.ofNat place), some (.arr whole)])
      some (result :: (← mapItems run whole (place + 1) rest))

def typeName : Option Value → String
  | none => "undefined"
  | some .null | some (.arr _) | some (.obj _) => "object"
  | some (.bool _) => "boolean"
  | some (.num _) => "number"
  | some (.str _) => "string"

/-- How the built-in objects name a value. -/
def className : Option Value → String
  | none => "[object Undefined]"
  | some .null => "[object Null]"
  | some (.bool _) => "[object Boolean]"
  | some (.num _) => "[object Number]"
  | some (.str _) => "[object String]"
  | some (.arr _) => "[object Array]"
  | some (.obj _) => "[object Object]"

/-- The modules that may be loaded: what each renders from its data, by its path. -/
abbrev Modules := String → Value → Option Value

def callMethod (modules : Modules) (receiver : Denotation) (name : String)
    (arguments : List Denotation) : Option Denotation :=
  match receiver with
  | .module path =>
      match arguments with
      | [.value (some data)] =>
          if name = "render" then (modules path data).map .of else none
      | _ => none
  | .value (some (.arr items)) =>
      if name = "concat" then do
        let added ← arguments.mapM Denotation.present?
        some (.of (.arr (items ++ added.flatMap spliced)))
      else if name = "join" then
        match arguments with
        | [.value (some (.str separator))] =>
            some (.of (.str (separator.intercalate (printedItems items))))
        | _ => none
      else if name = "map" then
        match arguments with
        | [.function run] => (mapItems run items 0 items).map fun results => .of (.arr results)
        | _ => none
      else none
  | _ => none

/-- The call of what a term stands for. -/
def Denotation.call (modules : Modules) (d : Denotation) (arguments : List Denotation) :
    Option Denotation :=
  match d with
  | .function run => do (run (← arguments.mapM Denotation.value?)).map .value
  | .importer =>
      match arguments with
      | [.value (some (.str path))] => some (.module path)
      | _ => none
  | .method receiver name => callMethod modules receiver name arguments
  | .builtin path =>
      match arguments with
      | [.value v] =>
          if path = ["Object", "prototype", "toString", "call"] then some (.of (.str (className v)))
          else none
      | _ => none
  | .value _ | .module _ => none

/-! ## Operators -/

/-- Whether a value makes the sum that it stands in a string. -/
def isTextual : Option Value → Bool
  | some (.str _) | some (.arr _) | some (.obj _) => true
  | _ => false

/-- The sum of two values, of which one makes it a string. -/
def addValues (left right : Option Value) : Option Value :=
  if isTextual left || isTextual right then some (.str (printed left ++ printed right)) else none

/-- Whether a value is greater than zero. -/
def isAboveZero : Option Value → Bool
  | some (.num n) => n.isPositive
  | some (.str s) => (FloatText.read? (Text.trim s.toList)).any FloatText.isPositive
  | some (.bool b) => b
  | _ => false

def isZeroNumber : Option Value → Bool
  | some (.num n) => n.isZero
  | _ => false

/-- What an operator makes of two values; the logical ones have a rule of their
own. -/
def BinaryOperator.apply (op : BinaryOperator) (left right : Option Value) : Option Value :=
  match op, left, right with
  | .plus, left, right => addValues left right
  | .above, left, right => if isZeroNumber right then some (.bool (isAboveZero left)) else none
  | .equal, some (.str s), some (.str t) => some (.bool (s = t))
  | .differ, some (.str s), some (.str t) => some (.bool (s ≠ t))
  | _, _, _ => none

/-! ## Environments -/

/-- What names stand for. -/
abbrev Environment := String → Option Denotation

namespace Environment

def bind (env : Environment) (name : String) (v : Option Value) : Environment :=
  fun x => if x = name then some (.value v) else env x

/-- Binds parameters to arguments. A parameter without an argument is missing, and an
argument without a parameter is left out. -/
def bindAll (env : Environment) : (parameters : List String) → (arguments : List (Option Value)) →
    Environment
  | [], _ => env
  | name :: parameters, arguments =>
      (env.bind name (arguments.head?.getD none)).bindAll parameters arguments.tail

end Environment

/-! ## Evaluation -/

mutual

/-- What a term stands for under an environment. -/
def Term.eval (modules : Modules) : Term → Environment → Option Denotation
  | .text value, _ => some (.of (.str value))
  | .number value, _ => some (.of (.ofNat value))
  | .yes, _ => some (.of (.bool true))
  | .name name, env => env name
  | .member object name, env => do (← object.eval modules env).member name
  | .call function arguments, env => do
      (← function.eval modules env).call modules (← evalList modules arguments env)
  | .array items, env => do
      some (.of (.arr (← (← evalList modules items env).mapM Denotation.present?)))
  | .object fields, env => do some (.of (.ofMembers (← evalFields modules fields env)))
  | .not operand, env => do
      some (.of (.bool (!truthy (← (← operand.eval modules env).value?))))
  | .typeOf operand, env => do
      some (.of (.str (typeName (← (← operand.eval modules env).value?))))
  | .binary op left right, env => do
      let l ← (← left.eval modules env).value?
      match op with
      | .and => if truthy l then right.eval modules env else some (.value l)
      | .or => if truthy l then some (.value l) else right.eval modules env
      | op => do
          let r ← (← right.eval modules env).value?
          (op.apply l r).map .of
  | .choose test t f, env => do
      if truthy (← (← test.eval modules env).value?) then t.eval modules env
      else f.eval modules env
  | .function parameters result, env =>
      some (.function fun arguments => do
        (← result.eval modules (env.bindAll parameters arguments)).value?)
  | .closure parameters name value result, env =>
      -- The variable is there from the start, but missing, and a parameter of its name hides it.
      some (.function fun arguments => do
        let inner := (env.bind name none).bindAll parameters arguments
        let v ← (← value.eval modules inner).value?
        (← result.eval modules (inner.bind name v)).value?)

/-- What the terms of a list stand for. -/
def evalList (modules : Modules) : List Term → Environment → Option (List Denotation)
  | [], _ => some []
  | t :: rest, env => do some ((← t.eval modules env) :: (← evalList modules rest env))

/-- The values of fields under their names. -/
def evalFields (modules : Modules) :
    List (String × Term) → Environment → Option (List (String × Value))
  | [], _ => some []
  | (name, t) :: rest, env => do
      some ((name, ← (← t.eval modules env).present?) :: (← evalFields modules rest env))

end

/-! ## The functions of a module -/

/-- Looks a path up. -/
def safeAccessOf : List (Option Value) → Option (Option Value)
  | [some scope, some (.str expression)] => some (lookup scope expression false)
  | [some scope, some (.str expression), some (.bool escape)] =>
      some (lookup scope expression escape)
  | _ => none

/-- Lists what a section is shown for. -/
def toArrayOf : List (Option Value) → Option (Option Value)
  | [some scope, some (.str expression)] => some (some (.arr (elements scope expression)))
  | _ => none

/-- Copies the entries of values onto an object, one after another. -/
def mergeOf : List (Option Value) → Option (Option Value)
  | some (.obj members) :: sources => do
      let sources ← sources.mapM id
      some (some (.obj (sources.foldl overlay members)))
  | _ => none

/-- Flattens a list by one level. -/
def spreadOf : List (Option Value) → Option (Option Value)
  | [some (.arr items)] => some (some (.arr (items.flatMap spliced)))
  | _ => none

/-- What the names that generated code does not bind stand for. -/
def globals : Environment
  | "safeAccess" => some (.function safeAccessOf)
  | "toArray" => some (.function toArrayOf)
  | "merge" => some (.function mergeOf)
  | "spread" => some (.function spreadOf)
  | "require" => some .importer
  | "Object" => some (.builtin ["Object"])
  | _ => none

end Mustache.Script
