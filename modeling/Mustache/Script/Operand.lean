/-
What was read where a value may stand.

What stands in front of an equals sign or an arrow is read before either is seen, so
it is read as a value, and what else it may be is kept: a name or a property that can
be assigned to, a list or a record that can take apart what is assigned to it, or
parameters. A record may give a short field a value only where it takes something
apart; until that is known it is unfinished.
-/
set_option autoImplicit false

namespace Mustache.Script

/-! ## Shapes -/

/-- What an operand or an assignment may be besides a value. -/
inductive Shape where
  /-- It is a value only. -/
  | value
  /-- It is a value with an operator in front of it. -/
  | prefixed
  | name
  /-- It is a property, or a name in parentheses. -/
  | property
  /-- It is a list or a record that takes something apart, into parameters too if
  `binds`. -/
  | pattern (binds : Bool)
  /-- It is an assignment, which stands for what is assigned to in a pattern. -/
  | assigned (binds : Bool)
  deriving DecidableEq, Repr

namespace Shape

/-- Whether any assigning operator may stand behind it. -/
def isTarget : Shape → Bool
  | .name | .property => true
  | _ => false

/-- Whether an equals sign may stand behind it. -/
def takesValues : Shape → Bool
  | .pattern _ => true
  | shape => shape.isTarget

/-- Whether it may be an item of a pattern. -/
def isPart : Shape → Bool
  | .assigned _ => true
  | shape => shape.takesValues

/-- Whether it may be a parameter. -/
def binds : Shape → Bool
  | .name => true
  | .pattern binds | .assigned binds => binds
  | _ => false

/-- The same in parentheses, which leave patterns and assignments to be values. -/
def inParentheses : Shape → Shape
  | .name | .property => .property
  | _ => .value

end Shape

/-! ## Operands -/

/-- What was read. -/
structure Operand where
  shape : Shape
  /-- Whether it may be a value: no field in it waits for something to take apart. -/
  isFinished : Bool
  deriving DecidableEq, Repr

/-- A finished operand. -/
def Operand.of (shape : Shape) : Operand := ⟨shape, true⟩

/-! ## Items between brackets -/

/-- The brackets around items. -/
inductive Enclosure where
  | list
  | record
  /-- Parentheses around an expression or parameters. -/
  | group
  /-- Parentheses behind the word that may start an arrow function. -/
  | call
  deriving DecidableEq, Repr

/-- The bracket that closes an enclosure. -/
def Enclosure.closing : Enclosure → String
  | .list => "]"
  | .record => "\x7d"
  | .group | .call => ")"

/-- Whether the item that takes the rest may have a shape. A record takes its rest
whole. -/
def Enclosure.mayTakeRest (enclosure : Enclosure) (shape : Shape) : Bool :=
  if enclosure = .record then shape.isTarget else shape.takesValues

/-- What is known of the items between brackets. -/
structure Items where
  count : Nat
  /-- The shape of the last one. -/
  last : Shape
  /-- Whether they may make up a pattern. -/
  areParts : Bool
  /-- Whether they may be parameters. -/
  bind : Bool
  areFinished : Bool
  /-- Whether one of them is spread out. -/
  areSpread : Bool
  /-- Whether a comma stands behind the last one. -/
  endInComma : Bool
  deriving DecidableEq, Repr

namespace Items

def empty : Items := ⟨0, .value, true, true, true, false, false⟩

def add (items : Items) (enclosure : Enclosure) (item : Operand) (isSpread : Bool) : Items :=
  let mayStand := if isSpread then enclosure.mayTakeRest item.shape else item.shape.isPart
  { count := items.count + 1
    last := item.shape
    areParts := items.areParts && mayStand
    bind := items.bind && mayStand && item.shape.binds
    areFinished := items.areFinished && item.isFinished
    areSpread := items.areSpread || isSpread
    endInComma := false }

/-- With a comma behind them. Behind the item that takes the rest there is none. -/
def comma (items : Items) : Items :=
  { items with
    areParts := items.areParts && !items.areSpread
    bind := items.bind && !items.areSpread
    endInComma := true }

/-- The list or the record that they make up. -/
def literal (items : Items) : Operand :=
  ⟨if items.areParts then .pattern items.bind else .value, items.areFinished⟩

/-- The expression that they make up in parentheses. -/
def group? (items : Items) : Option Operand :=
  if items.count = 0 ∨ !items.areFinished ∨ items.areSpread ∨ items.endInComma then none
  else some (.of (if items.count = 1 then items.last.inParentheses else .value))

end Items

end Mustache.Script
