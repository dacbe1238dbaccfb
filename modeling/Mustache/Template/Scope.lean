import Mustache.Template.Location
import Mustache.Text.Digits

/-!
Open blocks.

Blocks nest, so the open ones form a stack; the depth of a block is the number
of blocks open once it is. Each depth has one variable in a generated module
that holds the block's data: `data` outside all blocks, then `data$1`, `data$2`
and so on.
-/
set_option autoImplicit false

namespace Mustache

/-- The kind of a block (`ScopeKind`). -/
inductive BlockKind where
  /-- A section, shown once for each element of its value. -/
  | normal
  /-- An inverted section, shown once if its value is missing. -/
  | inverted
  deriving DecidableEq, Repr

/-- The variable that holds the data of a block depth (`context_var`). -/
def contextVar (depth : Nat) : List Char :=
  if depth = 0 then "data".toList else "data$".toList ++ Text.decimal depth

/-- A block that was opened and not closed yet. -/
structure Scope where
  depth : Nat
  kind : BlockKind
  expression : String
  location : Location
  deriving DecidableEq, Repr

/-- The open blocks, the innermost first. -/
abbrev ScopeStack := List Scope

namespace ScopeStack

/-- The number of open blocks. -/
def depth (stack : ScopeStack) : Nat :=
  stack.length

/-- The variable that holds the data of the innermost open block. -/
def currentVar (stack : ScopeStack) : List Char :=
  contextVar stack.depth

/-- The innermost open block. -/
def current? (stack : ScopeStack) : Option Scope :=
  stack.head?

/-- Opens a block. -/
def push (stack : ScopeStack) (kind : BlockKind) (expression : String) (location : Location) :
    ScopeStack :=
  ⟨stack.depth + 1, kind, expression, location⟩ :: stack

/-- Closes the innermost open block and gives it back, if there is one. -/
def pop? (stack : ScopeStack) : Option (Scope × ScopeStack) :=
  match stack with
  | [] => none
  | scope :: rest => some (scope, rest)

end ScopeStack

end Mustache
