import Mathlib.Tactic.Common
import Mustache.Proofs.Script.Layout

/-!
Reading generated code.

`read?` takes script text apart: into tokens, into groups by their brackets, and
into terms by how tightly the operators hold their operands. It knows the
expressions that generated modules are made of and gives nothing for any other
text, so that what it gives is what every reader of scripts finds there.
-/
set_option autoImplicit false

namespace Mustache.Script

/-! ## Terms -/

def BinaryOperator.all : List BinaryOperator :=
  [.plus, .above, .equal, .differ, .and, .or]

/-- An expression that was read, without its parentheses and blanks. -/
inductive Term where
  | text (value : String)
  | number (value : Nat)
  /-- The constant `true`. -/
  | yes
  | name (name : String)
  | member (object : Term) (name : String)
  | call (function : Term) (arguments : List Term)
  | array (items : List Term)
  | object (fields : List (String × Term))
  | not (operand : Term)
  | typeOf (operand : Term)
  | binary (operator : BinaryOperator) (left right : Term)
  | choose (test whenTrue whenFalse : Term)
  /-- A function that returns a value. -/
  | function (parameters : List String) (result : Term)
  /-- A function that binds a variable before it returns a value. -/
  | closure (parameters : List String) (bound : String) (value result : Term)

/-! ## Items -/

/-- A token, or the terms that stand between two brackets. -/
inductive Item where
  | token (t : Token)
  | round (content : List Term)
  | square (content : List Term)
  | fields (content : List (String × Term))
  /-- The body of a function that returns a value. -/
  | body (result : Term)
  /-- The body of a function that binds a variable first. -/
  | boundBody (name : String) (value result : Term)

def Item.operator? : Item → Option BinaryOperator
  | .token (.mark spelling) => BinaryOperator.all.find? fun op => op.mark = spelling
  | _ => none

def Item.isMark (spelling : String) : Item → Bool
  | .token t => t = .mark spelling
  | _ => false

/-- Items between the places where a mark stands. -/
def splitAtMark (spelling : String) : List Item → List (List Item)
  | [] => [[]]
  | item :: items =>
      if item.isMark spelling then [] :: splitAtMark spelling items
      else match splitAtMark spelling items with
        | [] => [[item]]
        | part :: parts => (item :: part) :: parts

/-- Items between the operators that hold their operands in a given way: the first
part, and each other part with the operator in front of it. -/
def splitAtOperators (looseness : Nat) :
    List Item → List Item × List (BinaryOperator × List Item)
  | [] => ([], [])
  | item :: items =>
      let (first, rest) := splitAtOperators looseness items
      match item.operator? with
      | some op => if op.looseness = looseness then ([], (op, first) :: rest)
          else (item :: first, rest)
      | none => (item :: first, rest)

/-! ## Operands -/

/-- The parameters of a function. -/
def parameters? (content : List Term) : Option (List String) :=
  content.mapM fun
    | .name name => some name
    | _ => none

/-- Reads an operand of one item. -/
def readPrimary : Item → Option Term
  | .token (.text value) => some (.text value)
  | .token (.number value) => some (.number value)
  | .token (.word name) =>
      if name = "true" then some .yes else if isName name then some (.name name) else none
  | .round [term] => some term
  | .square items => some (.array items)
  | .fields fields => some (.object fields)
  | _ => none

/-- Reads the properties and calls behind a term. -/
def readAccessors : Term → List Item → Option Term
  | term, [] => some term
  | term, .round arguments :: items => readAccessors (.call term arguments) items
  | term, .token t :: .token (.word name) :: items =>
      if t = .mark "." then readAccessors (.member term name) items else none
  | _, _ => none

/-- Reads a function from behind its keyword, and the accessors behind it. -/
def readFunction : List Item → Option Term
  | .round content :: .body result :: items => do
      readAccessors (.function (← parameters? content) result) items
  | .round content :: .boundBody name value result :: items => do
      readAccessors (.closure (← parameters? content) name value result) items
  | _ => none

/-- Reads an operand and the accessors behind it. -/
def readAccess : List Item → Option Term
  | .token (.word "function") :: items => readFunction items
  | item :: items => do readAccessors (← readPrimary item) items
  | [] => none

/-- Reads an operand with the operators in front of it. -/
def readSigned : List Item → Option Term
  | .token (.mark "!") :: items => (readSigned items).map .not
  | .token (.word "typeof") :: items => (readSigned items).map .typeOf
  | items => readAccess items

/-! ## Operators -/

/-- Puts operands together from left to right. -/
def readChain (read : List Item → Option Term) : Term → List (BinaryOperator × List Item) →
    Option Term
  | left, [] => some left
  | left, (op, part) :: rest => do readChain read (.binary op left (← read part)) rest

/-- Reads a term whose operators hold their operands at least as tightly as given. -/
def readUpTo : (looseness : Nat) → List Item → Option Term
  | 0, items => readAccess items
  | 1, items => readSigned items
  | n + 2, items => do
      let (first, rest) := splitAtOperators (n + 2) items
      readChain (readUpTo (n + 1)) (← readUpTo (n + 1) first) rest

/-- Reads a whole term. -/
def readTerm (items : List Item) : Option Term :=
  match splitAtMark "?" items with
  | [items] => readUpTo 6 items
  | [test, branches] =>
      match splitAtMark ":" branches with
      | [whenTrue, whenFalse] => do
          some (.choose (← readUpTo 6 test) (← readUpTo 6 whenTrue) (← readUpTo 6 whenFalse))
      | _ => none
  | _ => none

/-! ## Groups -/

/-- Reads terms with commas between them. -/
def readList : List Item → Option (List Term)
  | [] => some []
  | items => (splitAtMark "," items).mapM readTerm

/-- Reads a field of an object. -/
def readField : List Item → Option (String × Term)
  | .token (.word name) :: colon :: items =>
      if colon.isMark ":" then (readTerm items).map (name, ·) else none
  | .token (.text name) :: colon :: items =>
      if colon.isMark ":" then (readTerm items).map (name, ·) else none
  | _ => none

/-- Reads a statement that returns a value. -/
def readReturn : List Item → Option Term
  | .token (.word "return") :: items => readTerm items
  | _ => none

/-- Reads a statement that binds a variable. -/
def readBind : List Item → Option (String × Term)
  | .token (.word "var") :: .token (.word name) :: equals :: items =>
      if isName name && equals.isMark "=" then (readTerm items).map (name, ·) else none
  | _ => none

/-- Reads what stands between curly brackets: an object, or the body of a function,
whose statements end in semicolons. -/
def readCurly (items : List Item) : Option Item :=
  match splitAtMark ";" items with
  | [[]] => some (.fields [])
  | [items] => ((splitAtMark "," items).mapM readField).map .fields
  | [result, []] => (readReturn result).map .body
  | [bound, result, []] => do
      let (name, value) ← readBind bound
      some (.boundBody name value (← readReturn result))
  | _ => none

/-- Reads what stands between brackets. -/
def readGroup (b : Bracket) (items : List Item) : Option Item :=
  match b with
  | .round => (readList items).map .round
  | .square => (readList items).map .square
  | .curly => readCurly items

mutual

def Nest.item? : Nest → Option Item
  | .token t => some (.token t)
  | .group b content => do readGroup b (← itemsOf content)

def itemsOf : List Nest → Option (List Item)
  | [] => some []
  | n :: ns => do some ((← n.item?) :: (← itemsOf ns))

end

/-- The term that a text spells. -/
def read? (s : List Char) : Option Term := do
  readTerm (← itemsOf (← nests? (← tokens? s)))

/-! ## Expressions as terms -/

/-- The name of a field, however it is written. -/
def FieldName.name : FieldName → String
  | .bare name => name
  | .quoted name => name

mutual

def Expr.term : Expr → Term
  | .text value => .text value
  | .emptyText => .text ""
  | .yes => .yes
  | .number value => .number value
  | .var name => .name name
  | .member object name => .member object.term name
  | .apply function arguments => .call function.term (termsOfList arguments)
  | .list items => .array (termsOfList items)
  | .record fields => .object (termsOfFields fields)
  | .sum first rest => termOfSum first.term rest
  | .not operand => .not operand.term
  | .typeOf operand => .typeOf operand.term
  | .binary operator left right => .binary operator left.term right.term
  | .choose test t f => .choose test.term t.term f.term
  | .paren inner => inner.term
  | .function parameters result => .function parameters result.term
  | .closure parameters name value result =>
      .closure parameters name value.term result.term

def termsOfList : List Expr → List Term
  | [] => []
  | e :: rest => e.term :: termsOfList rest

/-- The fields of an object as terms under their names. -/
def termsOfFields : List (FieldName × Expr) → List (String × Term)
  | [] => []
  | (name, e) :: rest => (name.name, e.term) :: termsOfFields rest

/-- A sum from left to right, given what its first summands amount to. -/
def termOfSum (left : Term) : List (Bool × Expr) → Term
  | [] => left
  | (_, e) :: rest => termOfSum (.binary .plus left e.term) rest

end

end Mustache.Script
