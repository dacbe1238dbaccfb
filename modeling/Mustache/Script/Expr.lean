import Mustache.Script.Piece
import Mustache.Text.Digits

/-!
Script expressions, and their layout.

The body of a generated module is made of the few forms of expression below.
`Expr.pieces` fixes how each is written, down to the blanks and line ends: a
function that binds a variable takes four lines, everything else stays on one,
and parentheses are a form of their own, so that the layout never has to decide
about precedence.
-/
set_option autoImplicit false

namespace Mustache.Script

/-! ## Expressions -/

/-- The name of a field of an object. -/
inductive FieldName where
  /-- A name that is written as it is. -/
  | bare (name : String)
  /-- A name that is written as a string. -/
  | quoted (name : String)
  deriving DecidableEq, Repr

/-- An operator between two operands. -/
inductive BinaryOperator where
  | plus
  | above
  | equal
  | differ
  | and
  | or
  deriving DecidableEq, Repr

/-- How the operator is written. -/
def BinaryOperator.mark : BinaryOperator → String
  | .plus => "+"
  | .above => ">"
  | .equal => "==="
  | .differ => "!=="
  | .and => "&&"
  | .or => "||"

/-- An expression. -/
inductive Expr where
  /-- A string, in single quotes. -/
  | text (value : String)
  /-- The empty string, in double quotes. -/
  | emptyText
  /-- The constant `true`. -/
  | yes
  | number (value : Nat)
  | var (name : String)
  /-- A property of a value. -/
  | member (object : Expr) (name : String)
  /-- The call of a function. -/
  | apply (function : Expr) (arguments : List Expr)
  | list (items : List Expr)
  | record (fields : List (FieldName × Expr))
  /-- A sum from left to right. Each summand after the first says whether blanks
  stand around its plus sign. -/
  | sum (first : Expr) (rest : List (Bool × Expr))
  | not (operand : Expr)
  | typeOf (operand : Expr)
  /-- Two operands and an operator, with blanks around it. -/
  | binary (operator : BinaryOperator) (left right : Expr)
  | choose (test whenTrue whenFalse : Expr)
  | paren (inner : Expr)
  /-- A function that returns `result`. -/
  | function (parameters : List String) (result : Expr)
  /-- A function that binds a variable first. -/
  | closure (parameters : List String) (bound : String) (value result : Expr)

/-! ## Layout -/

/-- Lists of pieces with a comma and a blank between them. -/
def commaSeparated : List (List Piece) → List Piece
  | [] => []
  | [first] => first
  | first :: next :: rest => first ++ code ", " ++ commaSeparated (next :: rest)

/-- The name of a field as it is written. -/
def FieldName.pieces : FieldName → List Piece
  | .bare name => code name
  | .quoted name => [.literal name.toList]

/-- The parameters of a function, in parentheses. -/
def parameterPieces (parameters : List String) : List Piece :=
  code "function (" ++ commaSeparated (parameters.map code) ++ code ") \x7b"

mutual

/-- An expression as it is written. -/
def Expr.pieces : Expr → List Piece
  | .text value => [.literal value.toList]
  | .emptyText => [.emptyLiteral]
  | .yes => code "true"
  | .number value => (Text.decimal value).map .code
  | .var name => code name
  | .member object name => object.pieces ++ code "." ++ code name
  | .apply function arguments =>
      function.pieces ++ code "(" ++ commaSeparated (piecesOfList arguments) ++ code ")"
  | .list items => code "[" ++ commaSeparated (piecesOfList items) ++ code "]"
  | .record fields => code "\x7b" ++ commaSeparated (piecesOfFields fields) ++ code "\x7d"
  | .sum first rest => first.pieces ++ piecesOfSummands rest
  | .not operand => code "!" ++ operand.pieces
  | .typeOf operand => code "typeof " ++ operand.pieces
  | .binary operator left right =>
      left.pieces ++ code " " ++ code operator.mark ++ code " " ++ right.pieces
  | .choose test t f => test.pieces ++ code " ? " ++ t.pieces ++ code " : " ++ f.pieces
  | .paren inner => code "(" ++ inner.pieces ++ code ")"
  | .function parameters result =>
      parameterPieces parameters ++ code " return " ++ result.pieces ++ code "; \x7d"
  | .closure parameters name value result =>
      parameterPieces parameters ++ code "\n\tvar " ++ code name ++ code " = " ++ value.pieces
        ++ code ";\n\treturn " ++ result.pieces ++ code ";\n\x7d"

/-- Each expression of a list as it is written. -/
def piecesOfList : List Expr → List (List Piece)
  | [] => []
  | e :: rest => e.pieces :: piecesOfList rest

/-- Each field of an object as it is written. -/
def piecesOfFields : List (FieldName × Expr) → List (List Piece)
  | [] => []
  | (name, e) :: rest => (name.pieces ++ code ": " ++ e.pieces) :: piecesOfFields rest

/-- The summands after the first, each with its plus sign. -/
def piecesOfSummands : List (Bool × Expr) → List Piece
  | [] => []
  | (spaced, e) :: rest =>
      code (if spaced then " + " else "+") ++ e.pieces ++ piecesOfSummands rest

end

/-! ## Names in use -/

mutual

/-- Whether an expression refers to a name. -/
def Expr.mentions (x : String) : Expr → Bool
  | .text _ | .emptyText | .yes | .number _ => false
  | .var name => name == x
  | .member object _ => object.mentions x
  | .apply function arguments => function.mentions x || anyMentions x arguments
  | .list items => anyMentions x items
  | .record fields => anyFieldMentions x fields
  | .sum first rest => first.mentions x || anySummandMentions x rest
  | .not operand | .typeOf operand | .paren operand => operand.mentions x
  | .binary _ left right => left.mentions x || right.mentions x
  | .choose test t f => test.mentions x || t.mentions x || f.mentions x
  | .function _ result => result.mentions x
  | .closure _ _ value result => value.mentions x || result.mentions x

/-- Whether some expression of a list refers to a name. -/
def anyMentions (x : String) : List Expr → Bool
  | [] => false
  | e :: rest => e.mentions x || anyMentions x rest

/-- Whether the value of some field refers to a name. -/
def anyFieldMentions (x : String) : List (FieldName × Expr) → Bool
  | [] => false
  | (_, e) :: rest => e.mentions x || anyFieldMentions x rest

/-- Whether some summand refers to a name. -/
def anySummandMentions (x : String) : List (Bool × Expr) → Bool
  | [] => false
  | (_, e) :: rest => e.mentions x || anySummandMentions x rest

end

end Mustache.Script
