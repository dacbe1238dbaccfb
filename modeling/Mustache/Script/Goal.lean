import Mustache.Script.Lexeme
import Mustache.Script.Operand

/-!
What is still to be recognised of a script.

A script is recognised with a stack of goals, each in its surroundings. A goal
stands for a part of the grammar. This module holds the goals, the surroundings, and
the classes of lexemes that decide between the ways to meet a goal.
-/
set_option autoImplicit false

namespace Mustache.Script

/-! ## Words -/

/-- The words that cannot be names. -/
def reservedWords : List String :=
  ["break", "case", "catch", "class", "const", "continue", "debugger", "default", "delete", "do",
   "else", "enum", "export", "extends", "false", "finally", "for", "function", "if", "import",
   "in", "instanceof", "new", "null", "return", "super", "switch", "this", "throw", "true", "try",
   "typeof", "var", "void", "while", "with"]

/-- The operators that join logical values. -/
def logicalOperators : List String := ["||", "&&"]

/-- The operators between two operands that hold them less tightly than a comparison
does. -/
def looseOperators : List String :=
  ["??", "||", "&&", "|", "^", "&", "==", "!=", "===", "!=="]

/-- The other operators between two operands. -/
def tightOperators : List String :=
  ["<", ">", "<=", ">=", "<<", ">>", ">>>", "+", "-", "*", "/", "%", "**", "instanceof"]

def assignmentOperators : List String :=
  ["=", "*=", "**=", "/=", "%=", "+=", "-=", "<<=", ">>=", ">>>=", "&=", "^=", "|=", "&&=", "||=",
   "??="]

/-- The operators in front of an operand. -/
def prefixOperators : List String := ["+", "-", "~", "!", "delete", "void", "typeof"]

def valueWords : List String := ["this", "null", "true", "false"]

/-! ## Surroundings -/

/-- What holds where a goal is to be met. -/
structure Surroundings where
  /-- Whether `in` is an operator. -/
  allowsIn : Bool
  /-- Whether a function is around. -/
  inFunction : Bool
  /-- Whether that function may wait. -/
  isAsync : Bool
  /-- Whether that function may yield. -/
  isGenerator : Bool

namespace Surroundings

/-- Outside all functions. -/
def outside : Surroundings := ⟨true, false, false, false⟩

/-- Inside a function. -/
def ofFunction (isAsync isGenerator : Bool) : Surroundings := ⟨true, true, isAsync, isGenerator⟩

/-- Inside a block that prepares a class, where waiting has its word but no place. -/
def ofStaticBlock : Surroundings := ⟨true, false, true, false⟩

/-- The same between brackets. -/
def bracketed (around : Surroundings) : Surroundings := { around with allowsIn := true }

/-- The same at the start of a loop. -/
def withoutIn (around : Surroundings) : Surroundings := { around with allowsIn := false }

/-- Inside a function written with an arrow, where its body is one expression. -/
def behindArrow (around : Surroundings) (isAsync : Bool) : Surroundings :=
  { around with isAsync, isGenerator := false }

end Surroundings

/-! ## Goals -/

/-- What the start of a loop was found to be. -/
structure LoopStart where
  /-- Whether the loop waits for each value. -/
  waits : Bool
  /-- Whether its variables are constants. -/
  isConstant : Bool
  /-- Whether all its variables have the values that they need. -/
  isComplete : Bool

/-- Which operators were used in an expression without parentheses. -/
inductive Mixture where
  /-- None. -/
  | unmixed
  /-- Some that go with all others. -/
  | neutral
  | logical
  /-- The one that replaces what is absent, which does not go with the logical ones. -/
  | replacing
  deriving DecidableEq

/-- A part of a script. -/
inductive Goal where
  -- Lexemes
  /-- This punctuation or keyword. -/
  | token (spelling : String)
  /-- A comma, unless this closing token follows. -/
  | comma (closing : String)
  /-- A semicolon, or a place where it may be left out. -/
  | semicolon
  /-- A semicolon or nothing. -/
  | optionalSemicolon
  /-- A string. -/
  | string
  /-- Any word. -/
  | anyWord
  /-- A name. -/
  | name

  -- Statements
  /-- Statements up to a closing brace or the end. -/
  | statements
  | statement
  /-- A statement that is a part of another one. -/
  | substatement
  | block
  /-- `else` and its statement, or nothing. -/
  | elseBranch
  /-- What follows the block of a `try`. -/
  | handlers
  /-- `finally` and its block, or nothing. -/
  | cleanup
  /-- The cases of a switch up to its closing brace. -/
  | cases
  /-- The statements of a case. -/
  | caseStatements

  -- Loops
  /-- What stands between the parentheses of a `for`, with the closing one. -/
  | loopHead (waits : Bool)
  /-- Variables at the start of a loop, and what follows them. -/
  | loopVariables (start : LoopStart)
  /-- The value of a variable, if it has one, and what follows it. -/
  | loopVariable (start : LoopStart) (needsValue : Bool)
  /-- What follows a variable with its value. -/
  | afterLoopVariable (start : LoopStart)
  /-- What follows the first expression of a `for`, which may be a bare `async`. -/
  | afterLoopExpression (waits mayBeAsync : Bool)
  /-- The test of a `for`, and what follows it. -/
  | loopTest
  /-- The step of a `for`, with the closing parenthesis. -/
  | loopStep

  -- Variables and parameters
  /-- Variables with their values. -/
  | variables (needValues : Bool)
  /-- The value of a variable, or nothing unless it is needed. -/
  | variableValue (needsValue : Bool)
  /-- A comma and more variables, or nothing. -/
  | moreVariables (needValues : Bool)
  /-- A name, or a pattern that takes a value apart. -/
  | binding
  /-- The items of a list pattern up to its closing bracket. -/
  | listPattern
  /-- The fields of a record pattern up to its closing brace. -/
  | recordPattern
  /-- Parameters up to the closing parenthesis. -/
  | parameters

  -- Functions and classes
  /-- The parameters and the body of a function. -/
  | functionRest
  /-- The same of a function that gets a property. -/
  | getterRest
  /-- The same of a function that sets a property. -/
  | setterRest
  /-- The body of a function that is written with an arrow. -/
  | arrowBody
  /-- What a class extends, and its members. -/
  | classRest
  /-- Members of a class up to its closing brace. -/
  | members
  | member
  /-- What follows the name of a member. -/
  | memberRest (mayBeField : Bool)
  /-- A decorator from behind its mark. -/
  | decorator
  /-- What is got from a decorator. -/
  | decoratorTail
  /-- A class behind its decorators. -/
  | decorated (isStatement : Bool)

  -- Exchange between scripts
  /-- What is imported, up to the word that announces the source. -/
  | imported
  /-- What is imported behind a first name. -/
  | moreImported
  /-- Names in braces, up to the closing one. -/
  | importedNames
  /-- Another name for an imported one; needed if that is not a name here. -/
  | importAlias (isNeeded : Bool)
  /-- What is exported. -/
  | exported
  /-- What is exported if no name is given. -/
  | exportedDefault
  /-- Names in braces, up to the end; whether one is known only to a source. -/
  | exportedNames (needsSource : Bool)
  /-- Another name for an exported one, or nothing. -/
  | exportAlias
  /-- What is known of a source, and the end. -/
  | sourceRest
  /-- Attributes of a source up to the closing brace. -/
  | attributes

  -- Expressions
  /-- Expressions with commas between them. -/
  | expression
  /-- A comma and more expressions, or nothing. -/
  | moreExpressions
  /-- An assignment, or an expression that it may consist of. -/
  | assignment
  /-- An assignment that may turn out to be a pattern. -/
  | assignmentOrPattern
  /-- What follows the first operand of an assignment. -/
  | afterOperand
  /-- Operators with their operands. -/
  | operators (mixture : Mixture)
  /-- The two branches of a condition, or nothing. -/
  | choice
  /-- An operand with the operators in front of it and behind it, or a test for a
  private name. -/
  | operand (mayTestName : Bool)
  /-- An operator behind its operand, or nothing. -/
  | step
  /-- A value and what is got from it; without calls if it is to be called by `new`. -/
  | access (calls : Bool)
  /-- The call of what `new` calls, and what is got from that. -/
  | constructorCall (calls : Bool)
  /-- What is got from a value, which is absent if what it is got from may be absent. -/
  | accessTail (calls isOptional : Bool)
  /-- Arguments up to the closing parenthesis. -/
  | arguments
  /-- The second argument of an import and the closing parenthesis. -/
  | importOptions
  /-- The name of a property after a point. -/
  | propertyName
  /-- A value. -/
  | value
  /-- Items up to the closing bracket. -/
  | items (enclosure : Enclosure) (items : Items)
  /-- What follows an item. -/
  | afterItem (enclosure : Enclosure) (items : Items) (isSpread : Bool)
  /-- The name of a field. -/
  | fieldName
  /-- The name of a member. -/
  | memberName
  /-- What follows the name of a field; whether the name may be the value too. -/
  | fieldRest (items : Items) (mayBeShort : Bool)
  /-- The rest of a template behind an expression. -/
  | templateRest (tagged : Bool)

  -- What was read
  /-- What was read can be assigned to by any operator. -/
  | isTarget
  /-- What was read is a value. -/
  | isFinished
  /-- What was read makes up this. -/
  | makes (operand : Operand)
  /-- What was read stood in parentheses. -/
  | parenthesised

/-- What was read makes up something of this shape. -/
def Goal.makesShape (shape : Shape) : Goal := .makes (.of shape)

/-! ## Classes of lexemes -/

namespace Lexeme

/-- Whether a lexeme is this punctuation or keyword. -/
def spells (lexeme : Lexeme) (spelling : String) : Bool :=
  lexeme == .mark spelling || lexeme == .word spelling

def isOneOf (lexeme : Lexeme) (spellings : List String) : Bool :=
  spellings.any lexeme.spells

/-- The word that a lexeme is, however it is written. -/
def word? : Lexeme → Option String
  | .word name | .escapedWord name => some name
  | _ => none

def isName (around : Surroundings) (lexeme : Lexeme) : Bool :=
  lexeme.word?.any fun name =>
    !reservedWords.contains name && !(name == "await" && around.isAsync)
      && !(name == "yield" && around.isGenerator)

/-- The name that a lexeme gives to a field or a member. -/
def fieldName? : Lexeme → Option String
  | .string inside => some inside
  | lexeme => lexeme.word?

/-- Whether the name of a field or a member may start with a lexeme. -/
def startsFieldName : Lexeme → Bool
  | .word _ | .escapedWord _ | .string _ | .number | .privateName _ => true
  | .mark spelling => spelling == "["
  | _ => false

/-- Whether a name or a pattern may start with a lexeme. -/
def startsBinding (around : Surroundings) (lexeme : Lexeme) : Bool :=
  lexeme.isName around || lexeme == .mark "[" || lexeme == .mark "\x7b"

end Lexeme

/-- The next lexeme where no operand is due. -/
def lookAhead (s : List Char) : Option Peek := nextLexeme false s

/-- Whether the next lexeme, on the same line, is this one. -/
def continuesWith (s : List Char) (spelling : String) : Bool :=
  (lookAhead s).any fun next => next.lexeme.spells spelling && !next.afterLineEnd

end Mustache.Script
