import Mustache.Script.Grammar.Expression

/-!
Statements.

A statement is known by its first word, or else is an expression. What stands at the
start of a loop is known only from what follows it: values are taken one by one from
what follows `of` or `in`, and variables have their values before a semicolon.
-/
set_option autoImplicit false

namespace Mustache.Script.Recognition

/-! ## Single statements -/

/-- An expression as a statement. -/
def ofPlain (r : Recognition) (around : Surroundings) : Option Recognition :=
  r.become around [.expression, .semicolon] r.rest

/-- A statement that a name starts: behind a label, or an expression. -/
def ofNamed (r : Recognition) (around : Surroundings) (next : Peek) : Option Recognition :=
  match lookAhead next.rest with
  | some after =>
      if next.lexeme.isName around ∧ after.lexeme = .mark ":" then
        r.become around [.substatement] after.rest
      else r.ofPlain around
  | none => r.ofPlain around

/-- A statement that lets go of a loop or goes on with it. -/
def ofJump (r : Recognition) (around : Surroundings) (s : List Char) : Option Recognition := do
  let label ← lookAhead s
  r.become around [.semicolon]
    (if !label.afterLineEnd && label.lexeme.isName around then label.rest else s)

/-- What a function gives back, from behind the word for it. -/
def ofReturn (r : Recognition) (around : Surroundings) (s : List Char) : Option Recognition :=
  let isAlone := (lookAhead s).any fun next =>
    next.afterLineEnd || next.lexeme.isOneOf [";", "\x7d"] || next.lexeme == .finish
  if !around.inFunction then none
  else if isAlone then r.become around [.semicolon] s
  else r.become around [.expression, .semicolon] s

/-- A loop from behind the word `for`. -/
def ofFor (r : Recognition) (around : Surroundings) (s : List Char) : Option Recognition := do
  let next ← lookAhead s
  let waits := around.isAsync && next.lexeme.spells "await"
  r.become around [.token "(", .loopHead waits, .substatement] (if waits then next.rest else s)

/-- A statement that a word starts, wherever it stands. -/
def ofStatementWord (r : Recognition) (around : Surroundings) (next : Peek) :
    Option Recognition :=
  let rest := next.rest
  let become (goals : List Goal) := r.become around goals rest
  match next.lexeme with
  | .word "var" => become [.variables false, .semicolon]
  | .word "function" => r.ofFunction around false true true rest
  | .word "if" => become [.token "(", .expression, .token ")", .substatement, .elseBranch]
  | .word "for" => r.ofFor around rest
  | .word "while" | .word "with" => become [.token "(", .expression, .token ")", .substatement]
  | .word "do" =>
      become [.substatement, .token "while", .token "(", .expression, .token ")",
        .optionalSemicolon]
  | .word "continue" | .word "break" => r.ofJump around rest
  | .word "return" => r.ofReturn around rest
  | .word "switch" => become [.token "(", .expression, .token ")", .token "\x7b", .cases]
  | .word "throw" =>
      if (lookAhead rest).any Peek.afterLineEnd then none else become [.expression, .semicolon]
  | .word "try" => become [.block, .handlers]
  | .word "debugger" => become [.semicolon]
  | _ => r.ofNamed around next

/-! ## Declarations -/

/-- Whether the next lexeme is a name on the same line that something declares. -/
def declaresResource (around : Surroundings) (s : List Char) : Bool :=
  (lookAhead s).any fun next =>
    !next.afterLineEnd && next.lexeme.isName around && !next.lexeme.spells "of"

/-- Whether a lexeme and what follows it declare a resource that is waited for. -/
def declaresAwaitedResource (around : Surroundings) (next : Peek) : Bool :=
  around.isAsync && next.lexeme.spells "await" && (lookAhead next.rest).any fun after =>
    !after.afterLineEnd && after.lexeme.spells "using" && declaresResource around after.rest

/-- Whether variables of a block are declared behind the word for it. -/
def declaresVariables (around : Surroundings) (s : List Char) : Bool :=
  (lookAhead s).any fun next => next.lexeme.startsBinding around

/-- Whether the word that declares variables of a block is a name at the start of a
statement, by what follows it: an operator between values, what is got from a value, or
the end of the statement. -/
def letIsName (s : List Char) : Bool :=
  (lookAhead s).any fun next =>
    next.lexeme.isOneOf (assignmentOperators ++ tightOperators ++ ["in", ".", "(", ";"])
      || next.lexeme.isOneOf looseOperators
        && !next.lexeme.isOneOf ("??" :: logicalOperators)

/-- A statement, or a declaration. -/
def ofStatement (r : Recognition) (around : Surroundings) (next : Peek) : Option Recognition :=
  let become (goals : List Goal) := r.become around goals next.rest
  match next.lexeme with
  | .finish => none
  | .mark "\x7b" => become [.statements, .token "\x7d"]
  | .mark ";" => r.advance next.rest
  | .mark "@" => become [.decorator, .decorated true]
  | .word "const" => become [.variables true, .semicolon]
  | .word "let" =>
      if declaresVariables around next.rest then become [.variables false, .semicolon]
      else if letIsName next.rest then r.ofPlain around
      else none
  | .word "using" =>
      if declaresResource around next.rest then become [.variables true, .semicolon]
      else r.ofNamed around next
  | .word "await" =>
      if declaresAwaitedResource around next then become [.anyWord, .variables true, .semicolon]
      else r.ofNamed around next
  | .word "class" => r.ofClass around true next.rest
  | .word "async" =>
      if continuesWith next.rest "function" then do
        let keyword ← lookAhead next.rest
        r.ofFunction around true true true keyword.rest
      else r.ofNamed around next
  | .word "import" =>
      if (lookAhead next.rest).any fun after => after.lexeme.isOneOf ["(", "."] then
        r.ofPlain around
      else become [.imported]
  | .word "export" => become [.exported]
  | _ => r.ofStatementWord around next

/-- A statement that is a part of another one, and so declares nothing but a plain
function. -/
def ofSubstatement (r : Recognition) (around : Surroundings) (next : Peek) :
    Option Recognition :=
  let declares (spelling : String) : Bool :=
    (lookAhead next.rest).any fun after => after.lexeme.spells spelling
  match next.lexeme with
  | .mark "@" | .word "const" | .word "class" => none
  | .word "let" => if declares "[" then none else r.ofNamed around next
  | .word "async" =>
      if continuesWith next.rest "function" then none else r.ofNamed around next
  | .word "function" => if declares "*" then none else r.ofStatement around next
  | _ => r.ofStatement around next

/-- What is exported if no name is given. -/
def ofExportedDefault (r : Recognition) (around : Surroundings) (next : Peek) :
    Option Recognition :=
  if next.lexeme.spells "function" then r.ofFunction around false true false next.rest
  else if next.lexeme.spells "class" then r.ofClass around false next.rest
  else if next.lexeme.spells "@" then r.become around [.decorator, .decorated false] next.rest
  else if next.lexeme.spells "async" ∧ continuesWith next.rest "function" then do
    let keyword ← lookAhead next.rest
    r.ofFunction around true true false keyword.rest
  else r.become around [.assignment, .semicolon] r.rest

/-! ## Parts of statements -/

/-- Statements up to a closing brace or the end. -/
def ofStatements (r : Recognition) (around : Surroundings) (next : Peek) : Option Recognition :=
  if next.lexeme.spells "\x7d" || next.lexeme == .finish then r.skip
  else r.become around [.statement, .statements] r.rest

/-- A semicolon, or a place where it may be left out. -/
def ofSemicolon (r : Recognition) (next : Peek) : Option Recognition :=
  if next.lexeme.spells ";" then r.advance next.rest
  else r.skipIf (next.afterLineEnd || next.lexeme.spells "\x7d" || next.lexeme == .finish)

/-- The cases of a switch up to its closing brace. -/
def ofCases (r : Recognition) (around : Surroundings) (next : Peek) : Option Recognition :=
  let body := [Goal.token ":", .caseStatements, .cases]
  if next.lexeme.spells "\x7d" then r.advance next.rest
  else if next.lexeme.spells "case" then r.become around (.expression :: body) next.rest
  else if next.lexeme.spells "default" then r.become around body next.rest
  else none

def ofCaseStatements (r : Recognition) (around : Surroundings) (next : Peek) :
    Option Recognition :=
  if next.lexeme.isOneOf ["\x7d", "case", "default"] then r.skip
  else r.become around [.statement, .caseStatements] r.rest

/-- What follows the block of a `try`. -/
def ofHandlers (r : Recognition) (around : Surroundings) (next : Peek) : Option Recognition :=
  if next.lexeme.spells "finally" then r.become around [.block] next.rest
  else if !next.lexeme.spells "catch" then none
  else do
    let after ← lookAhead next.rest
    if after.lexeme.spells "(" then
      r.become around [.binding, .token ")", .block, .cleanup] after.rest
    else r.become around [.block, .cleanup] next.rest

/-! ## Variables -/

/-- Variables with their values. A pattern always needs one. -/
def ofVariables (r : Recognition) (around : Surroundings) (needValues : Bool) (next : Peek) :
    Option Recognition :=
  let isPattern := !next.lexeme.isName around
  r.become around
    [.binding, .variableValue (needValues || isPattern), .moreVariables needValues] r.rest

/-- The value of a variable, or nothing unless it is needed. -/
def ofVariableValue (r : Recognition) (around : Surroundings) (needsValue : Bool)
    (next : Peek) : Option Recognition :=
  if next.lexeme.spells "=" then r.become around [.assignment] next.rest
  else r.skipIf (!needsValue)

/-- A comma and more variables, or nothing. -/
def ofMoreVariables (r : Recognition) (around : Surroundings) (needValues : Bool)
    (next : Peek) : Option Recognition :=
  if next.lexeme.spells "," then r.become around [.variables needValues] next.rest else r.skip

/-! ## Loops -/

/-- What stands between the parentheses of a `for`. -/
def ofLoopHead (r : Recognition) (around : Surroundings) (waits : Bool) (next : Peek) :
    Option Recognition :=
  let declared (isConstant : Bool) (before : List Goal) : Option Recognition :=
    r.become around (before ++ [.loopVariables ⟨waits, isConstant, true⟩]) next.rest
  if next.lexeme.spells ";" then
    if waits then none else r.become around [.loopTest] next.rest
  else if next.lexeme = .word "var" then declared false []
  else if next.lexeme = .word "const" then declared true []
  else if next.lexeme = .word "let" ∧ declaresVariables around next.rest then declared false []
  else if next.lexeme = .word "using" ∧ declaresResource around next.rest then declared true []
  else if declaresAwaitedResource around next then declared true [.anyWord]
  else
    r.replaceBy [(.assignmentOrPattern, around.withoutIn),
      (.afterLoopExpression waits (next.lexeme == .word "async"), around)] r.rest

def ofLoopVariables (r : Recognition) (around : Surroundings) (start : LoopStart)
    (next : Peek) : Option Recognition :=
  let isPattern := !next.lexeme.isName around
  r.become around [.binding, .loopVariable start (start.isConstant || isPattern)] r.rest

/-- The value of a variable at the start of a loop, if it has one. -/
def ofLoopVariable (r : Recognition) (around : Surroundings) (start : LoopStart)
    (needsValue : Bool) (next : Peek) : Option Recognition :=
  if next.lexeme.spells "=" then
    r.replaceBy [(.assignment, around.withoutIn), (.afterLoopVariable start, around)] next.rest
  else
    r.become around
      [.afterLoopVariable { start with isComplete := start.isComplete && !needsValue }] r.rest

/-- What goes through a loop, behind the word that announces it; nothing if there is
no such word. -/
def ofLoopSource? (r : Recognition) (around : Surroundings) (waits : Bool) (next : Peek) :
    Option (Option Recognition) :=
  if next.lexeme.spells "of" then some (r.become around [.assignment, .token ")"] next.rest)
  else if next.lexeme.spells "in" then
    some (if waits then none else r.become around [.expression, .token ")"] next.rest)
  else none

def ofAfterLoopVariable (r : Recognition) (around : Surroundings) (start : LoopStart)
    (next : Peek) : Option Recognition :=
  match r.ofLoopSource? around start.waits next with
  | some result => result
  | none =>
      if next.lexeme.spells "," then r.become around [.loopVariables start] next.rest
      else if next.lexeme.spells ";" ∧ start.isComplete ∧ !start.waits then
        r.become around [.loopTest] next.rest
      else none

/-- What follows the first expression of a `for`. A bare `async` takes no values from
`of`, since it looks like the start of a function. -/
def ofAfterLoopExpression (r : Recognition) (around : Surroundings) (waits mayBeAsync : Bool)
    (next : Peek) : Option Recognition :=
  let isBareAsync := mayBeAsync && r.operand.shape == .name && !waits && next.lexeme.spells "of"
  match r.ofLoopSource? around waits next with
  | some result => if r.operand.shape.takesValues ∧ !isBareAsync then result else none
  | none =>
      if waits ∨ !r.operand.isFinished then none
      else if next.lexeme.spells ";" then r.become around [.loopTest] next.rest
      else if next.lexeme.spells "," then
        r.replaceBy [(.expression, around.withoutIn), (.token ";", around), (.loopTest, around)]
          next.rest
      else none

/-- The test of a `for`, and what follows it. -/
def ofLoopTest (r : Recognition) (around : Surroundings) (next : Peek) : Option Recognition :=
  if next.lexeme.spells ";" then r.become around [.loopStep] next.rest
  else r.become around [.expression, .token ";", .loopStep] r.rest

/-- The step of a `for`, with the closing parenthesis. -/
def ofLoopStep (r : Recognition) (around : Surroundings) (next : Peek) : Option Recognition :=
  if next.lexeme.spells ")" then r.advance next.rest
  else r.become around [.expression, .token ")"] r.rest

end Mustache.Script.Recognition
