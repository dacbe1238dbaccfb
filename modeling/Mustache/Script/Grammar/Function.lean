import Mustache.Script.Recognition

/-!
Functions, classes and patterns.

A function is met by its parameters and its body, in the surroundings that it makes.
A class is met by its members, of which some have names that they may not have.
-/
set_option autoImplicit false

namespace Mustache.Script.Recognition

/-! ## Functions -/

/-- A function from behind its keyword. A declared one has its name outside of
itself. -/
def ofFunction (r : Recognition) (around : Surroundings) (isAsync isDeclared needsName : Bool)
    (s : List Char) : Option Recognition := do
  let star ← lookAhead s
  let isGenerator := star.lexeme == .mark "*"
  let s := if isGenerator then star.rest else s
  let inside := Surroundings.ofFunction isAsync isGenerator
  let body := [(Goal.functionRest, inside), (.makesShape .value, around)]
  let name ← lookAhead s
  if name.lexeme.isName (if isDeclared then around else inside) then r.replaceBy body name.rest
  else if needsName then none
  else r.replaceBy body s

/-- The parameters and the body of a function. -/
def ofFunctionRest (r : Recognition) (around : Surroundings) : Option Recognition :=
  r.become around [.token "(", .parameters, .block] r.rest

/-- The rest of a function that gets a property, which has no parameters. -/
def ofGetterRest (r : Recognition) (around : Surroundings) : Option Recognition :=
  r.become around [.token "(", .token ")", .block] r.rest

/-- The rest of a function that sets a property, which has one parameter. -/
def ofSetterRest (r : Recognition) (around : Surroundings) : Option Recognition :=
  r.become around
    [.token "(", .binding, .variableValue false, .comma ")", .token ")", .block] r.rest

/-- Parameters up to the closing parenthesis. -/
def ofParameters (r : Recognition) (around : Surroundings) (next : Peek) : Option Recognition :=
  if next.lexeme.spells ")" then r.advance next.rest
  else if next.lexeme.spells "..." then r.become around [.binding, .token ")"] next.rest
  else r.become around [.binding, .variableValue false, .comma ")", .parameters] r.rest

/-- The body of a function that is written with an arrow. -/
def ofArrowBody (r : Recognition) (around : Surroundings) (next : Peek) : Option Recognition :=
  if next.lexeme.spells "\x7b" then
    r.become (.ofFunction around.isAsync false) [.statements, .token "\x7d"] next.rest
  else r.become around [.assignment] r.rest

/-! ## Methods -/

/-- What is written in front of the name of a method: the goal for what stands behind
the name, in its surroundings, and what follows; no goal if nothing is written. -/
def readModifiers? (s : List Char) : Option (Option (Goal × Surroundings) × List Char) := do
  let next ← lookAhead s
  let isNamed := (lookAhead next.rest).any fun after => after.lexeme.startsFieldName
  let plain := Surroundings.ofFunction false false
  if next.lexeme = .mark "*" then some (some (.functionRest, .ofFunction false true), next.rest)
  else if next.lexeme = .word "get" ∧ isNamed then some (some (.getterRest, plain), next.rest)
  else if next.lexeme = .word "set" ∧ isNamed then some (some (.setterRest, plain), next.rest)
  else if next.lexeme ≠ .word "async" then some (none, s)
  else do
    let after ← lookAhead next.rest
    if after.afterLineEnd then some (none, s)
    else if after.lexeme = .mark "*" then
      some (some (.functionRest, .ofFunction true true), after.rest)
    else if isNamed then some (some (.functionRest, .ofFunction true false), next.rest)
    else some (none, s)

/-! ## Classes -/

/-- A class from behind its keyword. -/
def ofClass (r : Recognition) (around : Surroundings) (needsName : Bool) (s : List Char) :
    Option Recognition := do
  let rest := [Goal.classRest, .makesShape .value]
  let name ← lookAhead s
  if name.lexeme.isName around then r.become around rest name.rest
  else if needsName then none
  else r.become around rest s

/-- What a class extends, and its members. -/
def ofClassRest (r : Recognition) (around : Surroundings) (next : Peek) : Option Recognition :=
  if next.lexeme.spells "extends" then
    r.become around [.access true, .isFinished, .token "\x7b", .members] next.rest
  else r.become around [.token "\x7b", .members] r.rest

/-- Members of a class up to its closing brace. -/
def ofMembers (r : Recognition) (around : Surroundings) (next : Peek) : Option Recognition :=
  if next.lexeme = .mark "\x7d" then r.advance next.rest
  else if next.lexeme = .mark ";" then r.become around [.members] next.rest
  else r.become around [.member, .members] r.rest

/-- Whether a member may have the name that a lexeme gives it. What constructs the
objects of a class is a plain method, and the prototype is not the class's to choose. -/
def mayBeNamed (isStatic isPlain : Bool) : Lexeme → Bool
  | .privateName name => name != "constructor"
  | lexeme =>
      if isStatic then lexeme.fieldName? != some "prototype"
      else isPlain || lexeme.fieldName? != some "constructor"

/-- A member of a class from behind the word that gives it to the class itself. -/
def ofNamedMember (r : Recognition) (around : Surroundings) (isStatic : Bool) (s : List Char) :
    Option Recognition := do
  let (modifiers?, behind) ← readModifiers? s
  let name ← lookAhead behind
  let after? := lookAhead name.rest
  let isAccessor := name.lexeme = .word "accessor"
    ∧ after?.any fun after => after.lexeme.startsFieldName && !after.afterLineEnd
  let mayBeField := name.lexeme.fieldName? ≠ some "constructor"
  if !mayBeNamed isStatic modifiers?.isNone name.lexeme then none
  else
    match modifiers? with
    | some method => r.replaceBy [(.memberName, around), method] behind
    | none =>
        if isAccessor then
          r.replaceBy [(.memberName, around), (.variableValue false, .ofFunction false false),
            (.semicolon, around)] name.rest
        else r.become around [.memberName, .memberRest mayBeField] behind

/-- A member of a class. -/
def ofMember (r : Recognition) (around : Surroundings) (next : Peek) : Option Recognition :=
  if next.lexeme = .mark "@" then r.become around [.decorator, .member] next.rest
  else
    match next.lexeme, lookAhead next.rest with
    | .word "static", some after =>
        if after.lexeme = .mark "\x7b" then r.become .ofStaticBlock [.block] next.rest
        else if after.lexeme.startsFieldName ∨ after.lexeme = .mark "*" then
          r.ofNamedMember around true next.rest
        else r.ofNamedMember around false r.rest
    | _, _ => r.ofNamedMember around false r.rest

/-- What follows the name of a member. The value of a field is found by a function of
its own. -/
def ofMemberRest (r : Recognition) (around : Surroundings) (mayBeField : Bool) (next : Peek) :
    Option Recognition :=
  if next.lexeme.spells "(" then r.become (.ofFunction false false) [.functionRest] r.rest
  else if mayBeField then
    r.replaceBy [(.variableValue false, .ofFunction false false), (.semicolon, around)] r.rest
  else none

/-- The name of a field or a member. -/
def ofFieldName (r : Recognition) (around : Surroundings) (mayBePrivate : Bool) (next : Peek) :
    Option Recognition :=
  match next.lexeme with
  | .word _ | .escapedWord _ | .string _ | .number => r.advance next.rest
  | .privateName _ => r.takeIf mayBePrivate next
  | .mark spelling =>
      if spelling = "[" then r.become around.bracketed [.assignment, .token "]"] next.rest
      else none
  | _ => none

/-! ## Decorators -/

/-- A decorator from behind its mark. -/
def ofDecorator (r : Recognition) (around : Surroundings) (next : Peek) : Option Recognition :=
  if next.lexeme.spells "(" then
    r.become around.bracketed [.expression, .token ")", .decoratorTail] next.rest
  else if next.lexeme.isName around then r.become around [.decoratorTail] next.rest
  else none

/-- What is got from a decorator. -/
def ofDecoratorTail (r : Recognition) (around : Surroundings) (next : Peek) :
    Option Recognition :=
  if next.lexeme.spells "." then r.become around [.propertyName, .decoratorTail] next.rest
  else if next.lexeme.spells "(" then
    r.become around.bracketed [.arguments, .decoratorTail] next.rest
  else r.skip

/-- A class behind its decorators. -/
def ofDecorated (r : Recognition) (around : Surroundings) (isStatement : Bool) (next : Peek) :
    Option Recognition :=
  if next.lexeme.spells "@" then
    r.become around [.decorator, .decorated isStatement] next.rest
  else if next.lexeme.spells "class" then r.ofClass around isStatement next.rest
  else if isStatement ∧ next.lexeme.spells "export" then r.become around [.exported] next.rest
  else none

/-! ## Patterns -/

/-- A name, or a pattern. -/
def ofBinding (r : Recognition) (around : Surroundings) (next : Peek) : Option Recognition :=
  if next.lexeme.isName around then r.advance next.rest
  else if next.lexeme = .mark "[" then r.become around.bracketed [.listPattern] next.rest
  else if next.lexeme = .mark "\x7b" then r.become around.bracketed [.recordPattern] next.rest
  else none

/-- The items of a list pattern up to its closing bracket. -/
def ofListPattern (r : Recognition) (around : Surroundings) (next : Peek) : Option Recognition :=
  if next.lexeme.spells "]" then r.advance next.rest
  else if next.lexeme.spells "," then r.become around [.listPattern] next.rest
  else if next.lexeme.spells "..." then r.become around [.binding, .token "]"] next.rest
  else r.become around [.binding, .variableValue false, .comma "]", .listPattern] r.rest

/-- The fields of a record pattern up to its closing brace. -/
def ofRecordPattern (r : Recognition) (around : Surroundings) (next : Peek) :
    Option Recognition :=
  let isShort := next.lexeme.isName around
    && (lookAhead next.rest).any fun after => !after.lexeme.spells ":"
  let more := [Goal.variableValue false, .comma "\x7d", .recordPattern]
  if next.lexeme.spells "\x7d" then r.advance next.rest
  else if next.lexeme.spells "..." then r.become around [.name, .token "\x7d"] next.rest
  else if isShort then r.become around more next.rest
  else r.become around (.fieldName :: .token ":" :: .binding :: more) r.rest

end Mustache.Script.Recognition
