import Mustache.Script.Grammar.Function

/-!
Expressions.

An assignment starts with an operand, with parentheses that may turn out to be those
of parameters, or with a word that makes it something else. What follows the operand
decides whether it takes a value, and only then is it known what it was.
-/
set_option autoImplicit false

namespace Mustache.Script.Recognition

/-! ## Values -/

/-- A value that a word starts. -/
def ofValueWord (r : Recognition) (around : Surroundings) (next : Peek) : Option Recognition :=
  if next.lexeme.isOneOf valueWords then r.reads .value next.rest
  else if next.lexeme.spells "function" then r.ofFunction around false false false next.rest
  else if next.lexeme.spells "class" then r.ofClass around false next.rest
  else if next.lexeme.spells "async" ∧ continuesWith next.rest "function" then do
    let keyword ← lookAhead next.rest
    r.ofFunction around true false false keyword.rest
  else if next.lexeme.isName around then r.reads .name next.rest
  else none

/-- A value, and what it is made of. -/
def ofValue (r : Recognition) (around : Surroundings) (next : Peek) : Option Recognition :=
  match next.lexeme with
  | .number | .string _ | .pattern | .template false => r.reads .value next.rest
  | .template true =>
      r.become around.bracketed [.expression, .templateRest false, .makesShape .value] next.rest
  | .mark spelling =>
      if spelling = "(" then
        r.become around.bracketed [.expression, .token ")", .parenthesised] next.rest
      else if spelling = "[" then r.become around [.items .list .empty] next.rest
      else if spelling = "\x7b" then r.become around [.items .record .empty] next.rest
      else if spelling = "@" then r.become around [.decorator, .decorated false] next.rest
      else none
  | .word _ | .escapedWord _ => r.ofValueWord around next
  | .privateName _ | .finish => none

/-- The rest of a template behind an expression. -/
def ofTemplateRest (r : Recognition) (around : Surroundings) (tagged : Bool) (next : Peek) :
    Option Recognition := do
  if !next.lexeme.spells "\x7d" then none
  else
    match ← readTemplate? tagged next.rest with
    | (true, rest) => r.become around [.expression, .templateRest tagged] rest
    | (false, rest) => r.advance rest

/-! ## What is got from values -/

/-- What is behind the word that imports. -/
def ofImport (r : Recognition) (around : Surroundings) (calls : Bool) (s : List Char) :
    Option Recognition := do
  let tail := [(Goal.makesShape .value, around), (.accessTail calls false, around)]
  let source := [(Goal.assignment, around.bracketed), (.importOptions, around.bracketed)]
  let next ← lookAhead s
  if next.lexeme = .mark "(" ∧ calls then r.replaceBy (source ++ tail) next.rest
  else if next.lexeme = .mark "." then do
    let word ← lookAhead next.rest
    if word.lexeme = .word "meta" then r.replaceBy tail word.rest
    else if calls ∧ word.lexeme.isOneOf ["source", "defer"] then
      r.replaceBy ((.token "(", around) :: source ++ tail) word.rest
    else none
  else none

/-- The second argument of an import and the closing parenthesis. -/
def ofImportOptions (r : Recognition) (around : Surroundings) (next : Peek) :
    Option Recognition :=
  if next.lexeme.spells ")" then r.advance next.rest
  else if next.lexeme.spells "," then
    if (lookAhead next.rest).any fun after => after.lexeme.spells ")" then
      r.become around [.token ")"] next.rest
    else r.become around [.assignment, .comma ")", .token ")"] next.rest
  else none

/-- A value and what is got from it. -/
def ofAccess (r : Recognition) (around : Surroundings) (calls : Bool) (next : Peek) :
    Option Recognition :=
  if next.lexeme.spells "new" then do
    let after ← lookAhead next.rest
    if after.lexeme = .mark "." then do
      let word ← lookAhead after.rest
      if word.lexeme = .word "target" then
        r.become around [.makesShape .value, .accessTail calls false] word.rest
      else none
    else r.become around [.access false, .constructorCall calls] next.rest
  else if next.lexeme.spells "super" then do
    let after ← lookAhead next.rest
    if after.lexeme.isOneOf [".", "["] ∨ (calls ∧ after.lexeme = .mark "(") then
      r.become around [.makesShape .value, .accessTail calls false] next.rest
    else none
  else if next.lexeme.spells "import" then r.ofImport around calls next.rest
  else r.become around [.value, .accessTail calls false] r.rest

/-- The call of what `new` calls, and what is got from that. -/
def ofConstructorCall (r : Recognition) (around : Surroundings) (calls : Bool) (next : Peek) :
    Option Recognition :=
  if next.lexeme.spells "(" then
    r.replaceBy [(.arguments, around.bracketed), (.makesShape .value, around),
      (.accessTail calls false, around)] next.rest
  else r.become around [.isFinished, .makesShape .value] r.rest

/-- What is got from a value. What is got from something that may be absent is a value
only. -/
def ofAccessTail (r : Recognition) (around : Surroundings) (calls isOptional : Bool)
    (next : Peek) : Option Recognition :=
  let got (isOptional : Bool) (inside : List Goal) (shape : Shape) (rest : List Char) :
      Option Recognition :=
    if r.operand.isFinished then
      r.replaceBy (inside.map (·, around.bracketed) ++ [(.makesShape shape, around),
        (.accessTail calls isOptional, around)]) rest
    else none
  let property (isOptional : Bool) : Shape := if isOptional then .value else .property
  match next.lexeme with
  | .mark spelling =>
      if spelling = "." then got isOptional [.propertyName] (property isOptional) next.rest
      else if spelling = "[" then
        got isOptional [.expression, .token "]"] (property isOptional) next.rest
      else if spelling = "(" ∧ calls then got isOptional [.arguments] .value next.rest
      else if spelling = "?." ∧ calls then do
        let after ← lookAhead next.rest
        if after.lexeme = .mark "(" then got true [.arguments] .value after.rest
        else if after.lexeme = .mark "[" then got true [.expression, .token "]"] .value after.rest
        else got true [.propertyName] .value next.rest
      else r.skip
  | .template follows =>
      if isOptional then none
      else got false (if follows then [.expression, .templateRest true] else []) .value next.rest
  | _ => r.skip

/-- Arguments up to the closing parenthesis. -/
def ofArguments (r : Recognition) (around : Surroundings) (next : Peek) : Option Recognition :=
  if next.lexeme.spells ")" then r.advance next.rest
  else
    r.become around [.assignment, .comma ")", .arguments]
      (if next.lexeme.spells "..." then next.rest else r.rest)

/-- The name of a property after a point. -/
def ofPropertyName (r : Recognition) (next : Peek) : Option Recognition :=
  match next.lexeme with
  | .word _ | .escapedWord _ | .privateName _ => r.advance next.rest
  | _ => none

/-! ## Operators -/

def ofOperand (r : Recognition) (around : Surroundings) (mayTestName : Bool) (next : Peek) :
    Option Recognition :=
  let waits := around.isAsync && next.lexeme.spells "await"
  if waits || next.lexeme.isOneOf prefixOperators then
    r.become around [.operand false, .isFinished, .makesShape .prefixed] next.rest
  else if next.lexeme.isOneOf ["++", "--"] then
    r.become around [.operand false, .isTarget, .makesShape .value] next.rest
  else
    match next.lexeme with
    | .privateName _ => do
        let after ← lookAhead next.rest
        if mayTestName ∧ around.allowsIn ∧ after.lexeme = .word "in" then
          r.become around [.operand false, .isFinished, .makesShape .value] after.rest
        else none
    | _ => r.become around [.access true, .step] r.rest

/-- An operator behind its operand, or nothing. -/
def ofStep (r : Recognition) (next : Peek) : Option Recognition :=
  if next.lexeme.isOneOf ["++", "--"] ∧ !next.afterLineEnd then
    if r.operand.shape.isTarget then r.reads .value next.rest else none
  else r.skip

/-- The operators that were used, with one more; nothing if they do not go together. -/
def Mixture.add? (mixture : Mixture) (operator : String) : Option Mixture :=
  if operator = "??" then if mixture = .logical then none else some .replacing
  else if logicalOperators.contains operator then
    if mixture = .replacing then none else some .logical
  else some (if mixture = .unmixed then .neutral else mixture)

/-- Operators with their operands. An operator in front of an operand may not stand
before a power. -/
def ofOperators (r : Recognition) (around : Surroundings) (mixture : Mixture) (next : Peek) :
    Option Recognition :=
  let isLoose := next.lexeme.isOneOf looseOperators
  let operators := looseOperators ++ tightOperators ++ if around.allowsIn then ["in"] else []
  match operators.find? next.lexeme.spells with
  | none => if mixture = .unmixed then r.skip else r.reads .value r.rest
  | some operator => do
      let mixture ← Mixture.add? mixture operator
      if !r.operand.isFinished ∨ (operator = "**" ∧ r.operand.shape = .prefixed) then none
      else r.become around [.operand isLoose, .isFinished, .operators mixture] next.rest

/-- The two branches of a condition, or nothing. -/
def ofChoice (r : Recognition) (around : Surroundings) (next : Peek) : Option Recognition :=
  if !next.lexeme.spells "?" then r.skip
  else if !r.operand.isFinished then none
  else
    r.replaceBy [(.assignment, around.bracketed), (.token ":", around), (.assignment, around),
      (.makesShape .value, around)] next.rest

/-! ## Assignments -/

/-- What follows the first operand of an assignment. -/
def ofAfterOperand (r : Recognition) (around : Surroundings) (next : Peek) :
    Option Recognition :=
  let shape := r.operand.shape
  if next.lexeme.spells "=" then
    if shape.takesValues then
      r.become around [.assignment, .makesShape (.assigned shape.binds)] next.rest
    else none
  else if next.lexeme.isOneOf assignmentOperators then
    if shape.isTarget then r.become around [.assignment, .makesShape .value] next.rest else none
  else r.become around [.operators .unmixed, .choice] r.rest

/-- What follows an arrow on the same line. -/
def behindArrow? (s : List Char) : Option (List Char) := do
  let next ← lookAhead s
  if next.lexeme = .mark "=>" ∧ !next.afterLineEnd then some next.rest else none

/-- A function written with an arrow, from behind it. -/
def ofArrow (r : Recognition) (around : Surroundings) (isAsync : Bool) (s : List Char) :
    Option Recognition :=
  r.replaceBy [(.arrowBody, around.behindArrow isAsync), (.makesShape .value, around)] s

/-- What follows the word that yields. -/
def ofYield (r : Recognition) (around : Surroundings) (s : List Char) : Option Recognition := do
  let after ← lookAhead s
  let isAlone := after.afterLineEnd || after.lexeme == .finish
    || after.lexeme.isOneOf [")", "]", "\x7d", ",", ";", ":", "in", "of"]
  if isAlone then r.reads .value s
  else
    r.become around [.assignment, .makesShape .value]
      (if after.lexeme = .mark "*" then after.rest else s)

/-- A function written with an arrow that a name starts: its only parameter, or the
word that makes it wait. -/
def ofNamedArrow? (r : Recognition) (around : Surroundings) (next : Peek) :
    Option (Option Recognition) :=
  match behindArrow? next.rest, lookAhead next.rest with
  | some body, _ => some (r.ofArrow around false body)
  | none, some after =>
      if next.lexeme ≠ .word "async" ∨ after.afterLineEnd then none
      else if after.lexeme = .mark "(" then
        some (r.become around [.items .call .empty] after.rest)
      else if after.lexeme.isName { around with isAsync := true } then
        (behindArrow? after.rest).map (r.ofArrow around true)
      else none
  | none, none => none

/-- An assignment, or what may turn out to be one. -/
def ofAssignment (r : Recognition) (around : Surroundings) (next : Peek) : Option Recognition :=
  let plain := r.become around [.operand true, .afterOperand] r.rest
  if around.isGenerator ∧ next.lexeme.spells "yield" then r.ofYield around next.rest
  else if next.lexeme.spells "(" then r.become around [.items .group .empty] next.rest
  else if next.lexeme.isName around then (r.ofNamedArrow? around next).getD plain
  else plain

/-! ## Items between brackets -/

/-- What the items of an enclosure make up, from behind its closing bracket. In
parentheses they are parameters if an arrow follows. -/
def ofClosed (r : Recognition) (around : Surroundings) (enclosure : Enclosure) (items : Items)
    (rest : List Char) : Option Recognition :=
  let proceed (operand : Operand) : Option Recognition :=
    { r with operand }.become around [.accessTail true false, .step, .afterOperand] rest
  match enclosure, behindArrow? rest with
  | .list, _ | .record, _ => some { r with operand := items.literal, rest }
  | .group, none => items.group?.bind proceed
  | .call, none => if items.areFinished then proceed (.of .value) else none
  | _, some body => if items.bind then r.ofArrow around (enclosure == .call) body else none

def ofField (r : Recognition) (around : Surroundings) (items : Items) (next : Peek) :
    Option Recognition := do
  match ← readModifiers? r.rest with
  | (some method, s) =>
      r.replaceBy [(.fieldName, around), method, (.makesShape .value, around),
        (.afterItem .record items false, around)] s
  | (none, s) => r.become around [.fieldName, .fieldRest items (next.lexeme.isName around)] s

/-- What follows the name of a field. -/
def ofFieldRest (r : Recognition) (around : Surroundings) (items : Items) (mayBeShort : Bool)
    (next : Peek) : Option Recognition :=
  let behind := (Goal.afterItem .record items false, around)
  if next.lexeme.spells "(" then
    r.replaceBy [(.functionRest, .ofFunction false false), (.makesShape .value, around), behind]
      r.rest
  else if next.lexeme.spells ":" then
    r.replaceBy [(.assignmentOrPattern, around.bracketed), behind] next.rest
  else if !mayBeShort then none
  else if next.lexeme.spells "=" then
    r.replaceBy [(.assignment, around.bracketed), (.makes ⟨.assigned true, false⟩, around), behind]
      next.rest
  else r.replaceBy [(.makesShape .name, around), behind] r.rest

/-- Items up to the closing bracket. A list may leave items out. -/
def ofItems (r : Recognition) (around : Surroundings) (enclosure : Enclosure) (items : Items)
    (next : Peek) : Option Recognition :=
  let item (isSpread : Bool) (rest : List Char) : Option Recognition :=
    r.replaceBy [(.assignmentOrPattern, around.bracketed),
      (.afterItem enclosure items isSpread, around)] rest
  if next.lexeme.spells enclosure.closing then r.ofClosed around enclosure items next.rest
  else if enclosure = .list ∧ next.lexeme.spells "," then
    r.become around [.items enclosure items.comma] next.rest
  else if next.lexeme.spells "..." then item true next.rest
  else if enclosure = .record then r.ofField around items next
  else item false r.rest

/-- What follows an item. -/
def ofAfterItem (r : Recognition) (around : Surroundings) (enclosure : Enclosure) (items : Items)
    (isSpread : Bool) (next : Peek) : Option Recognition :=
  let items := items.add enclosure r.operand isSpread
  if next.lexeme.spells "," then r.become around [.items enclosure items.comma] next.rest
  else if next.lexeme.spells enclosure.closing then
    r.become around [.items enclosure items] r.rest
  else none

end Mustache.Script.Recognition
