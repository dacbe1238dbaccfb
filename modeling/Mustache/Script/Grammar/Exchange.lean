import Mustache.Script.Recognition

/-!
What scripts take from each other.

An import names what it takes and the source that it takes it from; an export names
what it gives away, and may pass on what it takes from a source. Names that are words
of the language can only be passed on.
-/
set_option autoImplicit false

namespace Mustache.Script.Recognition

/-! ## Importing -/

/-- What stands behind the names that are imported. -/
def sourceGoals : List Goal := [.token "from", .string, .sourceRest]

/-- What is imported, from behind the word that announces it. A word for the way of
importing may stand in front. -/
def ofImported (r : Recognition) (around : Surroundings) (next : Peek) : Option Recognition := do
  let after ← lookAhead next.rest
  match next.lexeme with
  | .string _ => r.become around [.sourceRest] next.rest
  | .mark spelling =>
      if spelling = "*" then
        r.become around ([.token "as", .name] ++ sourceGoals) next.rest
      else if spelling = "\x7b" then
        r.become around (.importedNames :: sourceGoals) next.rest
      else none
  | _ =>
      let isPhase := next.lexeme == .word "source" && after.lexeme.isName around
        && (after.lexeme != .word "from" || continuesWith after.rest "from")
      if isPhase then r.become around (.name :: sourceGoals) next.rest
      else if next.lexeme = .word "defer" ∧ after.lexeme = .mark "*" then
        r.become around ([.token "as", .name] ++ sourceGoals) after.rest
      else r.become around (.name :: .moreImported :: sourceGoals) r.rest

/-- What is imported behind a first name. -/
def ofMoreImported (r : Recognition) (around : Surroundings) (next : Peek) :
    Option Recognition := do
  if !next.lexeme.spells "," then r.skip
  else do
    let after ← lookAhead next.rest
    if after.lexeme.spells "*" then r.become around [.token "as", .name] after.rest
    else r.become around [.token "\x7b", .importedNames] next.rest

/-- Imported names, up to the closing brace. -/
def ofImportedNames (r : Recognition) (around : Surroundings) (next : Peek) :
    Option Recognition :=
  let more (isNeeded : Bool) : Option Recognition :=
    r.become around [.importAlias isNeeded, .comma "\x7d", .importedNames] next.rest
  match next.lexeme with
  | .string _ => more true
  | .mark spelling => if spelling = "\x7d" then r.advance next.rest else none
  | .word _ | .escapedWord _ => more (!next.lexeme.isName around)
  | _ => none

/-- Another name for an imported one. -/
def ofImportAlias (r : Recognition) (around : Surroundings) (isNeeded : Bool) (next : Peek) :
    Option Recognition :=
  if next.lexeme.spells "as" then r.become around [.name] next.rest else r.skipIf (!isNeeded)

/-! ## Exporting -/

/-- What is exported, from behind the word that announces it. -/
def ofExported (r : Recognition) (around : Surroundings) (next : Peek) : Option Recognition :=
  if next.lexeme.spells "*" then
    r.become around (.exportAlias :: sourceGoals) next.rest
  else if next.lexeme.spells "\x7b" then r.become around [.exportedNames false] next.rest
  else if next.lexeme.spells "default" then r.become around [.exportedDefault] next.rest
  else if next.lexeme.isOneOf ["var", "const", "let", "function", "async", "class", "@"] then
    r.become around [.statement] r.rest
  else none

/-- Exported names, up to the end. If one of them is no name here, a source has to
follow. -/
def ofExportedNames (r : Recognition) (around : Surroundings) (needsSource : Bool)
    (next : Peek) : Option Recognition :=
  let more (needsSource : Bool) : Option Recognition :=
    r.become around [.exportAlias, .comma "\x7d", .exportedNames needsSource] next.rest
  match next.lexeme with
  | .string _ => more true
  | .mark spelling =>
      if spelling ≠ "\x7d" then none
      else if needsSource ∨ (lookAhead next.rest).any fun after => after.lexeme.spells "from" then
        r.become around sourceGoals next.rest
      else r.become around [.semicolon] next.rest
  | .word _ | .escapedWord _ => more (needsSource || !next.lexeme.isName around)
  | _ => none

/-- Another name for an exported one, or nothing. -/
def ofExportAlias (r : Recognition) (next : Peek) : Option Recognition := do
  if !next.lexeme.spells "as" then r.skip
  else do
    let another ← lookAhead next.rest
    r.takeIf (another.lexeme.fieldName?.isSome) another

/-! ## Sources -/

/-- What is known of a source, and the end. -/
def ofSourceRest (r : Recognition) (around : Surroundings) (next : Peek) : Option Recognition :=
  let isOld := next.lexeme.spells "assert" && !next.afterLineEnd
  if next.lexeme.spells "with" ∨ isOld then
    r.become around [.token "\x7b", .attributes, .semicolon] next.rest
  else r.become around [.semicolon] r.rest

/-- Attributes of a source up to the closing brace. -/
def ofAttributes (r : Recognition) (around : Surroundings) (next : Peek) : Option Recognition :=
  if next.lexeme.spells "\x7d" then r.advance next.rest
  else if next.lexeme.fieldName?.isSome then
    r.become around [.token ":", .string, .comma "\x7d", .attributes] next.rest
  else none

end Mustache.Script.Recognition
