import Mustache.Template.Error
import Mustache.Template.Node
import Mustache.Template.Scan

/-!
Building a template tree from text and tags in source order.

The builder holds the list that is being filled and, for each open block, the
list that the block will be put into once it is closed. A close tag closes the
innermost open block, whatever name it bears. A template is complete when no
block is open.
-/
set_option autoImplicit false

namespace Mustache

/-- A partly built tree (`Dispatcher`). Lists under construction hold their latest node first. -/
structure Builder where
  /-- The body of the innermost open block, or the root list. -/
  body : List Node
  /-- For each open block, the innermost first: the block, and the list around
  it. -/
  enclosing : List (Scope × List Node)

namespace Builder

def empty : Builder := ⟨[], []⟩

/-- The open blocks, the innermost first. -/
def scopes (b : Builder) : ScopeStack :=
  b.enclosing.map Prod.fst

/-- The lists under construction, the innermost first. -/
def bodies (b : Builder) : List (List Node) :=
  b.body :: b.enclosing.map Prod.snd

/-- The number of open blocks. -/
def depth (b : Builder) : Nat :=
  b.scopes.depth

/-- Adds a node to the innermost list (`node`). -/
def addNode (b : Builder) (node : Node) : Builder :=
  { b with body := node :: b.body }

/-- Adds text to the innermost list (`literal`); empty text adds nothing. -/
def addLiteral (b : Builder) (text : List Char) : Builder :=
  if text.isEmpty then b else b.addNode (.text (String.ofList text))

def openBlock (b : Builder) (kind : BlockKind) (expression : String) (location : Location) :
    Builder :=
  ⟨[], (⟨b.depth + 1, kind, expression, location⟩, b.body) :: b.enclosing⟩

/-- Closes the innermost open block, if there is one. -/
def closeBlock? (b : Builder) : Option Builder :=
  match b.enclosing with
  | [] => none
  | (scope, outer) :: rest =>
      some ⟨.block scope.kind scope.expression b.body.reverse scope.location :: outer, rest⟩

/-- Acts on a tag that stands at `location` and names `expression`. -/
def act (file : String) (sigil : Sigil) (expression : String) (location : Location)
    (b : Builder) : Except TemplateError Builder :=
  match sigil with
  | .blockOpen => .ok (b.openBlock .normal expression location)
  | .invertedOpen => .ok (b.openBlock .inverted expression location)
  | .blockClose =>
      match b.closeBlock? with
      | some closed => .ok closed
      | none => .error (.unexpectedClose expression file location)
  | .inclusion => .ok (b.addNode (.inclusion expression location))
  | .comment => .ok b
  | .raw => .ok (b.addNode (.interpolation expression false location))
  | .plain => .ok (b.addNode (.interpolation expression true location))

/-- Acts on a tag of `source` (`tag`). -/
def addTag (source : List Char) (file : String) (b : Builder) (tag : Tag) :
    Except TemplateError Builder :=
  b.act file tag.sigil (String.ofList tag.expression) (tag.location source)

/-- Takes the next piece of `source`. -/
def addSegment (source : List Char) (file : String) (b : Builder) :
    Segment → Except TemplateError Builder
  | .literal text => .ok (b.addLiteral text)
  | .tag tag => b.addTag source file tag

/-- Takes pieces of `source` in order, up to the first error. -/
def addSegments (source : List Char) (file : String) (b : Builder) (segments : List Segment) :
    Except TemplateError Builder :=
  segments.foldlM (addSegment source file) b

/-- The finished tree; a block that is still open is an error. -/
def finish (file : String) (b : Builder) : Except TemplateError (List Node) :=
  if b.enclosing.isEmpty then .ok b.body.reverse else .error (.missingEnd file)

end Builder

/-- Reads a flat template (`dispatch`): every character outside the tags is copied. -/
def readFlat (source : List Char) (file : String) : Except TemplateError (List Node) := do
  (← Builder.empty.addSegments source file (scan source)).finish file

end Mustache
