import Mustache.Readers
import Mustache.Template.Builder
import Mustache.Template.Placeholder
import Mustache.Text.Lowercase

/-!
Reading structural templates.

A structural template is a document. Its tags are hidden behind placeholders while
the document is read; then the document tree is walked, and the text of each
element, and each attribute value that holds a placeholder, is taken apart into
text and tags again. A block has to open and close inside one element or one
value, since each is built on its own. Text that may not stand in a table would be
moved out of it, and its tags with it, so it is an error.
-/
set_option autoImplicit false

namespace Mustache

open Markup Text

/-! ## Names in drawings -/

/-- The lowercase form of a character, if that is an ASCII letter; the Kelvin sign
is the one such character outside ASCII. -/
def foldLetter (c : Char) : Char :=
  if c = '\u212A' then 'k' else c.toLower

/-- A name with its letters in lower case. -/
def foldName (name : String) : String :=
  String.ofList (name.toList.map foldLetter)

/-- The elements of drawings, in lower case. -/
def drawingElements : List String :=
  ["svg", "path", "circle", "ellipse", "line", "polyline", "polygon", "rect", "g", "defs", "use",
   "symbol", "clippath", "mask", "pattern", "marker", "lineargradient", "radialgradient", "stop",
   "filter", "fegaussianblur", "text", "tspan", "textpath", "image"]

/-- The attributes of drawings whose names are not all lower case. -/
def drawingAttributes : List String :=
  ["viewBox", "preserveAspectRatio", "gradientTransform", "gradientUnits", "patternUnits",
   "patternTransform", "markerWidth", "markerHeight", "refX", "refY", "stdDeviation",
   "textLength", "clipPathUnits"]

/-- An attribute name as drawings spell it, on the elements of drawings
(`correct_svg_attribute_name`). -/
def spellAttribute (element name : String) : String :=
  if drawingElements.contains (foldName element) then
    (drawingAttributes.find? fun known => foldName known == foldName name).getD name
  else name

/-! ## The walk -/

/-- What a walk over a document tree needs to know (`MarkupWalker`). -/
structure DocumentWalk where
  source : List Char
  file : String
  placeholders : Placeholders
  /-- Whether the elements of the document itself belong to the template. -/
  keepsDocument : Bool

namespace DocumentWalk

/-- Whether an element is of the document itself (`is_document_wrapper`). -/
def isDocumentElement (name : String) : Bool :=
  name == "html" || name == "head" || name == "body"

/-- Whether an element gives way to its children. -/
def isTransparent (w : DocumentWalk) (name : String) : Bool :=
  isDocumentElement name && !w.keepsDocument

/-- Takes a text apart and adds it (`feed`). -/
def addText (w : DocumentWalk) (b : Builder) (chars : List Char) : Except TemplateError Builder :=
  b.addSegments w.source w.file (w.placeholders.reveal chars)

/-- The name of an attribute, with tags as written. -/
def attributeName (w : DocumentWalk) (element name : String) : String :=
  String.ofList (w.placeholders.restore (spellAttribute element name).toList)

/-- An attribute, taken apart if its value holds a placeholder (`attributes`). -/
def readAttribute (w : DocumentWalk) (element : String) (attr : String × List Char) :
    Except TemplateError Attribute :=
  let name := w.attributeName element attr.1
  if w.placeholders.occurIn attr.2 then do
    .ok (.dynamic name (← (← w.addText .empty attr.2).finish w.file))
  else .ok (.static name (String.ofList attr.2))

mutual

/-- Adds a node of the document (`walk`). -/
def addDom (w : DocumentWalk) (b : Builder) : Dom → Except TemplateError Builder
  | .text chars => w.addText b chars
  | .element name attributes children =>
      if w.isTransparent name then w.addDoms b children
      else do
        let attributes ← attributes.mapM (w.readAttribute name)
        let inner ← w.addDoms .empty children
        .ok (b.addNode (.element name attributes (← inner.finish w.file)))
  | .other => .ok b

/-- Adds nodes of the document in order, up to the first error (`walk_children`). -/
def addDoms (w : DocumentWalk) (b : Builder) : List Dom → Except TemplateError Builder
  | [] => .ok b
  | dom :: rest => do
      let b ← w.addDom b dom
      w.addDoms b rest

end

def read (w : DocumentWalk) (trees : List Dom) : Except TemplateError (List Node) := do
  (← w.addDoms .empty trees).finish w.file

end DocumentWalk

/-! ## Templates -/

/-- The walk for a template. -/
def walkOf (source : List Char) (file : String) : DocumentWalk where
  source
  file
  placeholders := .ofSource source
  keepsDocument := (beforeFolded? "<html".toList source).isSome

/-- The line of the first table (`foster_parent_error`): that of its byte position in the source in
lower case, or zero if there is none. There is no line if that position is inside a character of the
source, which then is not cut there. -/
def tableLine? (source : List Char) : Option UInt32 :=
  match beforeFolded? "<table".toList source with
  | some before => lineAt? source (lowercaseLength before)
  | none => some 0

/-- Reads a structural template (`parse_markup`). Without a line for the error about text
in a table there is no result at all: the program panics. -/
def readStructural (readers : Readers) (source : List Char) (file : String) :
    Option (Except TemplateError (List Node)) :=
  let walk := walkOf source file
  let document := readers.document (walk.placeholders.hide source)
  if document.foundTableText then
    (tableLine? source).map fun line => .error (.tableText file line)
  else some (walk.read document.trees)

def readNodes (readers : Readers) (target : Target) (source : List Char) (file : String) :
    Option (Except TemplateError (List Node)) :=
  match target with
  | .flat => some (readFlat source file)
  | .structural => readStructural readers source file

/-- Reads a template for a target (`parse_template`); no result is a panic. -/
def Tree.read (readers : Readers) (target : Target) (source : List Char) (file : String) :
    Option (Except TemplateError Tree) :=
  (readNodes readers target source file).map fun nodes =>
    nodes.map fun nodes => ⟨file, target, nodes⟩

end Mustache
