import Mustache.Markup.Elements

/-!
The state of document construction.

A document is built by a machine that takes one token after another. Besides the
document it keeps the elements that are open, the formatting elements that are to
be opened again in the next block, and the mode, which says what part of a
document comes next. The steps of the machine are programs over this state.
-/
set_option autoImplicit false

namespace Mustache.Markup

/-! ## The state -/

/-- The part of a document that comes next. -/
inductive Mode where
  | initial
  | beforeHtml
  | beforeHead
  | inHead
  | afterHead
  | inBody
  | text
  | inTable
  | inTableText
  | inCaption
  | inColumnGroup
  | inTableBody
  | inRow
  | inCell
  | inSelect
  | inSelectInTable
  | inTemplate
  | afterBody
  | inFrameset
  | afterFrameset
  | afterAfterBody
  | afterAfterFrameset
  deriving DecidableEq, Repr

inductive FormattingEntry where
  /-- A border that formatting does not cross. -/
  | marker
  | element (id : NodeId) (tag : TagToken)

/-- The state of document construction. -/
structure Construction where
  document : Document
  mode : Mode
  /-- The mode to go back to from text. -/
  modeToResume : Mode
  /-- The modes of the open template elements, the innermost first. -/
  templateModes : List Mode
  /-- The open elements, the innermost first. -/
  opened : List NodeId
  /-- The formatting elements, the latest first. -/
  formatting : List FormattingEntry
  head : Option NodeId
  form : Option NodeId
  /-- Whether a frameset may still take the place of the body. -/
  framesetAllowed : Bool
  /-- Whether a line feed that comes next is dropped. -/
  dropsNewline : Bool
  /-- Whether what may not stand in a table is put in front of it. -/
  fostering : Bool
  /-- Whether the document type asks for the rules of old documents. -/
  oldRules : Bool
  /-- Text in a table whose place is not decided yet, in order. -/
  tableText : List (List Char)
  /-- Whether text was found that may not stand in a table. -/
  foundTableText : Bool
  /-- How the text up to the next tag is read. -/
  content : Content

/-- The state before anything is read. -/
def Construction.initial : Construction where
  document := .empty
  mode := .initial
  modeToResume := .initial
  templateModes := []
  opened := []
  formatting := []
  head := none
  form := none
  framesetAllowed := true
  dropsNewline := false
  fostering := false
  oldRules := false
  tableText := []
  foundTableText := false
  content := .normal

/-- A program over the state. -/
abbrev Build (α : Type) := StateM Construction α

/-- What is left of a token after a step: nothing, or the token itself, to be
taken again in the mode that is set. -/
abbrev Step := Build (Option Token)

namespace Build

/-- Ends a step. -/
def done : Step := pure none

/-- Goes to a mode and takes the token again there. -/
def again (mode : Mode) (token : Token) : Step := do
  modify fun s => { s with mode }
  pure (some token)

/-- Goes to a mode. -/
def goTo (mode : Mode) : Build PUnit :=
  modify fun s => { s with mode }

def change (f : Document → Document) : Build PUnit :=
  modify fun s => { s with document := f s.document }

def forbidFrameset : Build PUnit :=
  modify fun s => { s with framesetAllowed := false }

/-- Drops a line feed that comes next. -/
def dropNewline : Build PUnit :=
  modify fun s => { s with dropsNewline := true }

/-! ## Open elements -/

def nameOf (id : NodeId) : Build (Option ElementName) := do
  pure ((← get).document.nameOf? id)

/-- The innermost open element. -/
def current : Build (Option NodeId) := do
  pure (← get).opened.head?

/-- Whether the innermost open element belongs to a class. -/
def currentIs (p : ElementName → Bool) : Build Bool := do
  let s ← get
  pure (s.opened.head?.any fun id => (s.document.nameOf? id).any p)

/-- Whether the innermost open element is one of markup proper of this name. -/
def currentNamed (name : String) : Build Bool :=
  currentIs (htmlClass [name])

/-- Whether an element of this name is open. -/
def anyOpen (name : String) : Build Bool := do
  let s ← get
  pure (s.opened.any (s.document.isHtml name))

/-- The outermost open element. -/
def outermost : Build (Option NodeId) := do
  pure (← get).opened.getLast?

/-- Opens an element. -/
def push (id : NodeId) : Build PUnit :=
  modify fun s => { s with opened := id :: s.opened }

/-- Closes the innermost open element. -/
def pop : Build PUnit :=
  modify fun s => { s with opened := s.opened.drop 1 }

/-- Closes elements as long as they belong to a class. -/
def popWhile (p : ElementName → Bool) : Build PUnit :=
  modify fun s => { s with
    opened := s.opened.dropWhile fun id => (s.document.nameOf? id).any p }

/-- Closes elements up to one that belongs to a class, which stays open. -/
def popTo (p : ElementName → Bool) : Build PUnit :=
  popWhile fun name => !p name

/-- Closes elements up to and including one that belongs to a class. -/
def popThrough (p : ElementName → Bool) : Build PUnit := do
  popTo p
  pop

/-- Closes elements up to and including one of this name. -/
def popThroughNamed (name : String) : Build PUnit :=
  popThrough (htmlClass [name])

/-- Takes an element out of the open ones. -/
def removeOpened (id : NodeId) : Build PUnit :=
  modify fun s => { s with opened := s.opened.filter (· ≠ id) }

/-- Whether an open element satisfies `p` that no element of the class `ends`
hides. -/
def scopeHas (d : Document) (ends : ElementName → Bool) (p : NodeId → Bool) :
    List NodeId → Bool
  | [] => false
  | id :: outer => p id || (!(d.nameOf? id).any ends && scopeHas d ends p outer)

/-- Whether a scope holds an open element that satisfies `p`. -/
def inScope (ends : ElementName → Bool) (p : NodeId → Bool) : Build Bool := do
  let s ← get
  pure (scopeHas s.document ends p s.opened)

/-- Whether a scope holds an open element of a class. -/
def inScopeClass (ends p : ElementName → Bool) : Build Bool := do
  let s ← get
  pure (scopeHas s.document ends (fun id => (s.document.nameOf? id).any p) s.opened)

/-- Whether a scope holds an open element of this name. -/
def inScopeNamed (ends : ElementName → Bool) (name : String) : Build Bool :=
  inScopeClass ends (htmlClass [name])

/-- Closes the elements whose end tag may be left out. -/
def closeImplied : Build PUnit :=
  popWhile hasImpliedEnd

/-- Closes the elements whose end tag may be left out, but none of this name. -/
def closeImpliedExcept (name : String) : Build PUnit :=
  popWhile fun e => hasImpliedEnd e && !htmlClass [name] e

/-- Closes the innermost paragraph. -/
def closeParagraph : Build PUnit := do
  closeImpliedExcept "p"
  popThroughNamed "p"

def closeParagraphInScope : Build PUnit := do
  if ← inScopeNamed endsButtonScope "p" then closeParagraph

/-! ## Insertion -/

/-- Where a node is put. -/
inductive Place where
  /-- Behind the last child of a node. -/
  | lastChild (parent : NodeId)
  /-- In front of a table, or behind the last child of the element around it if
  the table has no parent. -/
  | beforeTable (table around : NodeId)

/-- The node that takes the children of an element: the content of a template
element, or the element itself. -/
def contentOf (d : Document) (id : NodeId) : NodeId :=
  if d.isHtml "template" id then ((d.entry? id).bind Entry.content).getD id else id

/-- Where what may not stand in a table is put. -/
def fosterPlace (d : Document) : List NodeId → Place
  | [] => .lastChild Document.root
  | id :: outer =>
      if d.isHtml "template" id then .lastChild (contentOf d id)
      else if d.isHtml "table" id then
        match outer with
        | [] => .lastChild id
        | around :: _ => .beforeTable id around
      else if outer.isEmpty then .lastChild id
      else fosterPlace d outer

/-- Where the next node is put, under `target` or else the innermost open
element. -/
def placeFor (target : Option NodeId) : Build Place := do
  let s ← get
  let target := (target.or s.opened.head?).getD Document.root
  if s.fostering && (s.document.nameOf? target).any isTableStructure then
    pure (fosterPlace s.document s.opened)
  else pure (.lastChild (contentOf s.document target))

def putNode (place : Place) (id : NodeId) : Build PUnit :=
  change fun d =>
    match place with
    | .lastChild parent => d.append parent id
    | .beforeTable table around =>
        if (d.parentOf? table).isSome then d.insertBefore table id else d.append around id

/-- Adds text. -/
def insertText (chars : List Char) : Build PUnit := do
  let place ← placeFor none
  change fun d =>
    match place with
    | .lastChild parent => d.appendText parent chars
    | .beforeTable table around =>
        if (d.parentOf? table).isSome then d.insertTextBefore table chars
        else d.appendText around chars

/-- Makes a node that has no parent yet. -/
def make (kind : NodeKind) : Build NodeId :=
  modifyGet fun s =>
    let (d, id) := s.document.add kind
    (id, { s with document := d })

/-- Makes an element that has no parent yet. -/
def makeElement (space : Namespace) (name : String) (attributes : List TagAttribute) :
    Build NodeId :=
  modifyGet fun s =>
    let (d, id) := s.document.addElement space name attributes
    (id, { s with document := d })

/-- Adds a comment under a node, or else where the next node is put. -/
def insertComment (parent : Option NodeId) : Build PUnit := do
  let id ← make .comment
  match parent with
  | some parent => change fun d => d.append parent id
  | none => putNode (← placeFor none) id

/-- Adds an element without opening it. -/
def insertClosedIn (space : Namespace) (name : String) (attributes : List TagAttribute) :
    Build NodeId := do
  let id ← makeElement space name attributes
  putNode (← placeFor none) id
  pure id

/-- Adds and opens an element. -/
def insertIn (space : Namespace) (name : String) (attributes : List TagAttribute) :
    Build NodeId := do
  let id ← insertClosedIn space name attributes
  push id
  pure id

/-- Adds and opens the element of a start tag. -/
def insert (tag : TagToken) : Build NodeId :=
  insertIn .html tag.name tag.attributes

/-- Adds and opens an element that no tag asked for. -/
def insertImplied (name : String) : Build NodeId :=
  insertIn .html name []

/-- Adds the element of a start tag that has no content. -/
def insertVoid (tag : TagToken) : Build NodeId :=
  insertClosedIn .html tag.name tag.attributes

/-- Adds the root element. -/
def insertRoot (attributes : List TagAttribute) : Build PUnit := do
  let id ← makeElement .html "html" attributes
  push id
  change fun d => d.append Document.root id

/-! ## Raw content -/

/-- Reads what comes next as text. -/
def readAsText (content : Content) : Build PUnit :=
  modify fun s => { s with modeToResume := s.mode, mode := .text, content }

/-- Adds the element of a start tag and reads its content as text. -/
def insertRaw (tag : TagToken) (content : Content) : Build PUnit := do
  let _ ← insert tag
  readAsText content

/-! ## The mode of the open elements -/

/-- The mode of a selection list inside the given elements. -/
def selectMode (d : Document) : List NodeId → Mode
  | [] => .inSelect
  | id :: outer =>
      if d.isHtml "template" id then .inSelect
      else if d.isHtml "table" id then .inSelectInTable
      else selectMode d outer

/-- The mode that an open element asks for; `outer` are the elements around
it. -/
def modeOf? (s : Construction) (id : NodeId) (outer : List NodeId) : Option Mode :=
  match s.document.nameOf? id with
  | some (.html, name) =>
      if name = "select" then some (selectMode s.document outer)
      else if name = "td" ∨ name = "th" then if outer.isEmpty then none else some .inCell
      else if name = "tr" then some .inRow
      else if name = "tbody" ∨ name = "thead" ∨ name = "tfoot" then some .inTableBody
      else if name = "caption" then some .inCaption
      else if name = "colgroup" then some .inColumnGroup
      else if name = "table" then some .inTable
      else if name = "template" then some (s.templateModes.headD .inBody)
      else if name = "head" then if outer.isEmpty then none else some .inHead
      else if name = "body" then some .inBody
      else if name = "frameset" then some .inFrameset
      else if name = "html" then some (if s.head.isNone then .beforeHead else .afterHead)
      else none
  | _ => none

/-- The mode that the open elements ask for, the innermost first. -/
def modeOfAll (s : Construction) : List NodeId → Mode
  | [] => .inBody
  | id :: outer => (modeOf? s id outer).getD (modeOfAll s outer)

/-- The mode that the open elements ask for. -/
def resetMode : Build Mode := do
  let s ← get
  pure (modeOfAll s s.opened)

end Build

end Mustache.Markup
