import Mustache.Markup.Dom
import Mustache.Markup.Token

/-!
Documents under construction.

While markup is read, elements are moved about: text is put in front of a table,
formatting elements are split and nested anew. So a document under construction
is a table of nodes that name their parent and their children, and only the
finished document is a tree. The content of a template element is a node of its
own that is no child of the element.
-/
set_option autoImplicit false

namespace Mustache.Markup

/-! ## Nodes -/

/-- The languages that elements belong to. -/
inductive Namespace where
  | html
  | svg
  | mathml
  deriving DecidableEq, Repr

/-- The position of a node in the table. -/
abbrev NodeId := Nat

inductive NodeKind where
  | root
  | text (chars : List Char)
  | element (space : Namespace) (name : String) (attributes : List TagAttribute)
  | comment
  | doctype
  deriving DecidableEq, Repr

/-- An entry of the table. -/
structure Entry where
  kind : NodeKind
  parent : Option NodeId
  children : List NodeId
  /-- The content of a template element. -/
  content : Option NodeId

/-- The table of nodes; the first is the document itself. -/
structure Document where
  entries : Array Entry

namespace Document

/-- The document itself. -/
def root : NodeId := 0

/-- A document without children. -/
def empty : Document := ⟨#[⟨.root, none, [], none⟩]⟩

def entry? (d : Document) (id : NodeId) : Option Entry :=
  d.entries[id]?

/-- Changes the entry of a node. -/
def modify (d : Document) (id : NodeId) (f : Entry → Entry) : Document :=
  ⟨d.entries.modify id f⟩

def childrenOf (d : Document) (id : NodeId) : List NodeId :=
  (d.entry? id).elim [] Entry.children

def parentOf? (d : Document) (id : NodeId) : Option NodeId :=
  (d.entry? id).bind Entry.parent

def element? (d : Document) (id : NodeId) : Option (Namespace × String × List TagAttribute) :=
  match (d.entry? id).map Entry.kind with
  | some (.element space name attributes) => some (space, name, attributes)
  | _ => none

/-- The namespace and name of an element. -/
def nameOf? (d : Document) (id : NodeId) : Option (Namespace × String) :=
  (d.element? id).map fun (space, name, _) => (space, name)

/-- Whether a node is an element of this name in markup proper. -/
def isHtml (d : Document) (name : String) (id : NodeId) : Bool :=
  d.nameOf? id == some (.html, name)

/-! ## Adding nodes -/

/-- Adds a node that has no parent yet. -/
def add (d : Document) (kind : NodeKind) : Document × NodeId :=
  (⟨d.entries.push ⟨kind, none, [], none⟩⟩, d.entries.size)

/-- Adds an element; a template element gets its content. -/
def addElement (d : Document) (space : Namespace) (name : String)
    (attributes : List TagAttribute) : Document × NodeId :=
  let (d, id) := d.add (.element space name attributes)
  if space = .html ∧ name = "template" then
    let (d, content) := d.add .root
    (d.modify id fun e => { e with content := some content }, id)
  else (d, id)

/-- Takes a node out of its parent. -/
def detach (d : Document) (id : NodeId) : Document :=
  match d.parentOf? id with
  | none => d
  | some parent =>
      (d.modify parent fun e => { e with children := e.children.filter (· ≠ id) }).modify id
        fun e => { e with parent := none }

/-- Puts a node behind the last child of another. -/
def append (d : Document) (parent id : NodeId) : Document :=
  ((d.detach id).modify parent fun e => { e with children := e.children ++ [id] }).modify id
    fun e => { e with parent := some parent }

/-- Puts a node right before another in that one's parent. -/
def insertBefore (d : Document) (sibling id : NodeId) : Document :=
  match d.parentOf? sibling with
  | none => d
  | some parent =>
      let place (c : NodeId) : List NodeId := if c = sibling then [id, c] else [c]
      ((d.detach id).modify parent fun e => { e with children := e.children.flatMap place }).modify
        id fun e => { e with parent := some parent }

def moveChildren (d : Document) (source target : NodeId) : Document :=
  (d.childrenOf source).foldl (fun d id => d.append target id) d

/-! ## Adding text -/

/-- Adds text to the end of a text node; nothing if the node is no text. -/
def extendText? (d : Document) (id : NodeId) (chars : List Char) : Option Document :=
  match (d.entry? id).map Entry.kind with
  | some (.text before) =>
      some (d.modify id fun e => { e with kind := .text (before ++ chars) })
  | _ => none

/-- Puts text behind the last child of a node; text there grows. -/
def appendText (d : Document) (parent : NodeId) (chars : List Char) : Document :=
  match (d.childrenOf parent).getLast?.bind fun last => d.extendText? last chars with
  | some d => d
  | none =>
      let (d, id) := d.add (.text chars)
      d.append parent id

/-- The child before a node in its parent. -/
def previousSibling? (d : Document) (id : NodeId) : Option NodeId :=
  (d.parentOf? id).bind fun parent =>
    ((d.childrenOf parent).takeWhile (· ≠ id)).getLast?

/-- Puts text right before a node; text there grows. -/
def insertTextBefore (d : Document) (sibling : NodeId) (chars : List Char) : Document :=
  match (d.previousSibling? sibling).bind fun before => d.extendText? before chars with
  | some d => d
  | none =>
      let (d, id) := d.add (.text chars)
      d.insertBefore sibling id

/-- Adds to an element the attributes that it lacks. -/
def addMissingAttributes (d : Document) (id : NodeId) (attributes : List TagAttribute) :
    Document :=
  d.modify id fun e =>
    match e.kind with
    | .element space name old =>
        let news := attributes.filter fun a => !old.any (·.name == a.name)
        { e with kind := .element space name (old ++ news) }
    | _ => e

/-! ## The finished tree -/

/-- The tree below a node, at most `depth` levels deep. -/
def toDom (d : Document) : (depth : Nat) → NodeId → Dom
  | 0, _ => .other
  | depth + 1, id =>
      match d.entry? id with
      | none => .other
      | some e =>
          match e.kind with
          | .text chars => .text chars
          | .element _ name attributes =>
              .element name (attributes.map fun a => (String.ofList a.name, a.value))
                (e.children.map (toDom d depth))
          | .root | .comment | .doctype => .other

/-- The finished document: the trees of its children. No branch is longer than
the table. -/
def toTrees (d : Document) : List Dom :=
  (d.childrenOf root).map (d.toDom d.entries.size)

end Document

end Mustache.Markup
