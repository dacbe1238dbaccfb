import Mustache.Proofs.Template.Hiding
import Mustache.Proofs.Template.Writing

/-!
Templates and documents written out in the same form.

A `Form` says how text, a tag, the end of a block and an element are written out. A
template tree is written out with the body of each block between the tag that opens it and
its end; a document is written out with tags in place of their placeholders, and without
the elements that give way to their children. A template that is read from a document is,
in any form, written out as the document is (`DocumentWalk.written_of_read`). The invariant
is about trees that are partly built, as for the marks of a flat template.
-/
set_option autoImplicit false

namespace Mustache

open Markup

/-- A way of writing out templates and documents. -/
structure Form (α : Type) where
  literal : String → List α
  /-- A tag that closes nothing. -/
  tag : Sigil → String → Location → List α
  /-- The end of a block. -/
  close : List α
  /-- An element, from its name, its attributes and its children written out. -/
  element : String → List (String × List α) → List α → List α

variable {α : Type} (f : Form α)

/-- Text written out; there is nothing to write of an empty one. -/
def Form.text (chars : List Char) : List α :=
  if chars.isEmpty then [] else f.literal (String.ofList chars)

/-! ## Templates -/

mutual

def Node.written : Node → List α
  | .text value => f.literal value
  | .interpolation expression escape location =>
      f.tag (if escape then .plain else .raw) expression location
  | .block kind expression body location =>
      f.tag kind.sigil expression location ++ (writtenOf body ++ f.close)
  | .inclusion name location => f.tag .inclusion name location
  | .element tag attributes children =>
      f.element tag (writtenAttributes attributes) (writtenOf children)

def writtenOf : List Node → List α
  | [] => []
  | node :: rest => node.written ++ writtenOf rest

/-- The name of an attribute, and its value written out. -/
def Attribute.written : Attribute → String × List α
  | .static name value => (name, f.text value.toList)
  | .dynamic name parts => (name, writtenOf parts)

/-- The attributes of an element, each written out. -/
def writtenAttributes : List Attribute → List (String × List α)
  | [] => []
  | attr :: rest => attr.written :: writtenAttributes rest

end

theorem writtenOf_append (first rest : List Node) :
    writtenOf f (first ++ rest) = writtenOf f first ++ writtenOf f rest := by
  induction first with
  | nil => rw [List.nil_append, writtenOf, List.nil_append]
  | cons node first ih => rw [List.cons_append, writtenOf, writtenOf, ih, List.append_assoc]

theorem writtenOf_singleton (node : Node) : writtenOf f [node] = node.written f := by
  rw [writtenOf, writtenOf, List.append_nil]

/-! ## Documents -/

/-- A piece of a template written out; there is nothing to write of a comment. -/
def Segment.written (source : List Char) : Segment → List α
  | .literal text => f.literal (String.ofList text)
  | .tag t =>
      match t.sigil with
      | .comment => []
      | .blockClose => f.close
      | sigil => f.tag sigil (String.ofList t.expression) (t.location source)

namespace DocumentWalk

/-- The text of an element or the value of an attribute, with tags in place of their
placeholders. -/
def writtenContent (w : DocumentWalk) (chars : List Char) : List α :=
  (w.placeholders.reveal chars).flatMap (Segment.written f w.source)

/-- The attributes of an element, with tags in place of their placeholders and tags as
written in the names. -/
def writtenAttributes (w : DocumentWalk) (element : String)
    (attributes : List (String × List Char)) : List (String × List α) :=
  attributes.map fun attr => (w.attributeName element attr.1, w.writtenContent f attr.2)

mutual

/-- A node of a document written out. -/
def writtenDom (w : DocumentWalk) : Dom → List α
  | .text chars => w.writtenContent f chars
  | .element name attributes children =>
      if w.isTransparent name then w.writtenDoms children
      else f.element name (w.writtenAttributes f name attributes) (w.writtenDoms children)
  | .other => []

/-- Nodes of a document written out. -/
def writtenDoms (w : DocumentWalk) : List Dom → List α
  | [] => []
  | dom :: rest => w.writtenDom dom ++ w.writtenDoms rest

end

end DocumentWalk

/-! ## Trees that are partly built -/

namespace Builder

/-- What stands before the body of the innermost open block, written out. -/
def writtenEnclosing : List (Scope × List Node) → List α
  | [] => []
  | (scope, outer) :: rest =>
      writtenEnclosing rest ++ (writtenOf f outer.reverse
        ++ f.tag scope.kind.sigil scope.expression scope.location)

/-- What a builder holds, written out. -/
def written (b : Builder) : List α :=
  writtenEnclosing f b.enclosing ++ writtenOf f b.body.reverse

theorem written_addNode (b : Builder) (node : Node) :
    (b.addNode node).written f = b.written f ++ node.written f := by
  rw [written, written, addNode, List.reverse_cons, writtenOf_append, writtenOf_singleton,
    List.append_assoc]

theorem written_openBlock (b : Builder) (kind : BlockKind) (expression : String)
    (location : Location) :
    (b.openBlock kind expression location).written f
      = b.written f ++ f.tag kind.sigil expression location := by
  rw [written, written, openBlock, writtenEnclosing, List.reverse_nil, writtenOf, List.append_nil,
    List.append_assoc]

theorem written_of_closeBlock? {b closed : Builder} (h : b.closeBlock? = some closed) :
    closed.written f = b.written f ++ f.close := by
  obtain ⟨body, enclosing⟩ := b
  cases enclosing with
  | nil => cases h
  | cons block rest =>
      obtain ⟨scope, outer⟩ := block
      cases h
      rw [written, written, writtenEnclosing, List.reverse_cons, writtenOf_append,
        writtenOf_singleton, Node.written]
      simp only [List.append_assoc]

variable {source : List Char} {file : String}

/-- Text and tags are written behind what is there. -/
theorem written_addLiteral (b : Builder) {text : List Char} (h : text ≠ []) :
    (b.addLiteral text).written f = b.written f ++ f.literal (String.ofList text) := by
  rw [addLiteral, if_neg (by simpa using h), written_addNode, Node.written]

theorem written_of_addTag {b next : Builder} {tag : Tag} (h : b.addTag source file tag = .ok next) :
    next.written f = b.written f ++ (Segment.tag tag).written f source := by
  rw [addTag] at h
  rw [Segment.written]
  cases hsigil : tag.sigil with
  -- What an open block writes is there from its opening on; closing it only adds its end.
  | blockOpen | invertedOpen =>
      rw [hsigil] at h
      cases h
      exact written_openBlock f b _ _ _
  | blockClose =>
      rw [hsigil, act] at h
      cases hclose : b.closeBlock? with
      | none => rw [hclose] at h; cases h
      | some closed =>
          rw [hclose] at h
          cases h
          exact written_of_closeBlock? f hclose
  | comment =>
      rw [hsigil] at h
      cases h
      exact (List.append_nil _).symm
  | inclusion =>
      rw [hsigil] at h
      cases h
      rw [written_addNode, Node.written]
  | raw | plain =>
      rw [hsigil] at h
      cases h
      rw [written_addNode, Node.written]
      rfl

theorem written_of_addSegments {b last : Builder} {segments : List Segment}
    (hliterals : ∀ text, .literal text ∈ segments → text ≠ [])
    (h : b.addSegments source file segments = .ok last) :
    last.written f = b.written f ++ segments.flatMap (Segment.written f source) := by
  induction segments generalizing b with
  | nil =>
      cases h
      rw [List.flatMap_nil, List.append_nil]
  | cons segment rest ih =>
      have hrest : ∀ text, .literal text ∈ rest → text ≠ [] :=
        fun text htext => hliterals text (List.mem_cons_of_mem segment htext)
      rw [List.flatMap_cons, ← List.append_assoc]
      cases segment with
      | literal text =>
          rw [addSegments_literal] at h
          rw [ih hrest h, written_addLiteral f b (hliterals text List.mem_cons_self)]
          rfl
      | tag tag =>
          rw [addSegments_tag] at h
          cases hstep : b.addTag source file tag with
          | error e => rw [hstep] at h; cases h
          | ok next =>
              rw [hstep] at h
              rw [ih hrest h, written_of_addTag f hstep]

theorem written_of_finish {b : Builder} {nodes : List Node} (h : b.finish file = .ok nodes) :
    b.written f = writtenOf f nodes := by
  rw [finish] at h
  split_ifs at h with hclosed
  cases h
  rw [written, List.isEmpty_iff.mp hclosed, writtenEnclosing, List.nil_append]

@[simp] theorem written_empty : Builder.empty.written f = [] := by
  rw [written, empty, writtenEnclosing, List.reverse_nil, writtenOf, List.append_nil]

end Builder

/-! ## What is found in a text -/

namespace Placeholder

/-- A literal among the pieces of a text is never empty. -/
theorem ne_nil_of_mem_resolve {start : List Char} {tags : List Tag} {before : List Char}
    {pieces : List Piece} :
    ∀ text, .literal text ∈ resolve start tags before pieces → text ≠ [] := by
  induction pieces generalizing before with
  | nil =>
      intro text htext
      exact nonempty_of_mem_literalSegment text htext
  | cons piece rest ih =>
      cases piece with
      | text chars => exact ih
      | word digits =>
          rw [resolve]
          cases tagOf? tags digits with
          | none => exact ih
          | some tag =>
              intro text htext
              rcases List.mem_append.mp htext with htext | htext
              · exact nonempty_of_mem_literalSegment text htext
              · exact ih text ((List.mem_cons.mp htext).resolve_left (by simp))

/-- A search that finds nothing goes over the whole text. -/
theorem splitAtPlaceholder_of_none {start s : List Char}
    (h : (splitAtPlaceholder start s).2 = none) : splitAtPlaceholder start s = (s, none) := by
  induction s with
  | nil => rfl
  | cons c s ih =>
      rw [splitAtPlaceholder] at h ⊢
      cases hread : read? start (c :: s) with
      | some found =>
          rw [hread] at h
          cases h
      | none =>
          rw [hread] at h
          dsimp only at h ⊢
          rw [ih h]

end Placeholder

theorem Placeholders.reveal_of_not_occurIn {p : Placeholders} {s : List Char}
    (h : p.occurIn s = false) : p.reveal s = literalSegment s := by
  have hsplit : Placeholder.splitAtPlaceholder p.start s = (s, none) :=
    Placeholder.splitAtPlaceholder_of_none
      (Option.not_isSome_iff_eq_none.mp (by rw [← occurIn, h]; exact Bool.false_ne_true))
  rw [reveal, Placeholder.pieces_of_none hsplit]
  rfl

/-! ## The walk -/

/-- Two steps have a result if both have one. -/
theorem bind_eq_ok_iff {ε β γ : Type} {first : Except ε β} {second : β → Except ε γ} {result : γ} :
    first.bind second = .ok result ↔ ∃ b, first = .ok b ∧ second b = .ok result := by
  cases first with
  | error e => exact iff_of_false (fun h => by cases h) (fun ⟨_, h, _⟩ => by cases h)
  | ok b => exact ⟨fun h => ⟨b, rfl, h⟩, fun ⟨_, hb, h⟩ => by cases hb; exact h⟩

namespace DocumentWalk

variable {w : DocumentWalk}

theorem written_of_addText {b last : Builder} {chars : List Char}
    (h : w.addText b chars = .ok last) :
    last.written f = b.written f ++ w.writtenContent f chars :=
  Builder.written_of_addSegments f Placeholder.ne_nil_of_mem_resolve h

/-- A value without a placeholder is written out as it stands. -/
theorem writtenContent_of_not_occurIn {chars : List Char}
    (h : w.placeholders.occurIn chars = false) : w.writtenContent f chars = f.text chars := by
  rw [writtenContent, Placeholders.reveal_of_not_occurIn h, literalSegment, Form.text]
  split_ifs with hempty
  · rfl
  · exact List.append_nil _

theorem written_of_readAttribute {element : String} {attr : String × List Char} {read : Attribute}
    (h : w.readAttribute element attr = .ok read) :
    read.written f = (w.attributeName element attr.1, w.writtenContent f attr.2) := by
  rw [readAttribute] at h
  split_ifs at h with hoccur
  · obtain ⟨b, hb, h⟩ := bind_eq_ok_iff.mp h
    obtain ⟨parts, hparts, h⟩ := bind_eq_ok_iff.mp h
    cases h
    rw [Attribute.written, ← Builder.written_of_finish f hparts, written_of_addText f hb,
      Builder.written_empty, List.nil_append]
  · cases h
    rw [Attribute.written, String.toList_ofList,
      writtenContent_of_not_occurIn f (by simpa using hoccur)]

theorem written_of_readAttributes {element : String} {attributes : List (String × List Char)}
    {read : List Attribute} (h : attributes.mapM (w.readAttribute element) = .ok read) :
    Mustache.writtenAttributes f read = w.writtenAttributes f element attributes := by
  induction attributes generalizing read with
  | nil =>
      cases h
      rfl
  | cons attr rest ih =>
      rw [List.mapM_cons] at h
      obtain ⟨first, hfirst, h⟩ := bind_eq_ok_iff.mp h
      obtain ⟨others, hothers, h⟩ := bind_eq_ok_iff.mp h
      cases h
      rw [Mustache.writtenAttributes, written_of_readAttribute f hfirst, ih hothers]
      rfl

mutual

theorem written_of_addDom {b last : Builder} :
    (dom : Dom) → w.addDom b dom = .ok last → last.written f = b.written f ++ w.writtenDom f dom
  | .text chars, h => by
      rw [addDom] at h
      rw [writtenDom, written_of_addText f h]
  | .element name attributes children, h => by
      rw [addDom] at h
      rw [writtenDom]
      split_ifs at h ⊢ with htransparent
      · exact written_of_addDoms children h
      · -- The children start from an empty builder, so what they write is all that it holds.
        obtain ⟨read, hread, h⟩ := bind_eq_ok_iff.mp h
        obtain ⟨inner, hinner, h⟩ := bind_eq_ok_iff.mp h
        obtain ⟨nodes, hnodes, h⟩ := bind_eq_ok_iff.mp h
        cases h
        have hchildren := written_of_addDoms children hinner
        rw [Builder.written_empty, List.nil_append] at hchildren
        rw [Builder.written_addNode, Node.written, written_of_readAttributes f hread,
          ← Builder.written_of_finish f hnodes, hchildren]
  | .other, h => by
      rw [addDom] at h
      cases h
      rw [writtenDom, List.append_nil]

theorem written_of_addDoms {b last : Builder} :
    (doms : List Dom) → w.addDoms b doms = .ok last →
      last.written f = b.written f ++ w.writtenDoms f doms
  | [], h => by
      rw [addDoms] at h
      cases h
      rw [writtenDoms, List.append_nil]
  | dom :: rest, h => by
      rw [addDoms] at h
      obtain ⟨next, hnext, h⟩ := bind_eq_ok_iff.mp h
      rw [written_of_addDoms rest h, written_of_addDom dom hnext, writtenDoms, List.append_assoc]

end

/-- A template that is read from a document is written out as the document is. -/
theorem written_of_read {trees : List Dom} {nodes : List Node} (h : w.read trees = .ok nodes) :
    writtenOf f nodes = w.writtenDoms f trees := by
  rw [read] at h
  obtain ⟨last, hlast, h⟩ := bind_eq_ok_iff.mp h
  rw [← Builder.written_of_finish f h, written_of_addDoms f trees hlast, Builder.written_empty,
    List.nil_append]

end DocumentWalk

end Mustache
