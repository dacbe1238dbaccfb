/-
Document trees.

A document tree holds text, elements and nodes that say nothing to a template
(comments and document types). Names of elements and attributes are local names,
without the namespace or its abbreviation.
-/
set_option autoImplicit false

namespace Mustache.Markup

/-- A node of a document tree. -/
inductive Dom where
  | text (chars : List Char)
  | element (name : String) (attributes : List (String × List Char)) (children : List Dom)
  /-- A comment or a document type. -/
  | other

/-- A document that was read. -/
structure Reading where
  trees : List Dom
  /-- Whether text was moved out of a table. -/
  foundTableText : Bool

end Mustache.Markup
