import Mustache.Template.Scope

/-!
Template trees.

A template is a list of nodes. Text is copied, an interpolation prints a value,
a block shows its body for the elements of a value or for want of one, and an
inclusion puts another template in its place. A structural template has elements
as well, whose children and attribute values hold nodes again.
-/
set_option autoImplicit false

namespace Mustache

/-- What a template produces. -/
inductive Target where
  /-- One string. -/
  | flat
  /-- A list of strings and elements. -/
  | structural
  deriving DecidableEq, Repr, Inhabited

mutual

/-- A node of a template tree (`TemplateNode`). -/
inductive Node where
  /-- Text that is copied. -/
  | text (value : String)
  /-- The value of an expression, with markup characters escaped or not. -/
  | interpolation (expression : String) (escape : Bool) (location : Location)
  /-- A section or an inverted section. -/
  | block (kind : BlockKind) (expression : String) (body : List Node) (location : Location)
  /-- Another template, in this place. -/
  | inclusion (name : String) (location : Location)
  /-- An element of a structural template. -/
  | element (tag : String) (attributes : List Attribute) (children : List Node)

/-- An attribute of an element (`AttributeIR`). -/
inductive Attribute where
  /-- A value known as it stands. -/
  | static (name : String) (value : String)
  /-- A value put together from nodes. -/
  | dynamic (name : String) (parts : List Node)

end

/-- A template tree, with what it was read for and from (`TemplateIR`). -/
structure Tree where
  /-- The name of the template, as errors give it. -/
  file : String
  target : Target
  nodes : List Node

mutual

/-- Whether a node is or holds a block. -/
def Node.usesBlocks : Node → Bool
  | .block .. => true
  | .element _ attributes children =>
      anyUsesBlocks children || Attribute.anyUsesBlocks attributes
  | .text _ | .interpolation .. | .inclusion .. => false

/-- Whether some node of a list is or holds a block (`nodes_use_blocks`). -/
def anyUsesBlocks : List Node → Bool
  | [] => false
  | node :: rest => node.usesBlocks || anyUsesBlocks rest

/-- Whether the value of an attribute holds a block. -/
def Attribute.usesBlocks : Attribute → Bool
  | .static .. => false
  | .dynamic _ parts => anyUsesBlocks parts

/-- Whether the value of some attribute of a list holds a block. -/
def Attribute.anyUsesBlocks : List Attribute → Bool
  | [] => false
  | attr :: rest => attr.usesBlocks || Attribute.anyUsesBlocks rest

end

/-- Whether a section or inverted section stands anywhere in the tree (`uses_blocks`). -/
def Tree.usesBlocks (tree : Tree) : Bool :=
  anyUsesBlocks tree.nodes

end Mustache
