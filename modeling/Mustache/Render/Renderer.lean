import Mustache.Data.Bindings
import Mustache.Render.Rendered
import Mustache.Text.Newline

/-!
Rendering a template tree against data.

A tree renders to a string, or to a list of texts and elements; the value of an
attribute renders to a string whose literals lose their newlines. Templates may
include each other, and nothing keeps an inclusion from coming round in a
circle, so rendering takes the greatest depth of inclusions and gives nothing
where a template would be included below it. A name that no template bears
renders to nothing at any depth.
-/
set_option autoImplicit false

namespace Mustache

open Json

/-! ## Templates -/

/-- A tree with the options that it was read with. -/
structure Template where
  tree : Tree
  options : Options

/-- The template that an inclusion names (`PartialResolver`). -/
abbrev Resolver := String → Option Template

/-- How inclusions render: in text, and in a list of texts and elements. -/
structure Inclusions where
  text : String → Value → Option String
  nodes : String → Value → Option (List Rendered)

/-! ## Text -/

/-- The text of an interpolation (`interpolate`). -/
def interpolate (scope : Value) (expression : String) (escape : Bool) : String :=
  printed (lookup scope expression escape)

/-- The text of all scopes of a block, one after another. -/
def joinScopes (render : Value → Option String) (scopes : List Value) : Option String :=
  (scopes.mapM render).map String.join

mutual

def textOfNode (policy : InvertedPolicy) (inclusions : Inclusions) (scope : Value) :
    Node → Option String
  | .text value => some value
  | .interpolation expression escape _ => some (interpolate scope expression escape)
  | .block kind expression body _ =>
      joinScopes (fun child => textOfNodes policy inclusions child body)
        (blockScopes policy kind scope expression)
  | .inclusion name _ => inclusions.text name scope
  -- Text holds no elements; one prints as any object does.
  | .element .. => some "[object Object]"

/-- The text of nodes, one behind another (`Renderer::text`). -/
def textOfNodes (policy : InvertedPolicy) (inclusions : Inclusions) (scope : Value) :
    List Node → Option String
  | [] => some ""
  | node :: rest => do
      let first ← textOfNode policy inclusions scope node
      let others ← textOfNodes policy inclusions scope rest
      some (first ++ others)

end

/-! ## Attribute values -/

/-- A literal of a structural template (`collapse_whitespace`). -/
def collapsed (value : String) : String :=
  String.ofList (Text.collapse value.toList)

mutual

def attributeTextOfNode (policy : InvertedPolicy) (inclusions : Inclusions) (scope : Value) :
    Node → Option String
  | .text value => some (collapsed value)
  | .block kind expression body _ =>
      joinScopes (fun child => attributeText policy inclusions child body)
        (blockScopes policy kind scope expression)
  | .interpolation expression escape _ => some (interpolate scope expression escape)
  | .inclusion name _ => inclusions.text name scope
  | .element .. => some "[object Object]"

/-- The text of the value of an attribute (`attribute_text`). -/
def attributeText (policy : InvertedPolicy) (inclusions : Inclusions) (scope : Value) :
    List Node → Option String
  | [] => some ""
  | node :: rest => do
      let first ← attributeTextOfNode policy inclusions scope node
      let others ← attributeText policy inclusions scope rest
      some (first ++ others)

end

/-! ## Texts and elements -/

/-- The entries of a literal (`Renderer::literal`): none if nothing is left of it. -/
def renderedLiteral (value : String) : List Rendered :=
  if collapsed value = "" then [] else [.text (collapsed value)]

/-- The entries of all scopes of a block, one after another. -/
def appendScopes (render : Value → Option (List Rendered)) (scopes : List Value) :
    Option (List Rendered) :=
  (scopes.mapM render).map List.flatten

def renderAttribute (policy : InvertedPolicy) (inclusions : Inclusions) (scope : Value) :
    Attribute → Option (String × String)
  | .static name value => some (name, value)
  | .dynamic name parts => (attributeText policy inclusions scope parts).map (name, ·)

mutual

def renderNode (policy : InvertedPolicy) (inclusions : Inclusions) (scope : Value) :
    Node → Option (List Rendered)
  | .text value => some (renderedLiteral value)
  | .interpolation expression escape _ => some [.text (interpolate scope expression escape)]
  | .block kind expression body _ =>
      appendScopes (fun child => renderNodes policy inclusions child body)
        (blockScopes policy kind scope expression)
  | .inclusion name _ => inclusions.nodes name scope
  | .element tag attributes children => do
      let values ← attributes.mapM (renderAttribute policy inclusions scope)
      let entries ← renderNodes policy inclusions scope children
      some [.element tag (NameMap.insertAll [] values) entries]

/-- The entries of a list of nodes (`Renderer::nodes`). -/
def renderNodes (policy : InvertedPolicy) (inclusions : Inclusions) (scope : Value) :
    List Node → Option (List Rendered)
  | [] => some []
  | node :: rest => do
      let first ← renderNode policy inclusions scope node
      let others ← renderNodes policy inclusions scope rest
      some (first ++ others)

end

/-! ## Inclusions -/

/-- The text of a template, with inclusions rendered in a given way. -/
def Template.textWith (template : Template) (inclusions : Inclusions) (data : Value) :
    Option String :=
  textOfNodes template.options.invertedPolicy inclusions data template.tree.nodes

/-- The entries of a template, with inclusions rendered in a given way. -/
def Template.nodesWith (template : Template) (inclusions : Inclusions) (data : Value) :
    Option (List Rendered) :=
  renderNodes template.options.invertedPolicy inclusions data template.tree.nodes

/-- How a template renders that is included among texts and elements: a flat one
is one text. -/
def Template.includedNodes (template : Template) (inclusions : Inclusions) (data : Value) :
    Option (List Rendered) :=
  match template.options.target with
  | .flat => (template.textWith inclusions data).map fun text => [.text text]
  | .structural => template.nodesWith inclusions data

/-- How inclusions render that may go `depth` templates deep. -/
def inclusionsTo (resolve : Resolver) : (depth : Nat) → Inclusions
  | 0 =>
    { text := fun name _ => if (resolve name).isNone then some "" else none
      nodes := fun name _ => if (resolve name).isNone then some [] else none }
  | depth + 1 =>
    { text := fun name data =>
        match resolve name with
        | none => some ""
        | some template => template.textWith (inclusionsTo resolve depth) data
      nodes := fun name data =>
        match resolve name with
        | none => some []
        | some template => template.includedNodes (inclusionsTo resolve depth) data }

/-- The string that a template renders to (`render_to_string`); nothing if its inclusions go deeper
than `depth`. -/
def Template.renderText (template : Template) (resolve : Resolver) (depth : Nat) (data : Value) :
    Option String :=
  template.textWith (inclusionsTo resolve depth) data

/-- The texts and elements that a template renders to (`render_nodes`); nothing if its inclusions go
deeper than `depth`. -/
def Template.renderNodes (template : Template) (resolve : Resolver) (depth : Nat)
    (data : Value) : Option (List Rendered) :=
  template.nodesWith (inclusionsTo resolve depth) data

end Mustache
