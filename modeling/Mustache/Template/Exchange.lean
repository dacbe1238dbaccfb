import Mustache.Json.Value
import Mustache.Options.Basic

/-!
Template trees in JSON.

A tree is exchanged as an object. A node bears its kind in the member `type`
next to its own members; the value of an attribute is a string or a list of
nodes. Reading takes the members in any order, skips those that it does not
know, and puts the unknown place where a location is missing. In place of an
object it takes an array of the members' values in their fixed order. A node below
another may name its type by the number that it has among the types.

A value is read from the inside out: `Json.Value.forms` gives at once what a
value says as a node, as an attribute, and as a list of either.
-/
set_option autoImplicit false

namespace Mustache

open Json

/-! ## Writing -/

def Location.toJson (location : Location) : Value :=
  .ofMembers
    [("line", .ofNat location.line.toNat), ("column", .ofNat location.column.toNat)]

/-- The kind of a block in JSON. -/
def BlockKind.typeName : BlockKind → String
  | .normal => "section"
  | .inverted => "inverted-section"

mutual

def Node.toJson : Node → Value
  | .text value => .ofMembers [("type", .str "text"), ("value", .str value)]
  | .interpolation expression escape location =>
      .ofMembers
        [("type", .str "interpolation"), ("expression", .str expression),
         ("escape", .bool escape), ("location", location.toJson)]
  | .block kind expression body location =>
      .ofMembers
        [("type", .str kind.typeName), ("expression", .str expression),
         ("body", .arr (nodesToJson body)), ("location", location.toJson)]
  | .inclusion name location =>
      .ofMembers
        [("type", .str "partial"), ("name", .str name), ("location", location.toJson)]
  | .element tag attributes children =>
      .ofMembers
        [("type", .str "element"), ("tag", .str tag),
         ("attributes", .arr (attributesToJson attributes)),
         ("children", .arr (nodesToJson children))]

def nodesToJson : List Node → List Value
  | [] => []
  | node :: rest => node.toJson :: nodesToJson rest

def Attribute.toJson : Attribute → Value
  | .static name value => .ofMembers [("name", .str name), ("value", .str value)]
  | .dynamic name parts =>
      .ofMembers [("name", .str name), ("value", .arr (nodesToJson parts))]

def attributesToJson : List Attribute → List Value
  | [] => []
  | attr :: rest => attr.toJson :: attributesToJson rest

end

def Tree.toJson (tree : Tree) : Value :=
  .ofMembers
    [("filePath", .str tree.file), ("target", .str tree.target.name),
     ("nodes", .arr (nodesToJson tree.nodes))]

/-! ## Reading single values -/

def Json.Value.string? : Value → Option String
  | .str s => some s
  | _ => none

def Json.Value.bool? : Value → Option Bool
  | .bool b => some b
  | _ => none

/-- An unsigned integer of 32 bits. -/
def Json.Value.word? : Value → Option UInt32
  | .num (.int n) => if 0 ≤ n ∧ n < (Nat.pow 2 32 : Nat) then some (UInt32.ofNat n.toNat) else none
  | _ => none

/-- Things under the names that their order gives them; nothing if there are
more things than names. -/
def underNames? {α : Type} (names : List String) (things : List α) : Option (NameMap α) :=
  if things.length ≤ names.length then some (names.zip things) else none

def Location.ofMembers? (members : NameMap Value) : Option Location := do
  let line ← (← members.get? "line").word?
  let column ← (← members.get? "column").word?
  some ⟨line, column⟩

def Location.ofJson? : Value → Option Location
  | .obj members => ofMembers? members
  | .arr items => (underNames? ["line", "column"] items).bind ofMembers?
  | _ => none

/-- A target: its name, or an object with the name as its one member. -/
def Target.ofJson? : Value → Option Target
  | .str name => ofName? name
  | .obj [(name, .null)] => ofName? name
  | _ => none

/-! ## Reading nodes -/

/-- What a value says as a part of a tree. -/
structure Forms where
  node : Option Node
  nodes : Option (List Node)
  attr : Option Attribute
  attrs : Option (List Attribute)

/-- The forms of a value that is no part of a tree. -/
def Forms.none : Forms := ⟨.none, .none, .none, .none⟩

/-- The types of nodes, in the order of their numbers. -/
def nodeTypes : List String :=
  ["text", "interpolation", "section", "inverted-section", "partial", "element"]

/-- The type that a value names, by its name or by its number. -/
def nodeType? : Value → Option String
  | .str type => some type
  | .num (.int n) => if 0 ≤ n then nodeTypes[n.toNat]? else none
  | _ => none

/-- Whether a value says the type of its node by name, if it is one. -/
def Json.Value.namesType : Value → Bool
  | .obj members => ((members.lookup "type").bind string?).isSome
  | .arr items => (items.head?.bind string?).isSome
  | _ => false

/-- The members of a node of this type besides the type, in order. -/
def nodeMembers (type : String) : List String :=
  if type = "text" then ["value"]
  else if type = "interpolation" then ["expression", "escape", "location"]
  else if type = "section" ∨ type = "inverted-section" then ["expression", "body", "location"]
  else if type = "partial" then ["name", "location"]
  else if type = "element" then ["tag", "attributes", "children"]
  else []

/-- The location among members; unknown if it is missing. -/
def locationAmong? (members : NameMap (Value × Forms)) : Option Location :=
  match members.get? "location" with
  | none => some Location.unknown
  | some (value, _) => Location.ofJson? value

def stringAmong? (members : NameMap (Value × Forms)) (name : String) : Option String := do
  (← members.get? name).1.string?

def blockOfMembers? (kind : BlockKind) (members : NameMap (Value × Forms)) : Option Node := do
  let expression ← stringAmong? members "expression"
  let body ← (← members.get? "body").2.nodes
  some (.block kind expression body (← locationAmong? members))

def nodeOfMembers? (type : String) (members : NameMap (Value × Forms)) : Option Node :=
  if type = "text" then do
    some (.text (← stringAmong? members "value"))
  else if type = "interpolation" then do
    let expression ← stringAmong? members "expression"
    let escape ← (← members.get? "escape").1.bool?
    some (.interpolation expression escape (← locationAmong? members))
  else if type = BlockKind.normal.typeName then blockOfMembers? .normal members
  else if type = BlockKind.inverted.typeName then blockOfMembers? .inverted members
  else if type = "partial" then do
    let name ← stringAmong? members "name"
    some (.inclusion name (← locationAmong? members))
  else if type = "element" then do
    let tag ← stringAmong? members "tag"
    let attributes ← (← members.get? "attributes").2.attrs
    let children ← (← members.get? "children").2.nodes
    some (.element tag attributes children)
  else none

def attributeOfMembers? (members : NameMap (Value × Forms)) : Option Attribute := do
  let name ← stringAmong? members "name"
  let (value, forms) ← members.get? "value"
  match value with
  | .str s => some (.static name s)
  | _ => some (.dynamic name (← forms.nodes))

/-- The forms of an object with the given members. -/
def Forms.ofMembers (members : NameMap (Value × Forms)) : Forms where
  node := do nodeOfMembers? (← nodeType? (← members.get? "type").1) members
  nodes := .none
  attr := attributeOfMembers? members
  attrs := .none

/-- The forms of an array with the given items. -/
def Forms.ofItems (items : List (Value × Forms)) : Forms where
  node :=
    match items with
    | [] => .none
    | (value, _) :: rest => do
        let type ← nodeType? value
        nodeOfMembers? type (← underNames? (nodeMembers type) rest)
  nodes := items.mapM (·.2.node)
  attr := (underNames? ["name", "value"] items).bind attributeOfMembers?
  attrs := items.mapM (·.2.attr)

mutual

/-- What a value says as a part of a tree. -/
def Json.Value.forms : Value → Forms
  | .obj members => Forms.ofMembers (formsOfMembers members)
  | .arr items => Forms.ofItems (formsOfItems items)
  | .null | .bool _ | .num _ | .str _ => Forms.none

/-- Each item of an array with what it says. -/
def formsOfItems : List Value → List (Value × Forms)
  | [] => []
  | item :: rest => (item, item.forms) :: formsOfItems rest

/-- Each member of an object with what it says. -/
def formsOfMembers : List (String × Value) → List (String × (Value × Forms))
  | [] => []
  | (name, value) :: rest => (name, (value, value.forms)) :: formsOfMembers rest

end

/-- The nodes of a tree; those at the top name their types. -/
def topNodes? (value : Value) : Option (List Node) :=
  match value with
  | .arr items => if items.all Json.Value.namesType then value.forms.nodes else none
  | _ => none

def Tree.ofMembers? (members : NameMap Value) : Option Tree := do
  let file ← (← members.get? "filePath").string?
  let target ← Target.ofJson? (← members.get? "target")
  let nodes ← topNodes? (← members.get? "nodes")
  some ⟨file, target, nodes⟩

/-- The tree that a value spells. -/
def Tree.ofJson? : Value → Option Tree
  | .obj members => ofMembers? members
  | .arr items => (underNames? ["filePath", "target", "nodes"] items).bind ofMembers?
  | _ => none

end Mustache
