import Mathlib.Tactic.SplitIfs
import Mustache.Template.Exchange

/-!
Template trees that are exchanged in JSON.

A value says a tree if its objects have the members that the tree calls for, among any others
and in any order; a location may be missing (`Node.SaidBy`). A tree is read from each value
that says it, and the value that it is written to is one of them, so no tree is lost by
writing it and reading it again (`tree_survives_exchange`).
-/
set_option autoImplicit false

namespace Mustache

open Json

/-! ## Values that say a tree -/

/-- Whether a member says a location. One that is missing says that the place is unknown. -/
inductive Location.SaidBy : Location → Option Value → Prop
  | missing : Location.SaidBy .unknown none
  | object {line column : UInt32} {members : Members} :
      members.get? "line" = some (.ofNat line.toNat) →
      members.get? "column" = some (.ofNat column.toNat) →
      Location.SaidBy ⟨line, column⟩ (some (.obj members))

mutual

/-- Whether a value says a node. -/
inductive Node.SaidBy : Node → Value → Prop
  | text {value : String} {members : Members} :
      members.get? "type" = some (.str "text") →
      members.get? "value" = some (.str value) →
      Node.SaidBy (.text value) (.obj members)
  | interpolation {expression : String} {escape : Bool} {location : Location}
      {members : Members} :
      members.get? "type" = some (.str "interpolation") →
      members.get? "expression" = some (.str expression) →
      members.get? "escape" = some (.bool escape) →
      location.SaidBy (members.get? "location") →
      Node.SaidBy (.interpolation expression escape location) (.obj members)
  | block {kind : BlockKind} {expression : String} {body : List Node} {location : Location}
      {members : Members} {items : List Value} :
      members.get? "type" = some (.str kind.typeName) →
      members.get? "expression" = some (.str expression) →
      members.get? "body" = some (.arr items) → NodesSaidBy body items →
      location.SaidBy (members.get? "location") →
      Node.SaidBy (.block kind expression body location) (.obj members)
  | inclusion {name : String} {location : Location} {members : Members} :
      members.get? "type" = some (.str "partial") →
      members.get? "name" = some (.str name) →
      location.SaidBy (members.get? "location") →
      Node.SaidBy (.inclusion name location) (.obj members)
  | element {tag : String} {attributes : List Attribute} {children : List Node}
      {members : Members} {attributeItems items : List Value} :
      members.get? "type" = some (.str "element") →
      members.get? "tag" = some (.str tag) →
      members.get? "attributes" = some (.arr attributeItems) →
      AttributesSaidBy attributes attributeItems →
      members.get? "children" = some (.arr items) → NodesSaidBy children items →
      Node.SaidBy (.element tag attributes children) (.obj members)

/-- Whether values say nodes, one each. -/
inductive NodesSaidBy : List Node → List Value → Prop
  | nil : NodesSaidBy [] []
  | cons {node : Node} {value : Value} {nodes : List Node} {values : List Value} :
      node.SaidBy value → NodesSaidBy nodes values → NodesSaidBy (node :: nodes) (value :: values)

/-- Whether a value says an attribute. -/
inductive Attribute.SaidBy : Attribute → Value → Prop
  | static {name value : String} {members : Members} :
      members.get? "name" = some (.str name) → members.get? "value" = some (.str value) →
      Attribute.SaidBy (.static name value) (.obj members)
  | dynamic {name : String} {parts : List Node} {members : Members} {items : List Value} :
      members.get? "name" = some (.str name) → members.get? "value" = some (.arr items) →
      NodesSaidBy parts items → Attribute.SaidBy (.dynamic name parts) (.obj members)

/-- Whether values say attributes, one each. -/
inductive AttributesSaidBy : List Attribute → List Value → Prop
  | nil : AttributesSaidBy [] []
  | cons {attr : Attribute} {value : Value} {attrs : List Attribute} {values : List Value} :
      attr.SaidBy value → AttributesSaidBy attrs values →
      AttributesSaidBy (attr :: attrs) (value :: values)

end

/-- Whether a value says a tree. -/
inductive Tree.SaidBy : Tree → Value → Prop
  | object {file : String} {target : Target} {nodes : List Node} {members : Members}
      {items : List Value} :
      members.get? "filePath" = some (.str file) →
      members.get? "target" = some (.str target.name) →
      members.get? "nodes" = some (.arr items) → NodesSaidBy nodes items →
      Tree.SaidBy ⟨file, target, nodes⟩ (.obj members)

/-! ## Reading what is said -/

theorem word?_ofNat (word : UInt32) : (Value.ofNat word.toNat).word? = some word := by
  have hfits : 0 ≤ (word.toNat : Int) ∧ (word.toNat : Int) < (Nat.pow 2 32 : Nat) :=
    ⟨Int.natCast_nonneg _, Int.ofNat_lt.mpr word.toNat_lt⟩
  simp only [Value.ofNat, Json.Value.word?, hfits, and_self, if_true, Int.toNat_natCast,
    UInt32.ofNat_toNat]

theorem get?_formsOfMembers (members : Members) (name : String) :
    NameMap.get? (formsOfMembers members) name
      = (members.get? name).map fun value => (value, value.forms) := by
  induction members with
  | nil => rfl
  | cons member rest ih =>
      obtain ⟨k, value⟩ := member
      rw [formsOfMembers, NameMap.get?, NameMap.get?]
      split_ifs
      · rfl
      · exact ih

theorem lookup_eq_get? (members : Members) (name : String) :
    members.lookup name = members.get? name := by
  induction members with
  | nil => rfl
  | cons member rest ih =>
      obtain ⟨k, value⟩ := member
      rw [List.lookup_cons, NameMap.get?, ih]
      by_cases h : name = k
      · simp [h]
      · rw [beq_false_of_ne h, if_neg h]

section

variable {members : Members}

-- Lean would count up to `2 ^ 32` to compute `word?`, so its equation is applied as it stands.
theorem ofMembers?_of_words {line column : UInt32}
    (hline : members.get? "line" = some (.ofNat line.toNat))
    (hcolumn : members.get? "column" = some (.ofNat column.toNat)) :
    Location.ofMembers? members = some ⟨line, column⟩ :=
  Option.bind_eq_some_iff.mpr ⟨_, hline, Option.bind_eq_some_iff.mpr ⟨line, word?_ofNat line,
    Option.bind_eq_some_iff.mpr ⟨_, hcolumn, Option.bind_eq_some_iff.mpr
      ⟨column, word?_ofNat column, rfl⟩⟩⟩⟩

theorem Location.SaidBy.read {location : Location}
    (h : location.SaidBy (members.get? "location")) :
    locationAmong? (formsOfMembers members) = some location := by
  rw [locationAmong?, get?_formsOfMembers]
  generalize members.get? "location" = member at h
  cases h with
  | missing => rfl
  | object hline hcolumn => exact ofMembers?_of_words hline hcolumn

theorem stringAmong?_formsOfMembers {name s : String} (h : members.get? name = some (.str s)) :
    stringAmong? (formsOfMembers members) name = some s := by
  rw [stringAmong?, get?_formsOfMembers, h]
  rfl

theorem attr_forms :
    (Value.obj members).forms.attr = attributeOfMembers? (formsOfMembers members) :=
  rfl

theorem node_forms {type : String} (h : members.get? "type" = some (.str type)) :
    (Value.obj members).forms.node = nodeOfMembers? type (formsOfMembers members)
      ∧ (Value.obj members).namesType = true := by
  constructor
  · simp only [Json.Value.forms, Forms.ofMembers, get?_formsOfMembers, h]
    rfl
  · simp only [Json.Value.namesType, lookup_eq_get?, h]
    rfl

end

mutual

theorem Node.SaidBy.read {node : Node} {value : Value} (h : node.SaidBy value) :
    value.forms.node = some node ∧ value.namesType = true := by
  cases h with
  | text htype hvalue =>
      obtain ⟨hnode, hnames⟩ := node_forms htype
      refine ⟨hnode.trans ?_, hnames⟩
      simp [nodeOfMembers?, stringAmong?_formsOfMembers hvalue]
  | interpolation htype hexpression hescape hlocation =>
      obtain ⟨hnode, hnames⟩ := node_forms htype
      refine ⟨hnode.trans ?_, hnames⟩
      simp [nodeOfMembers?, stringAmong?_formsOfMembers hexpression, get?_formsOfMembers, hescape,
        Json.Value.bool?, hlocation.read]
  | @block kind _ _ _ _ _ htype hexpression hbody hnodes hlocation =>
      obtain ⟨hnode, hnames⟩ := node_forms htype
      have hread := hnodes.read.1
      refine ⟨hnode.trans ?_, hnames⟩
      cases kind <;> simp [nodeOfMembers?, blockOfMembers?, BlockKind.typeName,
        stringAmong?_formsOfMembers hexpression, get?_formsOfMembers, hbody, hread, hlocation.read]
  | inclusion htype hname hlocation =>
      obtain ⟨hnode, hnames⟩ := node_forms htype
      refine ⟨hnode.trans ?_, hnames⟩
      simp [nodeOfMembers?, BlockKind.typeName, stringAmong?_formsOfMembers hname, hlocation.read]
  | element htype htag hattributes hattrs hchildren hnodes =>
      obtain ⟨hnode, hnames⟩ := node_forms htype
      have hread := hnodes.read.1
      have hreadAttributes := hattrs.read
      refine ⟨hnode.trans ?_, hnames⟩
      simp [nodeOfMembers?, BlockKind.typeName, stringAmong?_formsOfMembers htag,
        get?_formsOfMembers, hattributes, hchildren, hread, hreadAttributes]

theorem NodesSaidBy.read {nodes : List Node} {values : List Value} (h : NodesSaidBy nodes values) :
    (Value.arr values).forms.nodes = some nodes ∧ values.all Json.Value.namesType = true := by
  cases h with
  | nil => exact ⟨rfl, rfl⟩
  | cons hnode hnodes =>
      obtain ⟨hfirst, hnames⟩ := hnode.read
      obtain ⟨hrest, hall⟩ := hnodes.read
      constructor
      · simp only [Json.Value.forms, Forms.ofItems, formsOfItems] at hrest ⊢
        simp [hfirst, hrest]
      · rw [List.all_cons, hnames, hall]
        rfl

theorem Attribute.SaidBy.read {attr : Attribute} {value : Value} (h : attr.SaidBy value) :
    value.forms.attr = some attr := by
  cases h with
  | static hname hvalue =>
      simp [attr_forms, attributeOfMembers?, stringAmong?_formsOfMembers hname,
        get?_formsOfMembers, hvalue]
  | dynamic hname hvalue hnodes =>
      simp [attr_forms, attributeOfMembers?, stringAmong?_formsOfMembers hname,
        get?_formsOfMembers, hvalue, hnodes.read.1]

theorem AttributesSaidBy.read {attrs : List Attribute} {values : List Value}
    (h : AttributesSaidBy attrs values) : (Value.arr values).forms.attrs = some attrs := by
  cases h with
  | nil => rfl
  | cons hattr hattrs =>
      have hfirst := hattr.read
      have hrest := hattrs.read
      simp only [Json.Value.forms, Forms.ofItems, formsOfItems] at hrest ⊢
      simp [hfirst, hrest]

end

theorem Tree.SaidBy.read {tree : Tree} {value : Value} (h : tree.SaidBy value) :
    Tree.ofJson? value = some tree := by
  cases h with
  | object hfile htarget hnodes hsaid =>
      obtain ⟨hread, hall⟩ := hsaid.read
      simp only [Tree.ofJson?, Tree.ofMembers?, hfile, htarget, hnodes, Json.Value.string?,
        Target.ofJson?, Target.ofName?_name, topNodes?, hall, if_true, hread,
        Option.bind_eq_bind, Option.bind_some]

/-! ## Writing -/

section

open NameMap

/-- A location is written to a value that says it. -/
theorem Location.saidBy_toJson (location : Location) : location.SaidBy (some location.toJson) := by
  refine .object ?_ ?_ <;> simp [insertAll, get?_insert]

mutual

/-- A node is written to a value that says it. -/
theorem Node.saidBy_toJson (node : Node) : node.SaidBy node.toJson := by
  cases node with
  | text value => refine .text ?_ ?_ <;> simp [insertAll, get?_insert]
  | interpolation expression escape location =>
      refine .interpolation ?_ ?_ ?_ ?_ <;>
        simp [insertAll, get?_insert, location.saidBy_toJson]
  | block kind expression body location =>
      refine .block ?_ ?_ ?_ (nodesSaidBy_toJson body) ?_ <;>
        simp [insertAll, get?_insert, location.saidBy_toJson]
  | inclusion name location =>
      refine .inclusion ?_ ?_ ?_ <;> simp [insertAll, get?_insert, location.saidBy_toJson]
  | element tag attributes children =>
      refine .element ?_ ?_ ?_ (attributesSaidBy_toJson attributes) ?_
        (nodesSaidBy_toJson children) <;> simp [insertAll, get?_insert]

/-- Nodes are written to values that say them. -/
theorem nodesSaidBy_toJson (nodes : List Node) : NodesSaidBy nodes (nodesToJson nodes) := by
  cases nodes with
  | nil => exact .nil
  | cons node rest => exact .cons node.saidBy_toJson (nodesSaidBy_toJson rest)

/-- An attribute is written to a value that says it. -/
theorem Attribute.saidBy_toJson (attr : Attribute) : attr.SaidBy attr.toJson := by
  cases attr with
  | static name value => refine .static ?_ ?_ <;> simp [insertAll, get?_insert]
  | dynamic name parts =>
      refine .dynamic ?_ ?_ (nodesSaidBy_toJson parts) <;> simp [insertAll, get?_insert]

/-- Attributes are written to values that say them. -/
theorem attributesSaidBy_toJson (attrs : List Attribute) :
    AttributesSaidBy attrs (attributesToJson attrs) := by
  cases attrs with
  | nil => exact .nil
  | cons attr rest => exact .cons attr.saidBy_toJson (attributesSaidBy_toJson rest)

end

/-- A tree is written to a value that says it. -/
theorem Tree.saidBy_toJson (tree : Tree) : tree.SaidBy tree.toJson := by
  refine .object ?_ ?_ ?_ (nodesSaidBy_toJson tree.nodes) <;> simp [insertAll, get?_insert]

end

/-- A tree that is written and read again is the tree that it was. So is one that was read of
any value, and written and read again; and a tree is read of each value that says it, with its
members in any order and among others, and without places that are unknown. -/
theorem tree_survives_exchange :
    (∀ tree : Tree, Tree.ofJson? tree.toJson = some tree)
    ∧ (∀ value tree, Tree.ofJson? value = some tree → Tree.ofJson? tree.toJson = some tree)
    ∧ ∀ (tree : Tree) (value : Value), tree.SaidBy value → Tree.ofJson? value = some tree :=
  ⟨fun tree => tree.saidBy_toJson.read, fun _ tree _ => tree.saidBy_toJson.read,
    fun _ _ h => h.read⟩

end Mustache
