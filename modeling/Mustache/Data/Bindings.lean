import Mustache.Data.Lookup
import Mustache.Options.Basic

/-!
The data of a block.

A section is shown for each element in a scope of its own: the parent's entries,
then `.`, `.index` and `.length`, then the entries of the element, where a later
entry replaces an earlier one of the same name. An inverted section has the
parent's entries alone.
-/
set_option autoImplicit false

namespace Mustache

open Json Text

/-! ## Entries -/

/-- Things under the names of their positions, from `first` on. -/
def numbered (first : Nat) : List Value → List (String × Value)
  | [] => []
  | value :: rest => (String.ofList (Text.decimal first), value) :: numbered (first + 1) rest

/-- The entries that a value has of its own. -/
def entries : Value → List (String × Value)
  | .obj members => members
  | .arr items => numbered 0 items
  | .str s => numbered 0 ((units s.toList).map unitValue)
  | .null | .bool _ | .num _ => []

/-- Members with the entries of a value set on top of them (`merge_into`). -/
def overlay (members : Members) (value : Value) : Members :=
  NameMap.insertAll members (entries value)

/-! ## Block scopes -/

/-- What a section binds for an element besides the element's own entries. -/
def elementBindings (element : Value) (index count : Nat) : List (String × Value) :=
  [(".", element), (".index", .ofNat index), (".length", .ofNat count)]

/-- The scope of one element of a section. -/
def elementScope (parent element : Value) (index count : Nat) : Value :=
  -- Later ones replace earlier ones, so the element's own entries win.
  .obj (overlay (NameMap.insertAll (overlay [] parent) (elementBindings element index count))
    element)

/-- The scopes of elements from position `index` on. -/
def elementScopesFrom (parent : Value) (count index : Nat) : List Value → List Value
  | [] => []
  | element :: rest =>
      elementScope parent element index count :: elementScopesFrom parent count (index + 1) rest

/-- The scopes that a section is shown in (`section_scopes`). -/
def sectionScopes (parent : Value) (expression : String) : List Value :=
  let found := elements parent expression
  elementScopesFrom parent found.length 0 found

/-- Whether an inverted section is hidden by the value of its expression (`inverted_hides`). -/
def isHidden (policy : InvertedPolicy) (value : Option Value) : Bool :=
  match value with
  | none => false
  | some value =>
      value.truthy &&
        match policy with
        | .arrayAware => isBoolean value || hasPositiveLength value || !isArray value
        | .lengthOnly => isBoolean value || hasPositiveLength value

/-- The scopes that an inverted section is shown in (`inverted_scope`): none if it is hidden, and
otherwise one. -/
def invertedScopes (policy : InvertedPolicy) (parent : Value) (expression : String) :
    List Value :=
  if isHidden policy (lookup parent expression false) then []
  else [.obj (overlay [] parent)]

/-- The scopes that a block is shown in. -/
def blockScopes (policy : InvertedPolicy) (kind : BlockKind) (parent : Value)
    (expression : String) : List Value :=
  match kind with
  | .normal => sectionScopes parent expression
  | .inverted => invertedScopes policy parent expression

end Mustache
