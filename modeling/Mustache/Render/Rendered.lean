import Mustache.Data.NameMap

/-!
What a structural template renders to.
-/
set_option autoImplicit false

namespace Mustache

/-- An entry of a structural result (`RenderedNode`): a text, or an element with its attributes in
the order of their names. -/
inductive Rendered where
  | text (value : String)
  | element (tag : String) (attributes : List (String × String)) (children : List Rendered)

end Mustache
