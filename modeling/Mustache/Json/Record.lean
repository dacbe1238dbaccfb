/-
Records that are read from JSON text.

A record is declared by its fields: each has the name of its member, a kind of values, and
a way to set it. What reads a record of any declaration from a text is a parameter
(`serde_json::from_str` with a derived reader); the library only declares its records.
-/
set_option autoImplicit false

namespace Mustache.Json

/-- Why a JSON text cannot be read. -/
inductive Fault where
  /-- It breaks the rules of JSON, or holds a value of a kind that cannot be
  taken here at all. -/
  | malformed
  /-- It is well formed so far but does not say what it should. -/
  | unsuitable
  /-- It ends too early. -/
  | truncated
  deriving DecidableEq, Repr

/-- The values that a field of a record takes, and how they set it. -/
inductive FieldKind (α : Type) where
  | text (put : String → α → α)
  | flag (put : Bool → α → α)
  /-- One of some names, each of which sets the field in its own way. -/
  | choice (variants : List (String × (α → α)))

/-- A field of a record. -/
structure Field (α : Type) where
  name : String
  kind : FieldKind α

/-- A record, with the values that its fields have where they are not given. -/
structure Record (α : Type) where
  default : α
  fields : List (Field α)

def Record.field? {α : Type} (record : Record α) (name : String) : Option (Field α) :=
  record.fields.find? (·.name = name)

/-- What reads records, whatever their declaration. -/
abbrev RecordReader : Type 1 :=
  {α : Type} → Record α → List Char → Except Fault α

end Mustache.Json
