import Mustache.Json.Record
import Mustache.Proofs.Json.Grammar

/-!
What is relied on of a reader of records.

Records are read by code that is not part of the library (`serde_json::from_str`, into a type
with a derived `Deserialize`). What its documentation promises is said here of one more member
at the end of an object (`RecordReader.Lawful`). What holds of a whole object follows from the
right, one member after another, since the members in front of the last make up an object too
(`SpellsItem.exists_init`).
-/
set_option autoImplicit false

namespace Mustache.Json

/-! ## Promises -/

/-- Whether a phrase gives a value of a kind, and how that changes a record. A choice is given
by its name, which may also be the name of the one member of an object, with `null` as its
value. -/
inductive FieldKind.GivenBy {α : Type} : FieldKind α → Phrase → (α → α) → Prop
  | text {put : String → α → α} {value : String} {units : List Nat} :
      UnitsOf units value.toList → GivenBy (.text put) (.string units) (put value)
  | flag {put : Bool → α → α} {value : Bool} : GivenBy (.flag put) (.bool value) (put value)
  | name {variants : List (String × (α → α))} {name : String} {change : α → α}
      {units : List Nat} : variants.lookup name = some change → UnitsOf units name.toList →
      GivenBy (.choice variants) (.string units) change
  | object {variants : List (String × (α → α))} {name : String} {change : α → α}
      {units : List Nat} : variants.lookup name = some change → UnitsOf units name.toList →
      GivenBy (.choice variants) (.object [(units, .null)]) change

/-- What is relied on of a reader of records. In all of this the text of an object is any that
the grammar of JSON gives, with blanks and escapes in it. -/
structure RecordReader.Lawful (reader : RecordReader) : Prop where
  /-- Where no field is given, the record is the default (`#[serde(default)]` on the type). -/
  empty : ∀ {α : Type} (record : Record α) {s : List Char}, SpellsItem s (.object []) →
    reader record s = .ok record.default
  /-- A field that is given last, and was not given before, is set to its value: members are
  taken by their names, in any order. -/
  field : ∀ {α : Type} (record : Record α) {s t : List Char}
    {members : List (List Nat × Phrase)} {units : List Nat} {value : Phrase} {current : α}
    {field : Field α} {change : α → α}, SpellsItem s (.object members) →
    reader record s = .ok current → SpellsItem t (.object (members ++ [(units, value)])) →
    UnitsOf units field.name.toList → record.field? field.name = some field →
    (∀ member ∈ members, ¬ UnitsOf member.1 field.name.toList) →
    field.kind.GivenBy value change → reader record t = .ok (change current)
  /-- A member that is no field's is ignored, whatever its value (no `deny_unknown_fields`). -/
  unknown : ∀ {α : Type} (record : Record α) {s t : List Char}
    {members : List (List Nat × Phrase)} {units : List Nat} {value : Phrase} {current : α}
    {name : String}, SpellsItem s (.object members) → reader record s = .ok current →
    SpellsItem t (.object (members ++ [(units, value)])) → UnitsOf units name.toList →
    record.field? name = none → reader record t = .ok current
  /-- Each member has a text as its name: an unpaired surrogate in a name is an error (a "lone
  leading surrogate in hex escape"), since names are read before they are compared. -/
  names : ∀ {α : Type} (record : Record α) {s : List Char}
    {members : List (List Nat × Phrase)} {current : α}, SpellsItem s (.object members) →
    reader record s = .ok current → ∀ member ∈ members, ∃ name, UnitsOf member.1 name

/-! ## Members of objects -/

/-- The members in front of the last make up an object too. -/
theorem SpellsItem.exists_init {t : List Char} {members : List (List Nat × Phrase)}
    {last : List Nat × Phrase} (h : SpellsItem t (.object (members ++ [last]))) :
    ∃ s, SpellsItem s (.object members) := by
  have hmore {s : List Char} {members : List (List Nat × Phrase)}
      (h : SpellsMembers s (members ++ [last])) : ∃ s', SpellsMembers s' members := by
    induction members generalizing s with
    | nil => exact ⟨[], .nil⟩
    | cons first rest ih =>
        cases h with
        | cons hfirst hrest =>
            obtain ⟨s', hs'⟩ := ih hrest
            exact ⟨_, .cons hfirst hs'⟩
  cases members with
  | nil => exact ⟨_, (Spells.emptyObject isBlank_nil).item⟩
  | cons first rest =>
      obtain ⟨-, h, -⟩ := h
      cases h with
      | object hfirst hrest =>
          obtain ⟨s', hs'⟩ := hmore hrest
          exact ⟨_, (Spells.object hfirst hs').item⟩

end Mustache.Json
