import Mustache.Json.Token

/-!
A reader of records.

The text is an object whose members may come in any order, each field at most once,
among members of any other name, which are skipped; fields that are not given keep
their default. An array of the fields in their order is taken as well, and may stop
early. A choice is its name, or an object with the name as its one member and `null`
as its value.

The reader is a machine over the tokens of the text, so the first thing that is
wrong decides the error. A skipped value has only to be well formed: its numbers
may be out of range and its strings may hold unpaired surrogates.
-/
set_option autoImplicit false

namespace Mustache.Json

namespace RecordReading

/-! ## States -/

/-- What a record holds so far. -/
structure Draft (α : Type) where
  value : α
  /-- The names of the fields that were given. -/
  seen : List String

/-- A draft with its record changed. -/
def Draft.put {α : Type} (draft : Draft α) (change : α → α) : Draft α :=
  { draft with value := change draft.value }

/-- Where the value of a field stands. -/
inductive Place (α : Type) where
  /-- In a member of an object. -/
  | member
  /-- In an array, before the values of these fields. -/
  | item (later : List (Field α))

/-- A container inside a skipped value. -/
inductive Container where
  | array
  | object
  deriving DecidableEq, Repr

/-- What may come next in a skipped value. -/
inductive SkipExpectation where
  | value
  | firstItem
  | firstName
  | name
  | colon
  | afterPart
  deriving DecidableEq, Repr

/-- What was read and what may come next. -/
inductive State (α : Type) where
  /-- Nothing was read. -/
  | start
  /-- An object was opened. -/
  | firstName (draft : Draft α)
  /-- A comma came after a member. -/
  | name (draft : Draft α)
  /-- The name of a member was read; no field if it is to be skipped. -/
  | colon (draft : Draft α) (field : Option (Field α))
  /-- The value of a field is next. -/
  | value (draft : Draft α) (place : Place α) (kind : FieldKind α)
  /-- The object form of a choice was opened. -/
  | choiceName (draft : Draft α) (place : Place α) (variants : List (String × (α → α)))
  /-- The name of a choice was read in its object form. -/
  | choiceColon (draft : Draft α) (place : Place α)
  /-- The colon after the name of a choice was read. -/
  | choiceNull (draft : Draft α) (place : Place α)
  /-- The object form of a choice is to be closed. -/
  | choiceEnd (draft : Draft α) (place : Place α)
  /-- A skipped value, with its open containers, the innermost first. -/
  | skip (draft : Draft α) (opened : List Container) (expectation : SkipExpectation)
  /-- A member was read. -/
  | afterMember (draft : Draft α)
  /-- An array was opened. -/
  | firstItem (draft : Draft α)
  /-- An item was read, and these fields may follow. -/
  | afterItem (draft : Draft α) (later : List (Field α))
  /-- All was read. -/
  | done (value : α)

section

variable {α : Type}

/-- What follows a value at a place. -/
def Place.next (draft : Draft α) : Place α → State α
  | .member => .afterMember draft
  | .item later => .afterItem draft later

/-! ## Values -/

/-- The fault of a token where a value of another kind is wanted. The token is
read as far as it goes, so what is wrong with itself comes first. -/
def wrongKind : Token → Fault
  | .null | .bool _ | .openObject | .openArray => .unsuitable
  | .number negative whole numeral =>
      match numberValue negative whole numeral with
      | .ok _ => .unsuitable
      | .error fault => fault
  | .string units =>
      match stringText units with
      | .ok _ => .unsuitable
      | .error fault => fault
  | .brokenString units fault => brokenStringFault units fault
  | .brokenNumber fault | .fault fault => fault
  | .closeObject | .closeArray | .comma | .colon => .malformed

/-- Makes a choice, by the units of a name. -/
def Draft.choose (draft : Draft α) (variants : List (String × (α → α))) (units : List Nat) :
    Except Fault (Draft α) := do
  match variants.lookup (← stringText units) with
  | some change => .ok (draft.put change)
  | none => .error .unsuitable

def stepValue (draft : Draft α) (place : Place α) (kind : FieldKind α) (token : Token) :
    Except Fault (State α) :=
  match kind, token with
  | .text put, .string units => do .ok (place.next (draft.put (put (← stringText units))))
  | .flag put, .bool b => .ok (place.next (draft.put (put b)))
  | .text _, token | .flag _, token => .error (wrongKind token)
  | .choice variants, .string units => do .ok (place.next (← draft.choose variants units))
  | .choice variants, .openObject => .ok (.choiceName draft place variants)
  | .choice _, .brokenString units fault => .error (brokenStringFault units fault)
  | .choice _, _ => .error .malformed

/-! ## Names -/

/-- Takes the name of a member. A field that was given before is refused at its name. -/
def stepName (record : Record α) (draft : Draft α) : Token → Except Fault (State α)
  | .string units => do
      match record.field? (← stringText units) with
      | none => .ok (.colon draft none)
      | some field =>
          if field.name ∈ draft.seen then .error .unsuitable
          else .ok (.colon { draft with seen := field.name :: draft.seen } (some field))
  | .brokenString units fault => .error (brokenStringFault units fault)
  | _ => .error .malformed

/-! ## Skipped values -/

/-- What follows a part of a skipped value. -/
def afterSkipped (draft : Draft α) : List Container → State α
  | [] => .afterMember draft
  | opened => .skip draft opened .afterPart

/-- Takes the first token of a value inside a skipped value. -/
def stepSkippedValue (draft : Draft α) (opened : List Container) :
    Token → Except Fault (State α)
  | .null | .bool _ | .number .. | .string _ => .ok (afterSkipped draft opened)
  | .openArray => .ok (.skip draft (.array :: opened) .firstItem)
  | .openObject => .ok (.skip draft (.object :: opened) .firstName)
  | .brokenString _ fault | .fault fault => .error fault
  | .brokenNumber _ | .closeObject | .closeArray | .comma | .colon => .error .malformed

/-- Takes a token inside a skipped value. -/
def stepSkip (draft : Draft α) (opened : List Container) (expectation : SkipExpectation)
    (token : Token) : Except Fault (State α) :=
  match expectation, opened, token with
  | .firstItem, _ :: outer, .closeArray => .ok (afterSkipped draft outer)
  | .firstItem, _, token | .value, _, token => stepSkippedValue draft opened token
  | .firstName, _ :: outer, .closeObject => .ok (afterSkipped draft outer)
  | .firstName, _, .string _ | .name, _, .string _ => .ok (.skip draft opened .colon)
  | .firstName, _, .brokenString _ fault | .name, _, .brokenString _ fault => .error fault
  | .colon, _, .colon => .ok (.skip draft opened .value)
  | .afterPart, .array :: _, .comma => .ok (.skip draft opened .value)
  | .afterPart, .object :: _, .comma => .ok (.skip draft opened .name)
  | .afterPart, .array :: outer, .closeArray => .ok (afterSkipped draft outer)
  | .afterPart, .object :: outer, .closeObject => .ok (afterSkipped draft outer)
  | _, _, _ => .error .malformed

/-! ## The machine -/

/-- The draft before anything is read. -/
def Draft.initial (record : Record α) : Draft α := ⟨record.default, []⟩

/-- Takes the next token. -/
def State.step (record : Record α) (state : State α) (token : Token) : Except Fault (State α) :=
  match state, token with
  | .start, .openObject => .ok (.firstName (.initial record))
  | .start, .openArray => .ok (.firstItem (.initial record))
  | .start, token => .error (wrongKind token)
  | .firstName draft, .closeObject => .ok (.done draft.value)
  | .firstName draft, token | .name draft, token => stepName record draft token
  | .colon draft (some field), .colon => .ok (.value draft .member field.kind)
  | .colon draft none, .colon => .ok (.skip draft [] .value)
  | .value draft place kind, token => stepValue draft place kind token
  | .choiceName draft place variants, .string units => do
      .ok (.choiceColon (← draft.choose variants units) place)
  | .choiceName .., token => .error (wrongKind token)
  | .choiceColon draft place, .colon => .ok (.choiceNull draft place)
  | .choiceNull draft place, .null => .ok (.choiceEnd draft place)
  | .choiceNull .., token => .error (wrongKind token)
  | .choiceEnd draft place, .closeObject => .ok (place.next draft)
  | .skip draft opened expectation, token => stepSkip draft opened expectation token
  | .afterMember draft, .comma => .ok (.name draft)
  | .afterMember draft, .closeObject => .ok (.done draft.value)
  | .firstItem draft, .closeArray | .afterItem draft _, .closeArray => .ok (.done draft.value)
  | .firstItem draft, token =>
      match record.fields with
      | [] => .error .malformed
      | field :: later => stepValue draft (.item later) field.kind token
  | .afterItem draft (field :: later), .comma => .ok (.value draft (.item later) field.kind)
  | .colon .., _ | .choiceColon .., _ | .choiceEnd .., _ | .afterMember _, _ | .afterItem .., _
  | .done _, _ => .error .malformed

/-- The result where the text ends. -/
def State.finish : State α → Except Fault α
  | .done result => .ok result
  | _ => .error .truncated

end

end RecordReading

open RecordReading in
/-- The record that a text spells, or the first thing that is wrong with it. -/
def readRecord {α : Type} (record : Record α) (s : List Char) : Except Fault α := do
  ((tokens s).foldlM (State.step record) .start : Except Fault (State α)) >>= State.finish

end Mustache.Json
