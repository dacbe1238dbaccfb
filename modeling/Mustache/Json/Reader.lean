import Mustache.Json.Token

/-!
Reading a JSON value.

The reader walks over the tokens once. It keeps the containers that are open,
the innermost first, and what may come next; a finished value goes into the
innermost container, or is the result if none is open.
-/
set_option autoImplicit false

namespace Mustache.Json

/-! ## The state of the reader -/

/-- A container that is still open. -/
inductive Frame where
  /-- An array, with its items so far, the latest first. -/
  | array (items : List Value)
  /-- An object, with its members so far and the name of the one being read. -/
  | object (members : Members) (name : String)

/-- What may come next. -/
inductive Expectation where
  /-- A value. -/
  | value
  /-- A value, or the end of the array just opened. -/
  | firstItem
  /-- The name of a member, or the end of the object just opened. -/
  | firstName (members : Members)
  /-- The name of a member. -/
  | name (members : Members)
  /-- The colon after a name. -/
  | colon
  /-- A comma or the end of the array. -/
  | afterItem
  /-- A comma or the end of the object. -/
  | afterMember (members : Members)
  /-- Nothing: the value is complete. -/
  | nothing (result : Value)

/-- How far the reader is. -/
structure Progress where
  frames : List Frame
  expectation : Expectation

/-- Puts a finished value in its place. -/
def Progress.put (frames : List Frame) (value : Value) : Progress :=
  match frames with
  | [] => ⟨[], .nothing value⟩
  | .array items :: rest => ⟨.array (value :: items) :: rest, .afterItem⟩
  | .object members name :: rest => ⟨rest, .afterMember (NameMap.insert name value members)⟩

/-- The value that a token starts: a scalar, or a container that is opened. -/
def Progress.begin (frames : List Frame) : Token → Option Progress
  | .null => some (put frames .null)
  | .bool b => some (put frames (.bool b))
  | .number negative whole numeral =>
      (numberValue negative whole numeral).toOption.map fun n => put frames (.num n)
  | .string units => (stringText units).toOption.map fun s => put frames (.str s)
  | .openArray => some ⟨.array [] :: frames, .firstItem⟩
  | .openObject => some ⟨frames, .firstName []⟩
  | _ => none

/-- Ends the innermost array. -/
def Progress.endArray : List Frame → Option Progress
  | .array items :: rest => some (put rest (.arr items.reverse))
  | _ => none

/-- Takes the next token. -/
def Progress.step (p : Progress) (token : Token) : Option Progress :=
  match p.expectation, token with
  | .value, token => begin p.frames token
  | .firstItem, .closeArray => endArray p.frames
  | .firstItem, token => begin p.frames token
  | .firstName members, .closeObject => some (put p.frames (.obj members))
  | .firstName members, .string units | .name members, .string units =>
      (stringText units).toOption.map fun s => ⟨.object members s :: p.frames, .colon⟩
  | .colon, .colon => some ⟨p.frames, .value⟩
  | .afterItem, .comma => some ⟨p.frames, .value⟩
  | .afterItem, .closeArray => endArray p.frames
  | .afterMember members, .comma => some ⟨p.frames, .name members⟩
  | .afterMember members, .closeObject => some (put p.frames (.obj members))
  | _, _ => none

/-- The value that a JSON text spells. -/
def read? (s : List Char) : Option Value :=
  match (tokens s).foldlM Progress.step ⟨[], .value⟩ with
  | some ⟨_, .nothing result⟩ => some result
  | _ => none

end Mustache.Json
