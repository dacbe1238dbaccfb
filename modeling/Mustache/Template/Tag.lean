import Mustache.Template.Location

/-!
Tags: what stands between double braces.

A tag's key is the text between the opening braces (after blanks) and the
closing ones. Its first character may be a sigil, which says what the tag does;
the rest, without the blanks around it, is the expression. The triple-brace form
needs no rule of its own: its third brace is the first character of the key, and
so a sigil.
-/
set_option autoImplicit false

namespace Mustache

open Text

/-! ## Sigils -/

/-- What a tag does. -/
inductive Sigil where
  /-- `#` opens a section. -/
  | blockOpen
  /-- `/` closes the innermost open block. -/
  | blockClose
  /-- `^` opens an inverted section. -/
  | invertedOpen
  /-- `>` includes another template. -/
  | inclusion
  /-- `!` starts a comment. -/
  | comment
  /-- `{`, from a triple brace, interpolates without escaping. -/
  | raw
  /-- No sigil: an escaped interpolation. -/
  | plain
  deriving DecidableEq, Repr

/-- The sigil that a key starts with (`Sigil::classify`). -/
def Sigil.ofKey : List Char → Sigil
  | '#' :: _ => .blockOpen
  | '/' :: _ => .blockClose
  | '^' :: _ => .invertedOpen
  | '>' :: _ => .inclusion
  | '!' :: _ => .comment
  | '{' :: _ => .raw
  | _ => .plain

/-- The key without its sigil. -/
def Sigil.strip (sigil : Sigil) (key : List Char) : List Char :=
  match sigil with
  | .plain => key
  | _ => key.drop 1

/-! ## Tags -/

/-- A tag of a template. -/
structure Tag where
  /-- The byte offset of the opening braces. -/
  start : Nat
  /-- The tag as written, braces included. -/
  text : List Char
  /-- What the braces hold, from the first character that is not skipped. -/
  key : List Char
  deriving DecidableEq, Repr

namespace Tag

/-- The byte offset just past the closing braces. -/
def stop (tag : Tag) : Nat :=
  tag.start + byteLength tag.text

/-- What a tag does, by the first character of its key (`Tag::sigil`). -/
def sigil (tag : Tag) : Sigil :=
  Sigil.ofKey tag.key

/-- What the tag names (`Tag::expression`): its key without the sigil and the blanks around it. A
key of blanks alone is kept as it is. -/
def expression (tag : Tag) : List Char :=
  let body := tag.sigil.strip tag.key
  let trimmed := trim body
  if trimmed.isEmpty then body else trimmed

/-- Where the tag stands (`tag_location`). The line is the one that the tag ends on, the column that
of its first brace. -/
def location (source : List Char) (tag : Tag) : Location where
  line := lineAt source tag.stop
  column := columnAfter (takeBytes tag.start source)

end Tag

/-- A piece of a template: text to be copied, or a tag. -/
inductive Segment where
  | literal (text : List Char)
  | tag (tag : Tag)
  deriving DecidableEq, Repr

/-- The piece as it stands in the template. -/
def Segment.text : Segment → List Char
  | .literal s => s
  | .tag t => t.text

end Mustache
