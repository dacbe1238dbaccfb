/-
The tokens of markup.

Markup is text, tags, comments and document types. Nothing depends on what a
comment says; of a document type only its identifiers count, since they decide
how lenient the document is read.
-/
set_option autoImplicit false

namespace Mustache.Markup

/-- An attribute of a tag, with its name in lower case. -/
structure TagAttribute where
  name : List Char
  value : List Char
  deriving DecidableEq, Repr

/-- A start or an end tag, with its name in lower case. -/
structure TagToken where
  name : String
  attributes : List TagAttribute
  /-- Whether the tag ends in a slash. -/
  selfClosing : Bool
  deriving DecidableEq, Repr

/-- A document type. -/
structure Doctype where
  name : Option (List Char)
  publicId : Option (List Char)
  systemId : Option (List Char)
  /-- Whether it is too broken to be taken for any known type. -/
  broken : Bool
  deriving DecidableEq, Repr

/-- A token of markup. -/
inductive Token where
  /-- Text without NUL; it is empty where something wrong stands for nothing. -/
  | text (chars : List Char)
  /-- A NUL in text. -/
  | nul
  | startTag (tag : TagToken)
  | endTag (tag : TagToken)
  | comment
  | doctype (doctype : Doctype)
  | endOfFile
  deriving DecidableEq, Repr

/-- How text is read up to the next tag. -/
inductive Content where
  /-- Text with references, tags and comments. -/
  | normal
  /-- Text with references, up to the end tag of this name. -/
  | withReferences (name : String)
  /-- Text as it stands, up to the end tag of this name. -/
  | raw (name : String)
  /-- The text of a script. -/
  | script
  /-- Text as it stands, to the end. -/
  | plain
  deriving DecidableEq, Repr

/-- The blanks of markup. -/
def isSpace (c : Char) : Bool :=
  c == ' ' || c == '\t' || c == '\n' || c == '\r' || c.toNat == 0x0C

end Mustache.Markup
