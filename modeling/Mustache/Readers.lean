import Mustache.Json.Record
import Mustache.Markup.Dom

/-!
What is read by others.

Three kinds of text are not read by the library itself: documents, generated scripts and
the records of a configuration. Everything that depends on them takes their readers as a
parameter, so that what is proved holds whatever they are, or rests on what is said of
them by name.
-/
set_option autoImplicit false

namespace Mustache

/-- The readers of documents, scripts and records. -/
structure Readers where
  /-- The document that a text is (`parse_document`). Any text is one. -/
  document : List Char → Markup.Reading
  /-- Whether a text is a script (`oxc_parser`). -/
  isScript : List Char → Bool
  /-- The record that a text spells (`serde_json::from_str`). -/
  record : Json.RecordReader

end Mustache
