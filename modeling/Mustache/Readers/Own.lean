import Mustache.Json.RecordReader
import Mustache.Markup.Reader
import Mustache.Readers
import Mustache.Script.Grammar

/-!
The readers that come with the library.
-/
set_option autoImplicit false

namespace Mustache

/-- Readers of documents, scripts and records that need nothing else. -/
def Readers.own : Readers where
  document := Markup.readDocument
  isScript := Script.isScript
  record := Json.readRecord

end Mustache
