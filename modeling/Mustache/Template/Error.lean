import Mustache.Template.Location

/-!
What can be wrong with a template, and how it is reported.

`TemplateError` has one constructor for each cause. A `Report` is what a user
sees of it: a code, the class of the error, the rule that was broken, the place,
and hints. The class and the rule depend on the code alone.
-/
set_option autoImplicit false

namespace Mustache

/-! ## Reports -/

/-- The code of a close tag without an open block. -/
def codeUnexpectedClose : String := "STACHE-E001"

/-- The code of a block that is never closed. -/
def codeMissingEnd : String := "STACHE-E002"

/-- The code of markup that cannot be read. -/
def codeMarkup : String := "STACHE-E003"

/-- The code of a generated module that does not parse. -/
def codeInvalidOutput : String := "STACHE-E004"

/-- The rule that an error of this code breaks (`get_guarantee`). -/
def guaranteeOf (code : String) : String :=
  if code = codeUnexpectedClose then "Every block close tag closes exactly one open block."
  else if code = codeMissingEnd then
    "Every open block is closed before the end of the template."
  else if code = codeMarkup then "Structural templates are readable as host markup."
  else if code = codeInvalidOutput then
    "Compiled render modules are syntactically valid JavaScript."
  else "Unknown invariant."

/-- The class of an error of this code (`get_error_type`). -/
def errorTypeOf (code : String) : String :=
  if code = codeUnexpectedClose ∨ code = codeMissingEnd then "BLOCK_STRUCTURE"
  else if code = codeMarkup then "MARKUP"
  else "COMPILER_INVARIANT_VIOLATION"

/-- An error as it is shown to a user (`CompilerError`). -/
structure Report where
  code : String
  message : String
  /-- The name of the template. -/
  file : String
  location : Location
  /-- The text that the error is about, if it is about one. -/
  context : Option String
  hints : List String
  deriving DecidableEq, Repr

/-- The class of the reported error. -/
def Report.errorType (report : Report) : String :=
  errorTypeOf report.code

/-- The rule that the reported error breaks. -/
def Report.guarantee (report : Report) : String :=
  guaranteeOf report.code

/-! ## Causes -/

/-- What can be wrong with a template. -/
inductive TemplateError where
  /-- A close tag stands where no block is open. -/
  | unexpectedClose (name file : String) (location : Location)
  /-- A block is still open at the end. -/
  | missingEnd (file : String)
  /-- Text stands directly in a table, where markup may not hold it. -/
  | tableText (file : String) (line : UInt32)
  /-- The generated module is not a well-formed script. -/
  | invalidOutput (file : String)
  deriving DecidableEq, Repr

namespace TemplateError

def code : TemplateError → String
  | .unexpectedClose .. => codeUnexpectedClose
  | .missingEnd _ => codeMissingEnd
  | .tableText .. => codeMarkup
  | .invalidOutput _ => codeInvalidOutput

/-- The name of the template that an error is about. -/
def file : TemplateError → String
  | .unexpectedClose _ file _ => file
  | .missingEnd file => file
  | .tableText file _ => file
  | .invalidOutput file => file

/-- The place of an error. Only a stray close tag has a column. -/
def location : TemplateError → Location
  | .unexpectedClose _ _ location => location
  | .tableText _ line => ⟨line, 0⟩
  | .missingEnd _ | .invalidOutput _ => Location.unknown

/-- The wording of an error. -/
def message : TemplateError → String
  | .unexpectedClose name _ location =>
      "Unexpected end of block: " ++ name ++ " line " ++ toString location.line.toNat
  | .missingEnd _ => "Missing end of block"
  | .tableText .. => "Text placed directly inside a table would be moved out of the table"
  | .invalidOutput _ => "Generated code does not parse"

/-- The text that an error is about. -/
def context : TemplateError → Option String
  | .unexpectedClose name _ _ => some ("\x7b\x7b/" ++ name ++ "\x7d\x7d")
  | _ => none

/-- What may mend the template. -/
def hints : TemplateError → List String
  | .unexpectedClose .. =>
      ["Remove the stray close tag or add the matching \x7b\x7b#...\x7d\x7d open tag."]
  | .missingEnd _ => []
  | .tableText .. =>
      ["Wrap the block in a <tbody> and let it repeat whole <tr> rows",
       "Or keep the text inside a <td>, <th> or <caption>"]
  | .invalidOutput _ =>
      ["This is a compiler bug. Please report the template that triggered it."]

/-- The error as it is shown to a user. -/
def report (error : TemplateError) : Report where
  code := error.code
  message := error.message
  file := error.file
  location := error.location
  context := error.context
  hints := error.hints

end TemplateError

end Mustache
