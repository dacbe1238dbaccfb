import Mustache.Json.Record
import Mustache.Json.Value
import Mustache.Template.Node

/-!
Compile options, and their names in JSON.

Options are plain data. In JSON they are an object with one member for each
option; a choice is written as its name.
-/
set_option autoImplicit false

namespace Mustache

/-! ## Choices -/

/-- When an inverted section is hidden. -/
inductive InvertedPolicy where
  /-- If the value is true in a test and is a boolean, has a positive length, or
  is not an array. -/
  | arrayAware
  /-- If the value is true in a test and is a boolean or has a positive
  length. -/
  | lengthOnly
  deriving DecidableEq, Repr, Inhabited

/-- What a section passes to a value that is a function. -/
inductive SectionCallable where
  | withContext
  | noArgs
  deriving DecidableEq, Repr, Inhabited

def Target.name : Target → String
  | .flat => "flat"
  | .structural => "structural"

def Target.ofName? (name : String) : Option Target :=
  [Target.flat, .structural].find? (·.name = name)

def InvertedPolicy.name : InvertedPolicy → String
  | .arrayAware => "array-aware"
  | .lengthOnly => "length-only"

def InvertedPolicy.ofName? (name : String) : Option InvertedPolicy :=
  [InvertedPolicy.arrayAware, .lengthOnly].find? (·.name = name)

/-- The name of a way to call a function. -/
def SectionCallable.name : SectionCallable → String
  | .withContext => "with-context"
  | .noArgs => "no-args"

theorem Target.ofName?_name (target : Target) : Target.ofName? target.name = some target := by
  cases target <;> decide

/-! ## Options -/

/-- The options of a compilation (`CompileOptions`). -/
structure Options where
  target : Target
  invertedPolicy : InvertedPolicy
  sectionCallable : SectionCallable
  /-- What is put behind the name of an included template to name its module. -/
  partialExtension : String
  /-- Whether a generated module is parsed before it is returned. -/
  verifyOutput : Bool
  deriving DecidableEq, Repr

/-- The options that hold where none are given. -/
def Options.default : Options where
  target := .flat
  invertedPolicy := .arrayAware
  sectionCallable := .withContext
  partialExtension := ".js"
  verifyOutput := false

/-! ## The JSON form -/

inductive OptionField where
  | target
  | invertedPolicy
  | sectionCallable
  | partialExtension
  | verifyOutput
  deriving DecidableEq, Repr

namespace OptionField

/-- All options, in the order in which an array gives them. -/
def all : List OptionField :=
  [.target, .invertedPolicy, .sectionCallable, .partialExtension, .verifyOutput]

def name : OptionField → String
  | .target => "target"
  | .invertedPolicy => "invertedPolicy"
  | .sectionCallable => "sectionCallable"
  | .partialExtension => "partialExtension"
  | .verifyOutput => "verifyOutput"

theorem mem_all (field : OptionField) : field ∈ all := by
  cases field <;> decide

theorem name_injective : Function.Injective name := by
  intro field other h
  revert h
  cases field <;> cases other <;> decide

end OptionField

/-- The values that an option takes, and how they set it. -/
def OptionField.kind : OptionField → Json.FieldKind Options
  | .target => .choice ([.flat, .structural].map fun (target : Target) =>
      (target.name, fun options => { options with target }))
  | .invertedPolicy => .choice ([.arrayAware, .lengthOnly].map fun (policy : InvertedPolicy) =>
      (policy.name, fun options => { options with invertedPolicy := policy }))
  | .sectionCallable => .choice ([.withContext, .noArgs].map fun (callable : SectionCallable) =>
      (callable.name, fun options => { options with sectionCallable := callable }))
  | .partialExtension => .text fun text options => { options with partialExtension := text }
  | .verifyOutput => .flag fun flag options => { options with verifyOutput := flag }

/-- The options as a record (`CompileOptions`). -/
def Options.declared : Json.Record Options where
  default := .default
  fields := OptionField.all.map fun field => ⟨field.name, field.kind⟩

/-- The options that a text spells (`from_json_str`). -/
def Options.read (reader : Json.RecordReader) (s : List Char) : Except Json.Fault Options :=
  reader Options.declared s

def Options.fieldJson (options : Options) : OptionField → Json.Value
  | .target => .str options.target.name
  | .invertedPolicy => .str options.invertedPolicy.name
  | .sectionCallable => .str options.sectionCallable.name
  | .partialExtension => .str options.partialExtension
  | .verifyOutput => .bool options.verifyOutput

/-- Options in JSON, with all members. -/
def Options.toJson (options : Options) : Json.Value :=
  .ofMembers (OptionField.all.map fun field => (field.name, options.fieldJson field))

end Mustache
