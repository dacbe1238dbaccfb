import Mustache.Batch.Discovery
import Mustache.Batch.Run
import Mustache.CommandLine.Arguments
import Mustache.Text.Controls

/-!
A run of the command line.

A run reads its arguments and its options, finds the templates and compiles them.
What happens is told in a log, one entry for each event, and summed up in an exit
code: zero if all went well, one if the run failed, two if the arguments ask for
no run, and `panicCode` if it ended in a panic.
-/
set_option autoImplicit false

namespace Mustache

/-! ## Events -/

/-- What a run tells. -/
inductive Event where
  /-- The module of a template was found to be a script. -/
  | verified (template : Path)
  /-- The module of a template was written. -/
  | compiled (template : Path)
  /-- There is nothing to compile. -/
  | noTemplates
  /-- The options cannot be read from what the file holds. -/
  | invalidConfig (fault : Json.Fault)
  /-- The file with the options cannot be read. -/
  | unreadableConfig (path : Path) (fault : FileFault)
  /-- The run stopped. -/
  | failed (failure : BatchFailure)
  deriving DecidableEq, Repr

namespace Event

/-- How much an event matters. -/
def level : Event → String
  | .verified _ | .compiled _ => "INFO"
  | .noTemplates => "WARN"
  | .invalidConfig _ | .unreadableConfig .. | .failed _ => "ERROR"

/-- The wording of an event. -/
def message : Event → String
  | .verified _ => "verified generated code"
  | .compiled template => "Compiled " ++ template.toString
  | .noTemplates => "no templates found"
  | .invalidConfig _ => "invalid config:"
  | .unreadableConfig path fault =>
      "failed to read config " ++ path.toString ++ ": " ++ fault.message
  | .failed failure => "Failed " ++ failure.message

/-- What is told of an event besides, under names. -/
def fields : Event → List (String × String)
  | .verified template => [("file", template.toString)]
  | .failed (.template _ error) =>
      [("code", error.code), ("line", toString error.location.line.toNat)]
  | _ => []

/-- An event as a line of the log. Only the wording has its control characters
shown. -/
def line (event : Event) : String :=
  event.level ++ " " ++ String.ofList (Text.showControls event.message.toList)
    ++ String.join (event.fields.map fun (name, value) => " " ++ name ++ "=" ++ value)

end Event

/-! ## Options -/

/-- The options of a run: those of the file, if one is named, and above them what
the arguments say. -/
def Arguments.apply (a : Arguments) (options : Options) : Options :=
  { options with
    target := a.target.getD options.target
    invertedPolicy := a.invertedPolicy.getD options.invertedPolicy
    verifyOutput := options.verifyOutput || a.verify }

/-- The options that a file holds (`from_path`). -/
def optionsOf (readers : Readers) (path : Path) (content : Except FileFault (List UInt8)) :
    Except Event Options :=
  match textOf content with
  | .error fault => .error (.unreadableConfig path fault)
  | .ok text =>
      match Options.read readers.record text with
      | .error fault => .error (.invalidConfig fault)
      | .ok options => .ok options

/-- Reads the options of a run (`options_for`). -/
def readOptions {m : Type → Type} [Monad m] (readers : Readers) (files : Files m)
    (a : Arguments) : m (Except Event Options) := do
  match a.config with
  | none => pure (.ok (a.apply .default))
  | some path => do
      let content ← files.read path
      pure ((optionsOf readers path content).map a.apply)

/-! ## The run -/

/-- How a run ended. -/
structure RunOutcome where
  exitCode : UInt8
  log : List Event
  deriving DecidableEq, Repr

/-- The events of modules that were found to be scripts. -/
def verifiedEvents (options : Options) (results : List (Except BatchFailure CompiledFile)) :
    List Event :=
  if options.verifyOutput then
    results.filterMap fun
      | .ok file => some (.verified file.source)
      | .error _ => none
  else []

/-- The events of compiling templates: first all modules that were found to be
scripts, since nothing is written before all templates are compiled, then those
that were written. -/
def compileEvents (options : Options) (results : List (Except BatchFailure CompiledFile))
    (outcome : BatchOutcome) : List Event :=
  verifiedEvents options results ++ outcome.compiled.map (fun file => .compiled file.source)
    ++ (outcome.failure.map Event.failed).toList

/-- The exit code of a panic. -/
def panicCode : UInt8 := 101

/-- Compiles the templates of a run. In a panic all templates are compiled, and no module is
written. -/
def runTemplates {m : Type → Type} [Monad m] (readers : Readers) (files : Files m)
    (a : Arguments) (options : Options) : m RunOutcome := do
  let templates ← findTemplates files a.inputs (a.extension.getD "mustache".toList)
  if templates.isEmpty then pure ⟨0, [.noTemplates]⟩
  else do
    let base := a.base.getD (commonBase templates)
    let outDir := a.outDir.getD (.ofString ".")
    let read ← readAll files templates
    match compileEach readers base outDir options read with
    | none =>
        let results := read.filterMap fun (template, content) =>
          compileRead readers base outDir options template content
        pure ⟨panicCode, verifiedEvents options results⟩
    | some results => do
        let outcome ← writeInOrder files results
        pure ⟨if outcome.failure.isSome then 1 else 0, compileEvents options results outcome⟩

/-- Runs the command line (`main`). -/
def run {m : Type → Type} [Monad m] (readers : Readers) (files : Files m)
    (arguments : List String) : m RunOutcome :=
  match Arguments.read arguments with
  | .error .helpWanted => pure ⟨0, []⟩
  | .error .unusable => pure ⟨2, []⟩
  | .ok a => do
      match ← readOptions readers files a with
      | .error event => pure ⟨1, [event]⟩
      | .ok options => runTemplates readers files a options

end Mustache
