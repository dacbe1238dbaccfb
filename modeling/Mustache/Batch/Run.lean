import Mustache.Batch.Files
import Mustache.Module.Compile
import Mustache.Path.Layout

/-!
Compiling many templates.

All templates are read and compiled before the first module is written, so that no
module becomes the input of another. Then the modules are written in the order of
the templates, up to the first that failed or that cannot be written. Templates are
compiled side by side, so a panic in one of them comes before anything is written.
-/
set_option autoImplicit false

namespace Mustache

/-- A template that was compiled (`CompiledFile`). -/
structure CompiledFile where
  source : Path
  /-- The path of the module. -/
  output : Path
  unit : Unit
  deriving DecidableEq, Repr

/-- Why a run stopped (`BatchError`). -/
inductive BatchFailure where
  /-- A file could not be read or written. -/
  | file (path : Path) (fault : FileFault)
  /-- A template could not be compiled. -/
  | template (path : Path) (error : TemplateError)
  deriving DecidableEq, Repr

/-- The path that a failure is about. -/
def BatchFailure.path : BatchFailure → Path
  | .file path _ => path
  | .template path _ => path

/-- The wording of a failure. -/
def BatchFailure.message : BatchFailure → String
  | .file path fault => path.toString ++ ": " ++ fault.message
  | .template path error => path.toString ++ ": " ++ error.message

/-- Compiles a template that was read (`compile_file`); no result is a panic. -/
def compileRead (readers : Readers) (base outDir : Path) (options : Options) (template : Path)
    (content : Except FileFault (List UInt8)) : Option (Except BatchFailure CompiledFile) :=
  match textOf content with
  | .error fault => some (.error (.file template fault))
  | .ok text =>
      match compile readers (Text.dropByteOrderMark text) template.toString options with
      | none => none
      | some (.error error) => some (.error (.template template error))
      | some (.ok unit) =>
          some (.ok ⟨template, outputPath template base outDir options.partialExtension.toList,
            unit⟩)

/-- Compiles templates that were read. If one of them ends in a panic, so does the whole. -/
def compileEach (readers : Readers) (base outDir : Path) (options : Options)
    (read : List (Path × Except FileFault (List UInt8))) :
    Option (List (Except BatchFailure CompiledFile)) :=
  read.mapM fun (template, content) => compileRead readers base outDir options template content

/-- How a run ended. -/
structure BatchOutcome where
  /-- The templates whose modules were written, in order. -/
  compiled : List CompiledFile
  failure : Option BatchFailure
  deriving DecidableEq, Repr

/-- Writes modules in order (`write_output`), up to the first failure. -/
def writeInOrder {m : Type → Type} [Monad m] (files : Files m) :
    List (Except BatchFailure CompiledFile) → m BatchOutcome
  | [] => pure ⟨[], none⟩
  | .error failure :: _ => pure ⟨[], some failure⟩
  | .ok file :: rest => do
      match ← files.write file.output (Text.encodeUtf8 file.unit.code.toList) with
      | some fault => pure ⟨[], some (.file file.output fault)⟩
      | none => do
          let outcome ← writeInOrder files rest
          pure { outcome with compiled := file :: outcome.compiled }

def readAll {m : Type → Type} [Monad m] (files : Files m) (templates : List Path) :
    m (List (Path × Except FileFault (List UInt8))) :=
  templates.mapM fun template => do pure (template, ← files.read template)

/-- Compiles templates and writes their modules (`compile_all`). In a panic nothing was
written, and there is no outcome. -/
def compileAll {m : Type → Type} [Monad m] (readers : Readers) (files : Files m)
    (templates : List Path) (base outDir : Path) (options : Options) :
    m (Option BatchOutcome) := do
  match compileEach readers base outDir options (← readAll files templates) with
  | none => pure none
  | some results => do pure (some (← writeInOrder files results))

end Mustache
