import Mustache.Path.Basic

/-!
Where the module of a template is written.

Modules are laid out as their templates are: each directory below the base is
found again below the output directory. Unless a base is given it is the deepest
directory that holds all templates.
-/
set_option autoImplicit false

namespace Mustache

def commonStart {α : Type} [DecidableEq α] : List α → List α → List α
  | a :: as, b :: bs => if a = b then a :: commonStart as bs else []
  | _, _ => []

def directoryParts (file : Path) : List PathPart :=
  (file.parent?.getD .empty).parts

/-- The deepest directory that holds all files (`common_base`). -/
def commonBase : List Path → Path
  | [] => .empty
  | first :: rest =>
      .ofParts (rest.foldl (fun base file => commonStart base (directoryParts file))
        (directoryParts first))

/-- The directory of a template relative to the base; empty if the base does not
hold it. -/
def relativeDirectory (template base : Path) : Path :=
  ((template.parent?).bind fun directory => directory.relativeTo? base).getD .empty

/-- The name of a template's module: the stem of the template, read as text, and the
extension. -/
def moduleName (template : Path) (extension : List Char) : RawText :=
  Text.encodeUtf8 (RawText.lossy ((template.stem?).getD []) ++ extension)

/-- The path of a template's module (`output_path`). -/
def outputPath (template base outDir : Path) (extension : List Char) : Path :=
  (outDir.join (relativeDirectory template base)).join ⟨moduleName template extension⟩

end Mustache
