import Mustache.Batch.Files

/-!
Finding templates.

An input that is a file is a template; of a directory the files below it are, if
they have the extension that is looked for. The templates come in the order of
their paths, and of paths with the same parts only the first is kept.
-/
set_option autoImplicit false

namespace Mustache

/-- A path with names behind it. -/
def Path.below (p : Path) (names : List RawText) : Path :=
  names.foldl (fun p name => p.join ⟨name⟩) p

/-- The templates of an input. -/
def candidates (extension : List Char) (input : Path) : Exploration → List Path
  | .nothing => []
  | .file => [input]
  | .directory below =>
      (below.map input.below).filter fun p => p.extension? == some (Text.encodeUtf8 extension)

/-- Paths without those that have the same parts as the one before. -/
def dropRepeated : List Path → List Path
  | [] => []
  | p :: rest =>
      match dropRepeated rest with
      | [] => [p]
      | q :: more => if p.same q then p :: more else p :: q :: more

/-- The templates of explored inputs. -/
def templatesOf (extension : List Char) (explored : List (Path × Exploration)) : List Path :=
  dropRepeated ((explored.flatMap fun (input, e) => candidates extension input e).mergeSort Path.le)

/-- The templates of inputs (`find_templates`). -/
def findTemplates {m : Type → Type} [Monad m] (files : Files m) (inputs : List Path)
    (extension : List Char) : m (List Path) := do
  let explored ← inputs.mapM fun input => do pure (input, ← files.explore input)
  pure (templatesOf extension explored)

end Mustache
