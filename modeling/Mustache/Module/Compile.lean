import Mustache.Module.Assembly
import Mustache.Template.Structural

/-!
Compiling a template.

A template is read for its target, its tree becomes the body of a module, and the
body is put into its wrapper. Whether the module is a script is checked only if
the options ask for it. The readers of documents and of scripts are parameters.
-/
set_option autoImplicit false

namespace Mustache

/-- The module of a tree. -/
def Tree.unit (tree : Tree) (options : Options) : Unit :=
  let fragments := tree.fragments options
  assemble (String.ofList (bodyText fragments)) (bodyUsesBlock fragments) tree.target options

/-- Checks that code is a script (`verify_output`); `file` is the template that it was made
from. -/
def verify (readers : Readers) (code : String) (file : String) : Except TemplateError PUnit :=
  if readers.isScript code.toList then .ok ⟨⟩ else .error (.invalidOutput file)

/-- The module of a tree, checked if the options ask for it (`compile_ir`). -/
def Tree.compile (readers : Readers) (tree : Tree) (options : Options) :
    Except TemplateError Unit := do
  let unit := tree.unit options
  if options.verifyOutput then verify readers unit.code tree.file
  .ok unit

/-- Compiles a template (`compile_template`); no result is a panic. -/
def compile (readers : Readers) (source : List Char) (file : String) (options : Options) :
    Option (Except TemplateError Unit) :=
  (Tree.read readers options.target source file).map fun tree => do
    (← tree).compile readers options

end Mustache
