import Mustache.Path.Basic
import Mustache.Text.Utf8

/-!
What a run may ask of a file system.

A run explores its inputs, reads templates and writes modules; each may go wrong
for one of a few causes. `Files` gathers the three, so that a run does not depend
on where files are kept.
-/
set_option autoImplicit false

namespace Mustache

/-- Why a file could not be read or written. -/
inductive FileFault where
  /-- Nothing is there. -/
  | missing
  /-- Something else is there already. -/
  | occupied
  /-- A file stands where a directory is needed. -/
  | notDirectory
  /-- A directory stands where a file is needed. -/
  | isDirectory
  /-- The path has a character that no path may have. -/
  | unusablePath
  /-- A name in the path, or the path, is longer than allowed. -/
  | nameTooLong
  /-- The file holds no text. -/
  | notText
  /-- Any other cause, in the words of the system. -/
  | other (message : String)
  deriving DecidableEq, Repr

/-- The wording of a fault. -/
def FileFault.message : FileFault → String
  | .missing => "No such file or directory (os error 2)"
  | .occupied => "File exists (os error 17)"
  | .notDirectory => "Not a directory (os error 20)"
  | .isDirectory => "Is a directory (os error 21)"
  | .unusablePath => "file name contained an unexpected NUL byte"
  | .nameTooLong => "File name too long (os error 36)"
  | .notText => "stream did not contain valid UTF-8"
  | .other message => message

/-- What is found at a path. -/
inductive Exploration where
  | nothing
  | file
  /-- A directory, with the names that lead to each file anywhere below it. -/
  | directory (below : List (List RawText))
  deriving DecidableEq, Repr

/-- A file system. -/
structure Files (m : Type → Type) where
  explore : Path → m Exploration
  read : Path → m (Except FileFault (List UInt8))
  /-- Writes a file and makes the directories that it is in. -/
  write : Path → List UInt8 → m (Option FileFault)

/-- The text that a file holds. -/
def textOf (content : Except FileFault (List UInt8)) : Except FileFault (List Char) := do
  match Text.decodeUtf8? (← content) with
  | some text => .ok text
  | none => .error .notText

end Mustache
