import Mustache.CommandLine.Run
import Mustache.Readers.Own

/-!
The command line on the files of the system.

Everything that is decided is decided by `run`; here its requests are carried out
on the disk, and its log is printed.
-/
set_option autoImplicit false

namespace Mustache.Disk

/-- The cause that an error of the system stands for. -/
def faultOf : IO.Error → FileFault
  | .noFileOrDirectory .. => .missing
  | .alreadyExists .. => .occupied
  | e => .other (toString e)

/-- The names that lead to the files below a directory. -/
partial def filesBelow (directory : String) (above : List RawText) :
    IO (List (List RawText)) := do
  let entries ← (System.mkFilePath [directory]).readDir
  let found ← entries.toList.mapM fun entry => do
    let names := above ++ [.ofString entry.fileName]
    if ← entry.path.isDir then filesBelow (directory ++ "/" ++ entry.fileName) names
    else pure [names]
  pure found.flatten

/-- What the disk holds at a path. -/
def explore (p : Path) : IO Exploration := do
  let path := System.mkFilePath [p.toString]
  if !(← path.pathExists) then pure .nothing
  else if ← path.isDir then
    try pure (.directory (← filesBelow p.toString [])) catch _ => pure .nothing
  else pure .file

/-- Reads a file of the disk. -/
def read (p : Path) : IO (Except FileFault (List UInt8)) := do
  if ← (System.mkFilePath [p.toString]).isDir then pure (.error .isDirectory)
  else
    try
      let bytes ← IO.FS.readBinFile p.toString
      pure (.ok bytes.toList)
    catch e => pure (.error (faultOf e))

/-- Writes a file to the disk and makes the directories that it is in. -/
def write (p : Path) (content : List UInt8) : IO (Option FileFault) := do
  if ← (System.mkFilePath [p.toString]).isDir then pure (some .isDirectory)
  else
    try
      match p.parent? with
      | some directory => if !directory.text.isEmpty then IO.FS.createDirAll directory.toString
      | none => pure ()
      IO.FS.writeBinFile p.toString ⟨content.toArray⟩
      pure none
    catch e => pure (some (faultOf e))

/-- The disk as a file system. -/
def files : Files IO := ⟨explore, read, write⟩

end Mustache.Disk

/-- Compiles template files into modules. -/
def main (arguments : List String) : IO UInt32 := do
  let outcome ← Mustache.run .own Mustache.Disk.files arguments
  for event in outcome.log do
    IO.println event.line
  pure outcome.exitCode.toUInt32
