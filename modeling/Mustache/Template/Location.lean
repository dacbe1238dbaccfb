import Mustache.Text.Bytes
import Mustache.Text.Newline

/-!
Places in a template, as a reader of an error message counts them.

Lines and columns start at one and fit 32 bits. The line of a byte offset counts
the line feeds before it; a column counts characters, not bytes, from the start
of the line.
-/
set_option autoImplicit false

namespace Mustache

open Text

/-- A line and a column of a template (`SourceLocation`); both are zero where no place is known. -/
structure Location where
  line : UInt32
  column : UInt32
  deriving DecidableEq, Repr, Inhabited

/-- The place of an error that has none. -/
def Location.unknown : Location := ⟨0, 0⟩

/-- The line that a text ends on, counted from one. -/
def lineAfter (consumed : List Char) : UInt32 :=
  UInt32.ofNat (newlines consumed + 1)

/-- The line of a byte offset; an offset past the end is on the last line. -/
def lineAt (source : List Char) (offset : Nat) : UInt32 :=
  lineAfter (takeBytes offset source)

/-- The line of a byte offset, counted in the slice in front of it (`line_at`); nothing if that
slice is refused. -/
def lineAt? (source : List Char) (offset : Nat) : Option UInt32 :=
  (sliceTo? source (min offset (byteLength source))).map lineAfter

/-- The column right after a text, counted from one. -/
def columnAfter (consumed : List Char) : UInt32 :=
  UInt32.ofNat ((consumed.reverse.takeWhile (· ≠ '\n')).length + 1)

end Mustache
