import Mustache.Text.Utf8

/-!
Paths of files.

A path is a raw text whose slashes separate segments; its names need not be the bytes
of characters. Empty segments and points for the directory itself say nothing, but for
a point at the very start, so paths that are spelled differently may have the same
parts (`components`); order and equality of paths look at the parts. The spelling is
kept all the same, since it is shown and handed on.
-/
set_option autoImplicit false

namespace Mustache

/-- The byte of a slash. -/
abbrev slash : UInt8 := 0x2F

/-- The byte of a point. -/
abbrev point : UInt8 := 0x2E

/-! ## Segments -/

/-- The texts between the slashes of a text. -/
def splitSlashes : RawText → List RawText
  | [] => [[]]
  | b :: s =>
      if b = slash then [] :: splitSlashes s
      else
        match splitSlashes s with
        | [] => [[b]]
        | first :: rest => (b :: first) :: rest

/-- Texts with slashes between them. -/
def joinSlashes : List RawText → RawText
  | [] => []
  | [segment] => segment
  | segment :: rest => segment ++ slash :: joinSlashes rest

/-- Splitting loses nothing. -/
theorem joinSlashes_splitSlashes (s : RawText) : joinSlashes (splitSlashes s) = s := by
  induction s with
  | nil => rfl
  | cons c s ih =>
      by_cases h : c = slash
      · cases hs : splitSlashes s with
        | nil =>
            rw [hs] at ih
            cases s with
            | nil => simp [splitSlashes] at hs
            | cons d s => simp [joinSlashes] at ih
        | cons first rest =>
            rw [hs] at ih
            simp [splitSlashes, h, hs, joinSlashes, ih]
      · cases hs : splitSlashes s with
        | nil =>
            rw [hs] at ih
            simp only [joinSlashes] at ih
            simp [splitSlashes, h, joinSlashes, ← ih]
        | cons first rest =>
            rw [hs] at ih
            cases rest with
            | nil =>
                simp only [joinSlashes] at ih
                simp [splitSlashes, h, hs, joinSlashes, ih]
            | cons second rest =>
                simp only [joinSlashes] at ih
                simp [splitSlashes, h, hs, joinSlashes, ih]

/-! ## Parts -/

/-- A part of a path. -/
inductive PathPart where
  /-- The root of all files. -/
  | root
  /-- The directory itself, at the start of a path. -/
  | here
  /-- The directory around. -/
  | up
  | name (bytes : RawText)
  deriving DecidableEq, Repr

/-- The part that a segment behind the first stands for, if it says anything. -/
def PathPart.ofSegment? (segment : RawText) : Option PathPart :=
  if segment = [] ∨ segment = [point] then none
  else if segment = [point, point] then some .up
  else some (.name segment)

/-- Whether a segment behind the first says nothing. -/
def isSilent (segment : RawText) : Bool :=
  (PathPart.ofSegment? segment).isNone

/-- A part as it is spelled. -/
def PathPart.text : PathPart → RawText
  | .root => [slash]
  | .here => [point]
  | .up => [point, point]
  | .name bytes => bytes

/-- The kinds of parts in their order. -/
def PathPart.rank : PathPart → Nat
  | .root => 0
  | .here => 1
  | .up => 2
  | .name _ => 3

/-- Whether a part comes before another: by kind, and names by their bytes. -/
def PathPart.precedes (a b : PathPart) : Bool :=
  match a, b with
  | .name a, .name b => decide (a < b)
  | a, b => a.rank < b.rank

/-! ## Paths -/

/-- A path as it is spelled. -/
structure Path where
  text : RawText
  deriving DecidableEq, Repr

namespace Path

/-- The path that says nothing. -/
def empty : Path := ⟨[]⟩

/-- The path that a text spells. -/
def ofString (s : String) : Path := ⟨.ofString s⟩

/-- A path as it is shown (`display`). -/
def toString (p : Path) : String := String.ofList (RawText.lossy p.text)

/-- Whether a path starts at the root. -/
def isAbsolute (p : Path) : Bool := p.text.head? == some slash

def parts (p : Path) : List PathPart :=
  match splitSlashes p.text with
  -- The empty text has one empty segment, and says nothing; an empty segment before others is the
  -- root.
  | [] | [[]] => []
  | [] :: rest => .root :: rest.filterMap PathPart.ofSegment?
  | first :: rest =>
      (if first = [point] then .here :: rest.filterMap PathPart.ofSegment?
       else (first :: rest).filterMap PathPart.ofSegment?)

/-- Whether two paths have the same parts. -/
def same (p q : Path) : Bool := p.parts == q.parts

/-- Whether a list of parts does not come after another. -/
def partsLe : List PathPart → List PathPart → Bool
  | [], _ => true
  | _ :: _, [] => false
  | a :: as, b :: bs => a.precedes b || (a == b && partsLe as bs)

/-- Whether a path does not come after another. -/
def le (p q : Path) : Bool := partsLe p.parts q.parts

/-- A path behind another; one that starts at the root stands alone. -/
def join (p q : Path) : Path :=
  if q.isAbsolute then q
  else if p.text = [] ∨ p.text.getLast? = some slash then ⟨p.text ++ q.text⟩
  else ⟨p.text ++ slash :: q.text⟩

/-- The path that parts spell. -/
def ofParts (parts : List PathPart) : Path :=
  parts.foldl (fun p part => p.join ⟨part.text⟩) empty

/-! ## Parents -/

def dropSilentEnd (segments : List RawText) : List RawText :=
  (segments.reverse.dropWhile isSilent).reverse

/-- The path without its last part, and without what is silent before it (`parent`).
The root and the path that says nothing have no parent. -/
def parent? (p : Path) : Option Path :=
  match splitSlashes p.text with
  | [] => none
  | first :: rest =>
      match dropSilentEnd rest with
      | [] => if first = [] then none else some empty
      | rest =>
          match first, dropSilentEnd rest.dropLast with
          | [], [] => some ⟨[slash]⟩
          | first, rest => some ⟨joinSlashes (first :: rest)⟩

/-- What is left of segments behind `count` parts. -/
def dropParts : (count : Nat) → List RawText → List RawText
  | 0, segments => segments
  | count + 1, segments => dropParts count ((segments.dropWhile isSilent).drop 1)

/-- What a path adds to another that its parts start with (`strip_prefix`). Nothing is
taken away if the other has no parts. -/
def relativeTo? (p base : Path) : Option Path :=
  if !base.parts.isPrefixOf p.parts then none
  else
    match base.parts.length, splitSlashes p.text with
    | 0, _ | _, [] => some p
    | count + 1, _ :: rest =>
        some ⟨joinSlashes (dropSilentEnd ((dropParts count rest).dropWhile isSilent))⟩

/-! ## Names -/

/-- The last part of a path, if it is a name. -/
def fileName? (p : Path) : Option RawText :=
  match p.parts.getLast? with
  | some (.name bytes) => some bytes
  | _ => none

/-- A name cut at its last point: what stands before it, and what behind it. A
name without a point, or with one at its start alone, is not cut. -/
def cutName (name : RawText) : RawText × Option RawText :=
  let ending := (name.reverse.takeWhile (· ≠ point)).reverse
  let stem := name.take (name.length - (ending.length + 1))
  if name.contains point && !stem.isEmpty then (stem, some ending) else (name, none)

/-- The name of a file without its extension (`file_stem`). -/
def stem? (p : Path) : Option RawText :=
  p.fileName?.map fun name => (cutName name).1

/-- The extension of a file (`extension`). -/
def extension? (p : Path) : Option RawText :=
  p.fileName?.bind fun name => (cutName name).2

end Path

end Mustache
