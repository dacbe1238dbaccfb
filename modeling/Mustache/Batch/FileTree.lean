import Mustache.Batch.Files

/-!
Files kept in memory.

A file tree holds all files and directories by their places, counted from the root, and
knows the directory that a run is in. A path from the root is followed from there and
any other from that directory; above the root there is only the root again. The tree has
no links, so different places are different files.
-/
set_option autoImplicit false

namespace Mustache

/-- What a place holds. -/
inductive FileItem where
  | file (content : List UInt8)
  | directory
  deriving DecidableEq, Repr

/-- The names that lead to a place from the root. -/
abbrev Place := List RawText

/-- Files and directories by their places. -/
structure FileTree where
  /-- The directory that a run is in. -/
  here : Place
  entries : List (Place × FileItem)
  deriving DecidableEq, Repr

namespace FileTree

/-- What a place holds; the root is a directory. -/
def lookup? (t : FileTree) (place : Place) : Option FileItem :=
  if place = [] then some .directory else t.entries.lookup place

/-- Puts something into a place, instead of what was there. -/
def put (t : FileTree) (place : Place) (item : FileItem) : FileTree :=
  if (t.entries.lookup place).isSome then
    { t with entries := t.entries.map fun (p, old) => if p = place then (p, item) else (p, old) }
  else { t with entries := t.entries ++ [(place, item)] }

/-! ## Following a path -/

/-- Whether a name has more bytes than a name may have. -/
def isLongName (name : RawText) : Bool :=
  255 < name.length

/-- Follows segments from a place on. Every place that is left has to be a
directory. -/
def follow (t : FileTree) (place : Place) : List RawText → Except FileFault Place
  | [] => .ok place
  | segment :: rest =>
      match t.lookup? place with
      | none => .error .missing
      | some (.file _) => .error .notDirectory
      | some .directory =>
          match PathPart.ofSegment? segment with
          | none => t.follow place rest
          | some .up => t.follow place.dropLast rest
          | some _ =>
              if isLongName segment then .error .nameTooLong
              else t.follow (place ++ [segment]) rest

/-- The place from which a path is followed. -/
def start (t : FileTree) (p : Path) : Place :=
  if p.isAbsolute then [] else t.here

/-- Whether a path may be followed at all. -/
def usable (p : Path) : Except FileFault PUnit :=
  if p.text.contains 0 then .error .unusablePath
  else if 4096 ≤ p.text.length then .error .nameTooLong
  else if p.text.isEmpty then .error .missing
  else .ok ⟨⟩

/-- The place that a path leads to, and what it holds. -/
def find (t : FileTree) (p : Path) : Except FileFault (Place × FileItem) := do
  usable p
  let place ← t.follow (t.start p) (splitSlashes p.text)
  match t.lookup? place with
  | some item => .ok (place, item)
  | none => .error .missing

/-- Whether a path leads to a directory. -/
def isDirectory (t : FileTree) (p : Path) : Bool :=
  match t.find p with
  | .ok (_, .directory) => true
  | _ => false

/-- The directory that the last of some segments is in, followed from a place, and that
segment. -/
def findParent (t : FileTree) (start : Place) (segments : List RawText) :
    Except FileFault (Place × RawText) := do
  -- following the empty segment checks that the place is a directory
  let place ← t.follow start (segments.dropLast ++ [[]])
  .ok (place, segments.getLast?.getD [])

/-! ## Reading and exploring -/

/-- What a file holds. -/
def read (t : FileTree) (p : Path) : Except FileFault (List UInt8) :=
  match t.find p with
  | .ok (_, .file content) => .ok content
  | .ok (_, .directory) => .error .isDirectory
  | .error fault => .error fault

/-- The files below a place, by the names that lead there. -/
def filesBelow (t : FileTree) (place : Place) : List Place :=
  t.entries.filterMap fun (p, item) =>
    match item with
    | .file _ => if place.isPrefixOf p then some (p.drop place.length) else none
    | .directory => none

/-- What is found at a path. -/
def explore (t : FileTree) (p : Path) : Exploration :=
  match t.find p with
  | .ok (_, .file _) => .file
  | .ok (place, .directory) => .directory (t.filesBelow place)
  | .error _ => .nothing

/-! ## Writing -/

def makeDirectory (t : FileTree) (p : Path) : Except FileFault FileTree := do
  usable p
  -- slashes at the end are allowed
  let segments := ((splitSlashes p.text).reverse.dropWhile (· = [])).reverse
  let (place, name) ← t.findParent (t.start p) segments
  match PathPart.ofSegment? name with
  | some (.name _) =>
      if isLongName name then .error .nameTooLong
      else if (t.lookup? (place ++ [name])).isSome then .error .occupied
      else .ok (t.put (place ++ [name]) .directory)
  | _ => .error .occupied

/-- Makes a directory and those around it, as far as they are missing (`create_dir_all`).
Gives the tree as it is then, and what went wrong. A path has no more parents than bytes. -/
def makeDirectories (t : FileTree) : (fuel : Nat) → Path → FileTree × Option FileFault
  | 0, _ => (t, some .missing)
  | fuel + 1, p =>
      if p.parts = [] then (t, none)
      else
        match t.makeDirectory p with
        | .ok t => (t, none)
        | .error .missing =>
            match p.parent? with
            | none => (t, some (.other "failed to create whole tree"))
            | some parent =>
                match t.makeDirectories fuel parent with
                | (t, some fault) => (t, some fault)
                | (t, none) =>
                    match t.makeDirectory p with
                    | .ok t => (t, none)
                    | .error fault => (t, if t.isDirectory p then none else some fault)
        | .error fault => (t, if t.isDirectory p then none else some fault)

/-- Writes a file into a directory that is there. A path that ends in a slash, or in
no name, is that of a directory. -/
def writeFile (t : FileTree) (p : Path) (content : List UInt8) : Except FileFault FileTree := do
  usable p
  let segments := splitSlashes p.text
  let named := (segments.reverse.dropWhile (· = [])).reverse
  let (place, name) ← t.findParent (t.start p) named
  match PathPart.ofSegment? name with
  | some (.name _) =>
      if named.length < segments.length then .error .isDirectory
      else if isLongName name then .error .nameTooLong
      else
        match t.lookup? (place ++ [name]) with
        | some .directory => .error .isDirectory
        | _ => .ok (t.put (place ++ [name]) (.file content))
  | _ => do
      let _ ← t.find p
      .error .isDirectory

/-- Writes a file and makes the directories that it is in. -/
def write (t : FileTree) (p : Path) (content : List UInt8) : FileTree × Option FileFault :=
  match t.makeDirectories (p.text.length + 1) (p.parent?.getD .empty) with
  | (t, some fault) => (t, some fault)
  | (t, none) =>
      match t.writeFile p content with
      | .ok t => (t, none)
      | .error fault => (t, some fault)

/-- The tree as a file system. -/
def files : Files (StateM FileTree) where
  explore p := do pure ((← get).explore p)
  read p := do pure ((← get).read p)
  write p content := modifyGet fun t =>
    let (t, fault) := t.write p content
    (fault, t)

/-! ## What a run has changed -/

/-- The files in the directory of a run that are new or hold something else than before,
by the names that lead there. -/
def changedSince (t before : FileTree) : List (Place × List UInt8) :=
  t.entries.filterMap fun (place, item) =>
    match item with
    | .file content =>
        if before.lookup? place = some item ∨ !t.here.isPrefixOf place then none
        else some (place.drop t.here.length, content)
    | .directory => none

/-- The tree with a file or directory, and the directories around it. -/
def add (t : FileTree) (place : Place) (item : FileItem) : FileTree :=
  let around := (List.range place.length).drop 1
  let t := around.foldl (fun t n =>
    if (t.lookup? (place.take n)).isSome then t else t.put (place.take n) .directory) t
  if item = .directory ∧ (t.lookup? place).isSome then t else t.put place item

end FileTree

end Mustache
