import Mustache.Options.Basic
import Mustache.Path.Basic

/-!
The arguments of the command line.

Arguments are read from left to right. An option has a long name, and may have a
short one of one letter; its value follows in the same argument or in the next.
Short options may share an argument. Everything else is an input, and so is all
that follows two dashes alone. Each option may be given once.
-/
set_option autoImplicit false

namespace Mustache

/-! ## What may be given -/

/-- The options that take a value. -/
inductive ValueOption where
  | outDir
  | base
  | extension
  | config
  | target
  | invertedPolicy
  deriving DecidableEq, Repr

inductive FlagOption where
  | verify
  | verbose
  | help
  deriving DecidableEq, Repr

inductive CommandOption where
  | value (option : ValueOption)
  | flag (option : FlagOption)
  deriving DecidableEq, Repr

/-- The long names. -/
def longOptions : List (String × CommandOption) :=
  [("outdir", .value .outDir), ("base", .value .base), ("ext", .value .extension),
   ("config", .value .config), ("target", .value .target),
   ("inverted-policy", .value .invertedPolicy), ("verify", .flag .verify),
   ("verbose", .flag .verbose), ("help", .flag .help)]

/-- The short names. -/
def shortOptions : List (Char × CommandOption) :=
  [('o', .value .outDir), ('b', .value .base), ('c', .value .config), ('v', .flag .verbose),
   ('h', .flag .help)]

/-- What was given on the command line (`Cli`). -/
structure Arguments where
  inputs : List Path
  outDir : Option Path
  base : Option Path
  extension : Option (List Char)
  config : Option Path
  target : Option Target
  invertedPolicy : Option InvertedPolicy
  verify : Bool
  verbose : Bool
  deriving DecidableEq, Repr

/-- Nothing given. -/
def Arguments.none : Arguments where
  inputs := []
  outDir := .none
  base := .none
  extension := .none
  config := .none
  target := .none
  invertedPolicy := .none
  verify := false
  verbose := false

/-- Why the command line asks for no run. -/
inductive UsageFault where
  /-- Help was asked for. -/
  | helpWanted
  /-- The arguments are not as they have to be. -/
  | unusable
  deriving DecidableEq, Repr

namespace Arguments

/-! ## One option -/

def setOnce {α : Type} (old : Option α) (new : Option α) : Except UsageFault (Option α) :=
  match old, new with
  | .none, some value => .ok (some value)
  | _, _ => .error .unusable

/-- A path that says something. -/
def path? (value : List Char) : Option Path :=
  if value.isEmpty then .none else some ⟨Text.encodeUtf8 value⟩

/-- Takes an option with its value. -/
def setValue (a : Arguments) (option : ValueOption) (value : List Char) :
    Except UsageFault Arguments :=
  match option with
  | .outDir => do .ok { a with outDir := ← setOnce a.outDir (path? value) }
  | .base => do .ok { a with base := ← setOnce a.base (path? value) }
  | .extension => do .ok { a with extension := ← setOnce a.extension (some value) }
  | .config => do .ok { a with config := ← setOnce a.config (path? value) }
  | .target => do
      .ok { a with target := ← setOnce a.target (Target.ofName? (String.ofList value)) }
  | .invertedPolicy => do
      let policy := InvertedPolicy.ofName? (String.ofList value)
      .ok { a with invertedPolicy := ← setOnce a.invertedPolicy policy }

/-- Takes an option without a value. -/
def setFlag (a : Arguments) : FlagOption → Except UsageFault Arguments
  | .verify => if a.verify then .error .unusable else .ok { a with verify := true }
  | .verbose => if a.verbose then .error .unusable else .ok { a with verbose := true }
  | .help => .error .helpWanted

/-- Takes an input. -/
def addInput (a : Arguments) (value : List Char) : Except UsageFault Arguments :=
  match path? value with
  | some p => .ok { a with inputs := a.inputs ++ [p] }
  | .none => .error .unusable

/-! ## One argument -/

/-- What an argument leaves to the next: nothing, or an option that waits for its
value. -/
abbrev Pending := Arguments × Option ValueOption

/-- Takes an argument behind two dashes: a long name, with a value behind an equals
sign if there is one. -/
def takeLong (a : Arguments) (s : List Char) : Except UsageFault Pending :=
  let name := s.takeWhile (· ≠ '=')
  let value : Option (List Char) :=
    if name.length < s.length then some (s.drop (name.length + 1)) else .none
  match longOptions.lookup (String.ofList name), value with
  | some (.value option), some value => do .ok (← a.setValue option value, .none)
  | some (.value option), .none => .ok (a, some option)
  | some (.flag option), .none => do .ok (← a.setFlag option, .none)
  | some (.flag _), some _ | .none, _ => .error .unusable

/-- Takes the letters of an argument behind one dash. A letter whose option takes a
value takes the rest of the argument, with or without an equals sign. -/
def takeShort (a : Arguments) : List Char → Except UsageFault Pending
  | [] => .ok (a, .none)
  | c :: rest =>
      match shortOptions.lookup c with
      | some (.value option) =>
          match rest with
          | [] => .ok (a, some option)
          | '=' :: value => do .ok (← a.setValue option value, .none)
          | value => do .ok (← a.setValue option value, .none)
      | some (.flag option) => do takeShort (← a.setFlag option) rest
      | .none => .error .unusable

/-- Takes an argument while no option waits for a value. -/
def takeFresh (a : Arguments) (argument : List Char) : Except UsageFault Pending :=
  match argument with
  | '-' :: '-' :: s => a.takeLong s
  | '-' :: c :: s => a.takeShort (c :: s)
  | s => do .ok (← a.addInput s, .none)

/-- Whether an argument cannot be the value of the option before it. -/
def looksLikeOption : List Char → Bool
  | '-' :: _ :: _ => true
  | _ => false

/-! ## All arguments -/

/-- Takes arguments from left to right; `pending` is the option that waits for its
value. -/
def takeAll (a : Arguments) (pending : Option ValueOption) :
    List (List Char) → Except UsageFault Arguments
  | [] => if pending.isSome then .error .unusable else .ok a
  | argument :: rest =>
      match pending with
      | some option =>
          if looksLikeOption argument then .error .unusable
          else do (← a.setValue option argument).takeAll .none rest
      | .none =>
          if argument = ['-', '-'] then rest.foldlM addInput a
          else do
            let (a, pending) ← a.takeFresh argument
            a.takeAll pending rest

/-- Reads the arguments of a run, which needs at least one input. -/
def read (arguments : List String) : Except UsageFault Arguments := do
  let a ← Arguments.none.takeAll .none (arguments.map String.toList)
  if a.inputs.isEmpty then .error .unusable else .ok a

end Arguments

end Mustache
