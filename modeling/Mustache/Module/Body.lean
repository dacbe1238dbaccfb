import Mustache.Options.Basic
import Mustache.Script.Expr
import Mustache.Text.Newline

/-!
The body of a generated module.

Each node of a template becomes an expression over the variable that holds its
data: text a string, an interpolation a lookup that is printed, a block a
function applied to each element, an inclusion a call of another module, an
element an object. A list of nodes becomes a run of such fragments that ends in
a terminator, `''` where strings are joined and `[]` where a list is built, so
that a run without fragments is well formed as well.
-/
set_option autoImplicit false

namespace Mustache

open Script

/-! ## Output modes -/

/-- What a run of fragments is built into. -/
inductive Output where
  /-- Arguments whose values are joined into a string. -/
  | joined
  /-- The summands of one string. -/
  | summed
  /-- Arguments whose values make up a list of strings and elements. -/
  | nodes
  deriving DecidableEq, Repr

/-- The expression that ends a run (`terminator`). -/
def Output.terminator : Output → Expr
  | .joined | .summed => .text ""
  | .nodes => .list []

/-- What emission depends on besides the tree. -/
structure EmitOptions where
  target : Target
  invertedPolicy : InvertedPolicy
  partialExtension : String
  deriving DecidableEq, Repr

/-! ## Fragments -/

/-- What one node contributes to a run. -/
inductive Fragment where
  /-- A value that is taken as it is. -/
  | whole (value : Expr)
  /-- A value that is printed first, by being added to the empty string. -/
  | printed (value : Expr)

def Fragment.argument : Fragment → Expr
  | .whole value => value
  | .printed value => .sum (.text "") [(false, value)]

def Fragment.summands : Fragment → List (Bool × Expr)
  | .whole value => [(true, value)]
  | .printed value => [(true, .text ""), (false, value)]

/-- A sum of summands in order. -/
def sumOf : List (Bool × Expr) → Expr
  | [] => .text ""
  | [(_, only)] => only
  | (_, first) :: next :: rest => .sum first (next :: rest)

/-- The sum of a run and its terminator. -/
def runSum (fragments : List Fragment) : Expr :=
  sumOf (fragments.flatMap Fragment.summands ++ [(true, .text "")])

/-- A run and its terminator as the arguments of a call. -/
def Output.close (output : Output) (fragments : List Fragment) : List Expr :=
  match output with
  | .summed => [runSum fragments]
  | .joined | .nodes => fragments.map Fragment.argument ++ [output.terminator]

/-! ## Calls -/

/-- The call of a function by its name. -/
def call (name : String) (arguments : List Expr) : Expr :=
  .apply (.var name) arguments

/-- The call of a method. -/
def method (object : Expr) (name : String) (arguments : List Expr) : Expr :=
  .apply (.member object name) arguments

/-- One list made of values and of the items of lists. -/
def concatenated (arguments : List Expr) : Expr :=
  method (.list []) "concat" arguments

/-- The variable that holds the data of a block depth. -/
def contextRef (depth : Nat) : Expr :=
  .var (String.ofList (contextVar depth))

/-- A block's results, joined into a string unless a list is built (`JoinMode`). -/
def Output.blockResult (output : Output) (results : Expr) : Expr :=
  match output with
  | .joined | .summed => method results "join" [.emptyText]
  | .nodes => results

/-! ## Blocks -/

/-- The object that a section binds for an element besides its own entries. -/
def elementBindingsExpr : Expr :=
  .record
    [(.quoted ".", .var "e"), (.quoted ".index", .var "i"),
     (.quoted ".length", .member (.var "a") "length")]

/-- The expression of a section at a depth (`emit_section`); `result` is what its body gives for one
element. -/
def sectionExpr (output : Output) (depth : Nat) (expression : String) (result : Expr) : Expr :=
  let scope := call "merge" [.record [], contextRef depth, elementBindingsExpr, .var "e"]
  -- What is applied to each element gets its place and the whole list with it.
  let each : Expr :=
    .closure ["e", "i", "a"] (String.ofList (contextVar (depth + 1))) scope result
  .paren (output.blockResult
    (call "spread"
      [method (call "toArray" [contextRef depth, .text expression]) "map" [each]]))

/-- The test whether the value `v` hides an inverted section. -/
def hiddenTest (policy : InvertedPolicy) : Expr :=
  let v : Expr := .var "v"
  let isBoolean : Expr := .binary .equal (.typeOf v) (.text "boolean")
  let hasLength : Expr := .binary .above (.member v "length") (.number 0)
  let toStringFunction : Expr := .member (.member (.var "Object") "prototype") "toString"
  let isNoArray : Expr :=
    .binary .differ (method toStringFunction "call" [v]) (.text "[object Array]")
  .binary .and (.not (.not v)) (.paren
    (match policy with
    | .arrayAware => .binary .or (.binary .or isBoolean hasLength) isNoArray
    | .lengthOnly => .binary .or isBoolean hasLength))

/-- The expression of an inverted section at a depth (`emit_inverted`); `result` is what its body
gives. -/
def invertedExpr (policy : InvertedPolicy) (output : Output) (depth : Nat) (expression : String)
    (result : Expr) : Expr :=
  let value := call "safeAccess" [contextRef depth, .text expression]
  let hidden : Expr := .paren (.apply (.function ["v"] (hiddenTest policy)) [value])
  let scope := call "merge" [.record [], contextRef depth]
  -- The list has one item, whose value is not looked at.
  let once : Expr := .closure [] (String.ofList (contextVar (depth + 1))) scope result
  .paren (.choose hidden (.list [])
    (output.blockResult (call "spread" [method (.list [.number 1]) "map" [once]])))

/-! ## Nodes -/

/-- The text of a literal as it is emitted: newlines are layout in a structural
template and content in a flat one. -/
def literalText (target : Target) (value : String) : List Char :=
  match target with
  | .flat => value.toList
  | .structural => Text.dropNewlineRuns value.toList

/-- The fragment of a literal (`emit_literal`); a structural template omits an empty one. -/
def literalFragment? (target : Target) (value : String) : Option Fragment :=
  let text := literalText target value
  if target = .structural ∧ text = [] then none
  else some (.whole (.text (String.ofList text)))

/-- The module that an inclusion names. -/
def modulePath (extension name : String) : String :=
  "./" ++ name ++ extension

mutual

/-- What a node contributes at a depth; nothing if it is left out (`emit_node`). -/
def emitNode (o : EmitOptions) (output : Output) (depth : Nat) : Node → Option Fragment
  | .text value => literalFragment? o.target value
  | .interpolation expression escape _ =>
      some (.printed (call "safeAccess"
        ([contextRef depth, .text expression] ++ if escape then [.yes] else [])))
  | .inclusion name _ =>
      some (.whole (method (call "require" [.text (modulePath o.partialExtension name)]) "render"
        [contextRef depth]))
  | .block kind expression body _ =>
      let result := concatenated (output.close (emitNodes o output (depth + 1) body))
      some (.whole (match kind with
        | .normal => sectionExpr output depth expression result
        | .inverted => invertedExpr o.invertedPolicy output depth expression result))
  | .element tag attributes children =>
      some (.whole (.record
        [(.bare "tag", .text tag),
         (.bare "attrs", .record (emitAttributes o depth attributes)),
         (.bare "children",
           concatenated (Output.nodes.close (emitNodes o .nodes depth children)))]))

/-- What nodes contribute, in order (`emit_nodes`). -/
def emitNodes (o : EmitOptions) (output : Output) (depth : Nat) : List Node → List Fragment
  | [] => []
  | node :: rest => (emitNode o output depth node).toList ++ emitNodes o output depth rest

def emitAttribute (o : EmitOptions) (depth : Nat) : Attribute → FieldName × Expr
  | .static name value => (.quoted name, .text value)
  | .dynamic name parts => (.quoted name, runSum (emitNodes o .summed depth parts))

def emitAttributes (o : EmitOptions) (depth : Nat) : List Attribute → List (FieldName × Expr)
  | [] => []
  | attr :: rest => emitAttribute o depth attr :: emitAttributes o depth rest

end

/-! ## Bodies -/

/-- The output mode of a whole template. -/
def Target.output : Target → Output
  | .flat => .joined
  | .structural => .nodes

/-- The fragments of a whole template (`emit_body`). -/
def Tree.fragments (tree : Tree) (options : Options) : List Fragment :=
  emitNodes ⟨tree.target, options.invertedPolicy, options.partialExtension⟩ tree.target.output 0
    tree.nodes

/-- A run of fragments as it is written, each followed by its separator; the
wrapper puts the terminator behind it. -/
def bodyPieces (fragments : List Fragment) : List Piece :=
  fragments.flatMap fun fragment => fragment.argument.pieces ++ code ", "

/-- The text of a run of fragments. -/
def bodyText (fragments : List Fragment) : List Char :=
  Script.text (bodyPieces fragments)

/-- Whether a run of fragments needs what blocks need: it builds a scope. -/
def bodyUsesBlock (fragments : List Fragment) : Bool :=
  fragments.any fun fragment => fragment.argument.mentions "merge"

end Mustache
