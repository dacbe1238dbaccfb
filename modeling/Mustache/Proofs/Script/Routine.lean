import Mustache.Module.Body
import Mustache.Module.Helper

/-!
Functions as syntax trees.

The functions that a module brings along are fixed texts. A `Routine` is such a function as
a tree of statements and expressions, and `Routine.layout` writes it down as the texts are
written. A layout puts parentheses where an operand holds its own operands more loosely than
the place that it stands at allows, and nowhere else, so that a text stands for one tree; a
form of its own is there for parentheses that could be left out.
-/
set_option autoImplicit false

namespace Mustache

open Text

namespace Routine

/-! ## Syntax -/

/-- An operator between two operands. -/
inductive Operator where
  | above
  | same
  | differ
  /-- The comparison that takes null for a missing value. -/
  | differLoosely
  | and
  | or
  deriving DecidableEq, Repr

inductive Expression where
  | text (value : String)
  | number (value : Nat)
  | boolean (value : Bool)
  | null
  | name (name : String)
  | list (items : List Expression)
  /-- A pattern for every place where a character stands. -/
  | pattern (c : Char)
  | member (object : Expression) (name : String)
  /-- What stands under a key that is computed. -/
  | item (object key : Expression)
  | call (function : String) (arguments : List Expression)
  | send (object : Expression) (method : String) (arguments : List Expression)
  /-- Takes the first item of the list that a variable holds. -/
  | shift (name : String)
  | not (operand : Expression)
  | typeOf (operand : Expression)
  | binary (operator : Operator) (left right : Expression)
  | choose (test whenTrue whenFalse : Expression)
  | assign (name : String) (value : Expression)
  /-- Parentheses that could be left out. -/
  | paren (inner : Expression)

mutual

inductive Statement where
  /-- The declaration of a variable with its value. -/
  | declare (name : String) (value : Expression)
  | perform (value : Expression)
  | give (value : Expression)
  /-- A loop that does nothing besides its test. -/
  | spin (test : Expression)
  | branch (chain : Chain)

/-- What is done in one case. -/
inductive Arm where
  /-- Returns a value, without braces. -/
  | quick (value : Expression)
  | block (body : List Statement)

/-- Cases, of which the first one that holds is taken. -/
inductive Chain where
  | test (condition : Expression) (arm : Arm) (rest : Chain)
  | otherwise (arm : Arm)
  | done

end

end Routine

/-- A function. -/
structure Routine where
  name : String
  parameters : List String
  body : List Routine.Statement

namespace Routine

/-! ## Layout of expressions -/

namespace Operator

/-- How the operator is written. -/
def mark : Operator → String
  | .above => ">"
  | .same => "==="
  | .differ => "!=="
  | .differLoosely => "!="
  | .and => "&&"
  | .or => "||"

/-- How loosely the operator holds its operands. -/
def looseness : Operator → Nat
  | .above => 2
  | .same | .differ | .differLoosely => 3
  | .and => 4
  | .or => 5

end Operator

/-- How loosely an expression holds its parts. -/
def Expression.looseness : Expression → Nat
  | .text _ | .number _ | .boolean _ | .null | .name _ | .list _ | .pattern _ | .member _ _
  | .item _ _ | .call _ _ | .send _ _ _ | .shift _ | .paren _ => 0
  | .not _ | .typeOf _ => 1
  | .binary operator _ _ => operator.looseness
  | .choose _ _ _ => 6
  | .assign _ _ => 7

/-- A part as it is written at a place that takes parts up to a looseness. -/
def enclosed (bound : Nat) (part : Expression) (written : List Char) : List Char :=
  if part.looseness ≤ bound then written else '(' :: (written ++ [')'])

/-- Texts with a comma and a blank between them. -/
def listed (texts : List (List Char)) : List Char :=
  [',', ' '].intercalate texts

mutual

/-- An expression as it is written. -/
def Expression.layout : Expression → List Char
  | .text value => Quoted.literal value.toList
  | .number value => decimal value
  | .boolean value => (if value then "true" else "false").toList
  | .null => "null".toList
  | .name name => name.toList
  | .list items => '[' :: (listed (layouts items) ++ [']'])
  | .pattern c => ['/', c, '/', 'g']
  | .member object name => enclosed 0 object object.layout ++ '.' :: name.toList
  | .item object key => enclosed 0 object object.layout ++ '[' :: (key.layout ++ [']'])
  | .call function arguments => function.toList ++ '(' :: (listed (layouts arguments) ++ [')'])
  | .send object method arguments =>
      enclosed 0 object object.layout ++ '.' :: (method.toList
        ++ '(' :: (listed (layouts arguments) ++ [')']))
  | .shift name => name.toList ++ ".shift()".toList
  | .not operand => '!' :: enclosed 1 operand operand.layout
  | .typeOf operand => "typeof ".toList ++ enclosed 1 operand operand.layout
  | .binary operator left right =>
      -- Operators of one looseness go from left to right.
      enclosed operator.looseness left left.layout ++ ' ' :: (operator.mark.toList
        ++ ' ' :: enclosed (operator.looseness - 1) right right.layout)
  | .choose test whenTrue whenFalse =>
      enclosed 5 test test.layout ++ " ? ".toList ++ (whenTrue.layout
        ++ (" : ".toList ++ whenFalse.layout))
  | .assign name value => name.toList ++ (" = ".toList ++ value.layout)
  | .paren inner => '(' :: (inner.layout ++ [')'])

/-- Expressions as they are written. -/
def layouts : List Expression → List (List Char)
  | [] => []
  | e :: rest => e.layout :: layouts rest

end

/-! ## Layout of statements -/

/-- The blanks in front of a line. -/
def indent (depth : Nat) : List Char :=
  List.replicate depth '\t'

mutual

/-- A statement as it is written; `depth` is that of its own line. -/
def Statement.layout (depth : Nat) : Statement → List Char
  | .declare name value =>
      "var ".toList ++ (name.toList ++ (" = ".toList ++ (value.layout ++ [';'])))
  | .perform value => value.layout ++ [';']
  | .give value => "return ".toList ++ (value.layout ++ [';'])
  | .spin test => "while (".toList ++ (test.layout ++ ");".toList)
  | .branch chain => chain.layout depth

/-- What is done in one case, as it is written. -/
def Arm.layout (depth : Nat) : Arm → List Char
  | .quick value => "return ".toList ++ (value.layout ++ [';'])
  | .block body => "\x7b\n".toList ++ (linesOf (depth + 1) body ++ (indent depth ++ "\x7d".toList))

/-- Cases as they are written. -/
def Chain.layout (depth : Nat) : Chain → List Char
  | .test condition arm rest =>
      "if (".toList ++ (condition.layout ++ (") ".toList ++ (arm.layout depth
        ++ match rest with
          | .done => []
          | rest => " else ".toList ++ rest.layout depth)))
  | .otherwise arm => arm.layout depth
  | .done => []

def linesOf (depth : Nat) : List Statement → List Char
  | [] => []
  | statement :: rest =>
      indent depth ++ (statement.layout depth ++ '\n' :: linesOf depth rest)

end

end Routine

/-- A function as it is written. -/
def Routine.layout (routine : Routine) : List Char :=
  "function ".toList ++ (routine.name.toList ++ ('('
    :: (Routine.listed (routine.parameters.map String.toList) ++ (") \x7b\n".toList
      ++ (Routine.linesOf 1 routine.body ++ "\x7d".toList)))))

/-! ## The functions of a module -/

namespace Routine

/-- Calls a method on what an expression stands for, once for each pattern, with the text
that replaces it. -/
def replaced (object : Expression) (entities : List (Char × String)) : Expression :=
  entities.foldl (fun e entity => .send e "replace" [.pattern entity.1, .text entity.2]) object

/-- Whether an expression stands for a value of a type. -/
def hasType (e : Expression) (kind : String) : Expression :=
  .binary .same (.typeOf e) (.text kind)

/-- The test of the loop that walks a path: it takes one key and looks it up. -/
def walking : Expression :=
  .binary .and
    (.binary .and (.binary .above (.member (.name "attrs") "length") (.number 0))
      (.binary .differLoosely (.name "obj") .null))
    (.binary .differ (.typeOf (.assign "obj" (.item (.name "obj") (.shift "attrs"))))
      (.text "undefined"))

/-- What is made of the value that a path leads to. -/
def settling : Chain :=
  .test
    (.binary .and (hasType (.name "obj") "string")
      (.binary .same (.name "escape") (.boolean true)))
    (.block [.give (replaced (.name "obj")
      [('&', "&amp;"), ('<', "&lt;"), ('"', "&quot;"), ('>', "&gt;")])])
    (.test (hasType (.name "obj") "function")
      (.block [.give (.send (.name "obj") "apply"
        [.name "originalObject", .send (.name "parts") "slice" [.number 1]])])
      (.otherwise (.block [.give (.choose (hasType (.name "obj") "number") (.name "obj")
        (.paren (.binary .or (.name "obj") (.text ""))))])))

/-- The function that walks a path. -/
def safeAccess : Routine where
  name := "safeAccess"
  parameters := ["obj", "attrs", "escape"]
  body :=
    [.declare "originalObject" (.name "obj"),
     .branch (.test (.not (.name "attrs")) (.quick (.name "obj")) .done),
     .branch (.test (.binary .same (.item (.name "attrs") (.number 0)) (.text "."))
       (.block [.give (.item (.name "obj") (.name "attrs"))]) .done),
     .declare "parts" (.send (.name "attrs") "split" [.text " "]),
     .perform (.assign "attrs" (.send (.item (.name "parts") (.number 0)) "split" [.text "."])),
     .spin walking,
     .branch settling]

/-- What a section passes to a value that is a function. -/
def callableArguments : SectionCallable → List Expression
  | .withContext => [.name "data"]
  | .noArgs => []

/-- Makes a list of a value that counts as true, if it is none. An array is known by what it
inherits from. -/
def listing (callable : SectionCallable) : List Statement :=
  let prototypeOf (e : Expression) : Expression := .send (.name "Object") "getPrototypeOf" [e]
  let isArrays (e : Expression) : Expression := .binary .same e (.name "arrayPrototype")
  [.declare "arrayPrototype" (prototypeOf (.list [])),
   .declare "valuePrototype" (.binary .or
     (.binary .and (.binary .same (.text "object") (.typeOf (.name "dataValue")))
       (prototypeOf (.name "dataValue")))
     (.boolean false)),
   .branch (.test
     (.binary .and (.name "valuePrototype")
       (.binary .or (isArrays (.name "valuePrototype"))
         (isArrays (prototypeOf (.name "valuePrototype")))))
     (.block [.give (.name "dataValue")])
     (.test (hasType (.name "dataValue") "function")
       (.block [.give (.call "dataValue" (callableArguments callable))])
       (.otherwise (.quick (.list [.name "dataValue"])))))]

/-- The function that lists what a section is shown for. -/
def toArray (callable : SectionCallable) : Routine where
  name := "toArray"
  parameters := ["data", "value"]
  body :=
    [.declare "dataValue" (.call "safeAccess" [.name "data", .name "value"]),
     .branch (.test (.name "dataValue") (.block (listing callable))
       (.otherwise (.block [.give (.list [])])))]

/-- A text that is taken apart at its line ends is put together from its lines. -/
theorem lines_splitOn (text : List Char) :
    Helper.lines ((text.splitOn '\n').map String.ofList) = String.ofList text := by
  refine String.toList_inj.mp ?_
  have hid : String.toList ∘ String.ofList = id := funext fun _ => String.toList_ofList
  rw [Helper.lines, String.toList_intercalate, List.map_map, hid, List.map_id]
  exact (List.intercalate_splitOn '\n').trans String.toList_ofList.symm

/-- The trees are those of the texts that modules bring along. -/
theorem layout_safeAccess : String.ofList safeAccess.layout = Helper.safeAccessSource := by
  rw [← lines_splitOn]
  exact congrArg Helper.lines (by decide +kernel)

theorem layout_toArray (options : Options) :
    String.ofList (toArray options.sectionCallable).layout = Helper.source options .toArray := by
  rw [Helper.source, ← lines_splitOn]
  cases options.sectionCallable
  · exact congrArg Helper.lines (by decide +kernel)
  · exact congrArg Helper.lines (by decide +kernel)

/-- The condition under which an inverted section is hidden. -/
def hiddenCondition (policy : InvertedPolicy) : Expression :=
  let isBoolean : Expression := hasType (.name "v") "boolean"
  let hasLength : Expression := .binary .above (.member (.name "v") "length") (.number 0)
  let toStringFunction : Expression := .member (.member (.name "Object") "prototype") "toString"
  let isNoArray : Expression :=
    .binary .differ (.send toStringFunction "call" [.name "v"]) (.text "[object Array]")
  .binary .and (.not (.not (.name "v")))
    (match policy with
      | .arrayAware => .binary .or (.binary .or isBoolean hasLength) isNoArray
      | .lengthOnly => .binary .or isBoolean hasLength)

theorem layout_hiddenCondition (policy : InvertedPolicy) :
    (hiddenCondition policy).layout = Script.text (hiddenTest policy).pieces := by
  cases policy
  · decide +kernel
  · decide +kernel

end Routine

end Mustache
