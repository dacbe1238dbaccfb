import Mustache.Proofs.Script.Comparison
import Mustache.Proofs.Script.Evaluation
import Mustache.Proofs.Script.Routine

/-!
What functions compute.

Expressions are evaluated and statements executed in an environment of variables. A value has
the properties that are its own and no others: an object its members, an array and a string
their length and an item under each place, written as the decimal numeral that it has. A
lookup in null or in a missing value fails, as does whatever has no meaning here. A list is
held by one variable at a time, so that taking its first item changes that variable alone.
A loop is given a number of rounds, and fails if it needs more.
-/
set_option autoImplicit false

namespace Mustache

open Json Text Script

namespace Routine

/-! ## What an expression stands for -/

/-- What an expression stands for. -/
inductive Thing where
  /-- A value; `none` is the missing one. -/
  | value (v : Option Value)
  /-- A built-in object, by the names that lead to it. -/
  | builtin (path : List String)
  /-- A pattern for every place where a character stands. -/
  | pattern (c : Char)

/-- The things that a value holds under their places. -/
def ownIndexed? (things : List Value) (key : String) : Option Value :=
  if key = "length" then some (.ofNat things.length)
  else NameMap.get? (numbered 0 things) key

/-- The property of a value that is its own. -/
def ownProperty? (v : Value) (key : String) : Option Value :=
  match v with
  | .obj members => NameMap.get? members key
  | .arr items => ownIndexed? items key
  | .str s => ownIndexed? ((units s.toList).map unitValue) key
  | .null | .bool _ | .num _ => none

namespace Thing

/-- A value that is not missing. -/
def of (v : Value) : Thing :=
  .value (some v)

/-- Whether a thing counts as true. -/
def truthy : Thing → Bool
  | .value v => Mustache.truthy v
  | .builtin _ | .pattern _ => true

/-- A property, by its name. -/
def property? (t : Thing) (key : String) : Option Thing :=
  match t with
  | .value none | .value (some .null) | .pattern _ => none
  | .value (some v) => some (.value (ownProperty? v key))
  | .builtin path => some (.builtin (path ++ [key]))

/-- What an object inherits from. -/
def prototype? : Thing → Option Thing
  | .value (some (.arr _)) => some (.builtin ["Array", "prototype"])
  | .value (some (.obj _)) | .builtin ["Array", "prototype"] =>
      some (.builtin ["Object", "prototype"])
  | .builtin ["Object", "prototype"] => some (.of .null)
  | _ => none

/-- The parts of a text between the places where a separator of one character stands. -/
def split? (s separator : String) : Option Thing :=
  match separator.toList with
  | [c] => some (.of (.arr ((s.toList.splitOn c).map fun part => .str (String.ofList part))))
  | _ => none

/-- A text with each `c` replaced. In what replaces it, a dollar sign would be read as part
of a pattern. -/
def replace? (s : String) (c : Char) (replacement : String) : Option Thing :=
  if '$' ∈ replacement.toList then none
  else some (.of (.str (String.ofList
    (s.toList.flatMap fun d => if d = c then replacement.toList else [d]))))

/-- The call of a method. -/
def send? (receiver : Thing) (method : String) (arguments : List Thing) : Option Thing :=
  match receiver, method, arguments with
  | .value (some (.str s)), "split", [.value (some (.str separator))] => split? s separator
  | .value (some (.str s)), "replace", [.pattern c, .value (some (.str replacement))] =>
      replace? s c replacement
  | .builtin ["Object"], "getPrototypeOf", [t] => t.prototype?
  | .builtin ["Object", "prototype", "toString"], "call", [.value v] =>
      some (.of (.str (className v)))
  | _, _, _ => none

/-! ## Operators -/

def same? : Thing → Thing → Option Bool
  | .value (some (.str s)), .value (some (.str t)) => some (s = t)
  | .value (some (.bool a)), .value (some (.bool b)) => some (a = b)
  | .value a, .value b => if className a = className b then none else some false
  | .builtin p, .builtin q => some (p = q)
  | .builtin _, .value _ | .value _, .builtin _ => some false
  | .pattern _, _ | _, .pattern _ => none

/-- Whether a thing is neither null nor missing. -/
def isPresent : Thing → Bool
  | .value none | .value (some .null) => false
  | _ => true

/-- What an operator makes of two things; the logical ones have a rule of their own. -/
def operate? (operator : Operator) (left right : Thing) : Option Bool :=
  match operator with
  | .above =>
      match left, right with
      | .value v, .value (some (.num n)) =>
          if n.isZero then some (quantityOf v).isPositive else none
      | _, _ => none
  | .same => left.same? right
  | .differ => (left.same? right).map (!·)
  | .differLoosely => if right.isPresent then none else some left.isPresent
  | .and | .or => none

end Thing

/-! ## Environments -/

/-- What variables stand for. -/
abbrev Environment := String → Option Thing

namespace Environment

/-- Sets a variable. -/
def bind (env : Environment) (name : String) (t : Thing) : Environment :=
  fun x => if x = name then some t else env x

/-- Binds parameters to arguments. A parameter without an argument is missing. -/
def bindAll (env : Environment) : (parameters : List String) → (arguments : List Thing) →
    Environment
  | [], _ => env
  | name :: parameters, arguments =>
      (env.bind name (arguments.head?.getD (.value none))).bindAll parameters arguments.tail

end Environment

/-- What the names that a function does not bind stand for. -/
def globals : Environment
  | "Object" => some (.builtin ["Object"])
  | _ => none

/-- What calls of functions give, by their names. -/
abbrev Functions := String → List Thing → Option Thing

/-! ## Evaluation -/

mutual

/-- What an expression stands for, and the environment behind it. -/
def Expression.eval (functions : Functions) :
    Expression → Environment → Option (Thing × Environment)
  | .text value, env => some (.of (.str value), env)
  | .number value, env => some (.of (.ofNat value), env)
  | .boolean value, env => some (.of (.bool value), env)
  | .null, env => some (.of .null, env)
  | .name name, env => do some (← env name, env)
  | .list items, env => do
      let (things, env) ← evalAll functions items env
      let items ← things.mapM fun
        | .value v => v
        | _ => none
      some (.of (.arr items), env)
  | .pattern c, env => some (.pattern c, env)
  | .member object name, env => do
      let (t, env) ← object.eval functions env
      some (← t.property? name, env)
  | .item object key, env => do
      let (t, env) ← object.eval functions env
      match ← key.eval functions env with
      | (.value v, env) => some (← t.property? (printed v), env)
      | _ => none
  | .call function arguments, env => do
      let (things, env) ← evalAll functions arguments env
      -- A name that is bound hides the function, and stands for none itself.
      match env function with
      | none => some (← functions function things, env)
      | some _ => none
  | .send object method arguments, env => do
      let (t, env) ← object.eval functions env
      let (things, env) ← evalAll functions arguments env
      some (← t.send? method things, env)
  | .shift name, env =>
      match env name with
      | some (.value (some (.arr []))) => some (.value none, env)
      | some (.value (some (.arr (first :: rest)))) =>
          some (.of first, env.bind name (.of (.arr rest)))
      | _ => none
  | .not operand, env => do
      let (t, env) ← operand.eval functions env
      some (.of (.bool !t.truthy), env)
  | .typeOf operand, env => do
      match ← operand.eval functions env with
      | (.value v, env) => some (.of (.str (typeName v)), env)
      | _ => none
  | .binary operator left right, env => do
      let (l, env) ← left.eval functions env
      match operator with
      | .and => if l.truthy then right.eval functions env else some (l, env)
      | .or => if l.truthy then some (l, env) else right.eval functions env
      | operator => do
          let (r, env) ← right.eval functions env
          some (.of (.bool (← l.operate? operator r)), env)
  | .choose test whenTrue whenFalse, env => do
      let (t, env) ← test.eval functions env
      if t.truthy then whenTrue.eval functions env else whenFalse.eval functions env
  | .assign name value, env => do
      let (t, env) ← value.eval functions env
      match env name with
      | none => none
      | some _ => some (t, env.bind name t)
  | .paren inner, env => inner.eval functions env

/-- What expressions stand for, one after another. -/
def evalAll (functions : Functions) :
    List Expression → Environment → Option (List Thing × Environment)
  | [], env => some ([], env)
  | e :: rest, env => do
      let (t, env) ← e.eval functions env
      let (things, env) ← evalAll functions rest env
      some (t :: things, env)

end

attribute [simp] Expression.eval evalAll

/-! ## Logical operators -/

section

variable {functions : Functions} {env behind : Environment} {left right : Expression} {t : Thing}
  {a b : Bool}

theorem eval_and_of_false (hl : left.eval functions env = some (t, behind))
    (ht : t.truthy = false) :
    (Expression.binary .and left right).eval functions env = some (t, behind) := by
  rw [Expression.eval, hl]
  exact if_neg (by rw [ht]; exact Bool.false_ne_true)

theorem eval_and_of_true (hl : left.eval functions env = some (t, behind))
    (ht : t.truthy = true) :
    (Expression.binary .and left right).eval functions env = right.eval functions behind := by
  rw [Expression.eval, hl]
  exact if_pos ht

theorem eval_or_of_false (hl : left.eval functions env = some (t, behind))
    (ht : t.truthy = false) :
    (Expression.binary .or left right).eval functions env = right.eval functions behind := by
  rw [Expression.eval, hl]
  exact if_neg (by rw [ht]; exact Bool.false_ne_true)

theorem eval_or_of_true (hl : left.eval functions env = some (t, behind))
    (ht : t.truthy = true) :
    (Expression.binary .or left right).eval functions env = some (t, behind) := by
  rw [Expression.eval, hl]
  exact if_pos ht

theorem eval_choose {test : Expression}
    (h : test.eval functions env = some (.of (.bool a), behind)) :
    (Expression.choose test left right).eval functions env
      = if a then left.eval functions behind else right.eval functions behind := by
  rw [Expression.eval, h]
  cases a <;> rfl

/-- Where two operands give booleans, so does what joins them. The second one need not give
any where it is not reached. -/
theorem eval_and (hl : left.eval functions env = some (.of (.bool a), env))
    (hr : a = true → right.eval functions env = some (.of (.bool b), env)) :
    (Expression.binary .and left right).eval functions env
      = some (.of (.bool (a && b)), env) := by
  cases a with
  | false => exact eval_and_of_false hl rfl
  | true => exact (eval_and_of_true hl rfl).trans (hr rfl)

theorem eval_or (hl : left.eval functions env = some (.of (.bool a), env))
    (hr : right.eval functions env = some (.of (.bool b), env)) :
    (Expression.binary .or left right).eval functions env
      = some (.of (.bool (a || b)), env) := by
  cases a with
  | false => exact (eval_or_of_false hl rfl).trans hr
  | true => exact eval_or_of_true hl rfl

end

/-! ## Execution -/

/-- What a statement leads to. -/
inductive Outcome where
  | returned (t : Thing)
  | next (env : Environment)

/-- A loop that does nothing besides its test, in at most `rounds` rounds. -/
def spin (functions : Functions) (test : Expression) :
    (rounds : Nat) → Environment → Option Environment
  | 0, _ => none
  | rounds + 1, env => do
      let (t, env) ← test.eval functions env
      if t.truthy then spin functions test rounds env else some env

mutual

/-- Executes a statement. -/
def Statement.run (functions : Functions) (rounds : Nat) :
    Statement → Environment → Option Outcome
  | .declare name value, env => do
      let (t, env) ← value.eval functions env
      some (.next (env.bind name t))
  | .perform value, env => do
      let (_, env) ← value.eval functions env
      some (.next env)
  | .give value, env => do
      let (t, _) ← value.eval functions env
      some (.returned t)
  | .spin test, env => do some (.next (← spin functions test rounds env))
  | .branch chain, env => chain.run functions rounds env

/-- Executes what is done in one case. -/
def Arm.run (functions : Functions) (rounds : Nat) : Arm → Environment → Option Outcome
  | .quick value, env => do
      let (t, _) ← value.eval functions env
      some (.returned t)
  | .block body, env => runAll functions rounds body env

/-- Executes the first case that holds. -/
def Chain.run (functions : Functions) (rounds : Nat) : Chain → Environment → Option Outcome
  | .test condition arm rest, env => do
      let (t, env) ← condition.eval functions env
      if t.truthy then arm.run functions rounds env else rest.run functions rounds env
  | .otherwise arm, env => arm.run functions rounds env
  | .done, env => some (.next env)

/-- Executes statements up to one that returns. -/
def runAll (functions : Functions) (rounds : Nat) :
    List Statement → Environment → Option Outcome
  | [], env => some (.next env)
  | statement :: rest, env => do
      match ← statement.run functions rounds env with
      | .returned t => some (.returned t)
      | .next env => runAll functions rounds rest env

end

attribute [simp] Statement.run Arm.run Chain.run runAll

section

variable {functions : Functions} {rounds : Nat} {env behind : Environment} {t : Thing}

theorem run_test_of_true {condition : Expression} {arm : Arm} {rest : Chain}
    (h : condition.eval functions env = some (t, behind)) (ht : t.truthy = true) :
    (Chain.test condition arm rest).run functions rounds env
      = arm.run functions rounds behind := by
  rw [Chain.run, h]
  exact if_pos ht

theorem run_test_of_false {condition : Expression} {arm : Arm} {rest : Chain}
    (h : condition.eval functions env = some (t, behind)) (ht : t.truthy = false) :
    (Chain.test condition arm rest).run functions rounds env
      = rest.run functions rounds behind := by
  rw [Chain.run, h]
  exact if_neg (by rw [ht]; exact Bool.false_ne_true)

theorem run_quick {value : Expression} (h : value.eval functions env = some (t, behind)) :
    (Arm.quick value).run functions rounds env = some (.returned t) := by
  rw [Arm.run, h]
  rfl

theorem runAll_give {value : Expression} {rest : List Statement}
    (h : value.eval functions env = some (t, behind)) :
    runAll functions rounds (.give value :: rest) env = some (.returned t) := by
  rw [runAll, Statement.run, h]
  rfl

theorem runAll_branch_of_returned {chain : Chain} {rest : List Statement}
    (h : chain.run functions rounds env = some (.returned t)) :
    runAll functions rounds (.branch chain :: rest) env = some (.returned t) := by
  rw [runAll, Statement.run, h]
  rfl

theorem runAll_branch_of_next {chain : Chain} {rest : List Statement}
    (h : chain.run functions rounds env = some (.next behind)) :
    runAll functions rounds (.branch chain :: rest) env = runAll functions rounds rest behind := by
  rw [runAll, Statement.run, h]
  rfl

theorem runAll_declare {name : String} {value : Expression} {rest : List Statement}
    (h : value.eval functions env = some (t, behind)) :
    runAll functions rounds (.declare name value :: rest) env
      = runAll functions rounds rest (behind.bind name t) := by
  rw [runAll, Statement.run, h]
  rfl

theorem runAll_perform {value : Expression} {rest : List Statement}
    (h : value.eval functions env = some (t, behind)) :
    runAll functions rounds (.perform value :: rest) env
      = runAll functions rounds rest behind := by
  rw [runAll, Statement.run, h]
  rfl

theorem runAll_spin {test : Expression} {rest : List Statement}
    (h : spin functions test rounds env = some behind) :
    runAll functions rounds (.spin test :: rest) env = runAll functions rounds rest behind := by
  rw [runAll, Statement.run, h]
  rfl

end

end Routine

/-- What a call of a function gives; a function that returns nothing gives the missing
value. -/
def Routine.run (routine : Routine) (functions : Routine.Functions) (rounds : Nat)
    (arguments : List Routine.Thing) : Option Routine.Thing := do
  match ← Routine.runAll functions rounds routine.body
      (Routine.globals.bindAll routine.parameters arguments) with
  | .returned t => some t
  | .next _ => some (.value none)

theorem Routine.run_of_returned {routine : Routine} {functions : Routine.Functions} {rounds : Nat}
    {arguments : List Routine.Thing} {t : Routine.Thing}
    (h : Routine.runAll functions rounds routine.body
      (Routine.globals.bindAll routine.parameters arguments) = some (.returned t)) :
    routine.run functions rounds arguments = some t := by
  rw [Routine.run, h]
  rfl

end Mustache
