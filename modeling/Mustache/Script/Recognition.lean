import Mustache.Script.Goal

/-!
How recognising a script stands.

The goal on top of the stack is replaced by the goals that it stands for, or it takes
lexemes away. What was read last where a value may stand is kept, for the goals that
ask about it.
-/
set_option autoImplicit false

namespace Mustache.Script

/-- How recognising a script stands. -/
structure Recognition where
  /-- What is to be met, the next goal first, each with its surroundings. -/
  goals : List (Goal × Surroundings)
  rest : List Char
  /-- What was read last where a value may stand. -/
  operand : Operand

namespace Recognition

def start (goal : Goal) (s : List Char) : Recognition := ⟨[(goal, .outside)], s, .of .value⟩

/-! ## Replacing a goal -/

/-- Puts goals in front, each in its surroundings, and goes on at `rest`. -/
def replaceBy (r : Recognition) (goals : List (Goal × Surroundings)) (rest : List Char) :
    Option Recognition :=
  some { r with goals := goals ++ r.goals, rest }

/-- Puts goals in front, all in the same surroundings, and goes on at `rest`. -/
def become (r : Recognition) (around : Surroundings) (goals : List Goal) (rest : List Char) :
    Option Recognition :=
  r.replaceBy (goals.map (·, around)) rest

/-! ## Meeting a goal -/

/-- Goes on where the goal was met by nothing. -/
def skip (r : Recognition) : Option Recognition := some r

/-- Goes on behind what the goal was met by. -/
def advance (r : Recognition) (rest : List Char) : Option Recognition :=
  some { r with rest }

/-- Goes on behind a value of a shape. -/
def reads (r : Recognition) (shape : Shape) (rest : List Char) : Option Recognition :=
  some { r with operand := .of shape, rest }

/-- Goes on if a condition holds. -/
def skipIf (r : Recognition) (condition : Bool) : Option Recognition :=
  if condition then some r else none

/-- Goes on behind the next lexeme if a condition holds. -/
def takeIf (r : Recognition) (condition : Bool) (next : Peek) : Option Recognition :=
  if condition then some { r with rest := next.rest } else none

end Recognition

end Mustache.Script
