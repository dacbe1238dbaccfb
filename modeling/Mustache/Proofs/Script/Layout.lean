import Mustache.Proofs.Script.Nest
import Mustache.Script.Expr
import Mustache.Script.Goal

/-!
Expressions as nests, and which of them are laid out well.

An expression is written down without regard to what its parts are: `Laid` says
which parts may stand where, so that no operator takes apart what belongs
together and no two words run into one. `nests` lists the tokens that the text of
an expression is meant to have, nested by their brackets.
-/
set_option autoImplicit false

namespace Mustache.Script

open Text

/-! ## Expressions as nests -/

/-- Nests with a comma between them. -/
def commaNests : List (List Nest) → List Nest
  | [] => []
  | [first] => first
  | first :: next :: rest => first ++ .token (.mark ",") :: commaNests (next :: rest)

def FieldName.nest : FieldName → Nest
  | .bare name => .token (.word name)
  | .quoted name => .token (.text name)

/-- The head of a function: its keyword and its parameters. -/
def parameterNests (parameters : List String) : List Nest :=
  [.token (.word "function"),
    .group .round (commaNests (parameters.map fun p => [.token (.word p)]))]

mutual

def Expr.nests : Expr → List Nest
  | .text value => [.token (.text value)]
  | .emptyText => [.token (.text "")]
  | .yes => [.token (.word "true")]
  | .number value => [.token (.number value)]
  | .var name => [.token (.word name)]
  | .member object name => object.nests ++ [.token (.mark "."), .token (.word name)]
  | .apply function arguments =>
      function.nests ++ [.group .round (commaNests (nestsOfList arguments))]
  | .list items => [.group .square (commaNests (nestsOfList items))]
  | .record fields => [.group .curly (commaNests (nestsOfFields fields))]
  | .sum first rest => first.nests ++ nestsOfSummands rest
  | .not operand => .token (.mark "!") :: operand.nests
  | .typeOf operand => .token (.word "typeof") :: operand.nests
  | .binary operator left right => left.nests ++ .token (.mark operator.mark) :: right.nests
  | .choose test t f =>
      test.nests ++ .token (.mark "?") :: (t.nests ++ .token (.mark ":") :: f.nests)
  | .paren inner => [.group .round inner.nests]
  | .function parameters result =>
      parameterNests parameters
        ++ [.group .curly (.token (.word "return") :: (result.nests ++ [.token (.mark ";")]))]
  | .closure parameters name value result =>
      parameterNests parameters
        ++ [.group .curly
          (.token (.word "var") :: .token (.word name) :: .token (.mark "=") ::
            (value.nests ++ .token (.mark ";") :: .token (.word "return") ::
              (result.nests ++ [.token (.mark ";")])))]

def nestsOfList : List Expr → List (List Nest)
  | [] => []
  | e :: rest => e.nests :: nestsOfList rest

/-- The fields of an object as nests. -/
def nestsOfFields : List (FieldName × Expr) → List (List Nest)
  | [] => []
  | (name, e) :: rest => (name.nest :: .token (.mark ":") :: e.nests) :: nestsOfFields rest

/-- The summands after the first as nests, each with its plus sign. -/
def nestsOfSummands : List (Bool × Expr) → List Nest
  | [] => []
  | (_, e) :: rest => .token (.mark "+") :: (e.nests ++ nestsOfSummands rest)

end

/-! ## Which parts may stand where -/

/-- Whether a name can stand for a variable. -/
def isName (name : String) : Bool :=
  isWord name && !reservedWords.contains name

/-- How loosely an operator holds its operands. -/
def BinaryOperator.looseness : BinaryOperator → Nat
  | .plus => 2
  | .above => 3
  | .equal | .differ => 4
  | .and => 5
  | .or => 6

/-- How loosely an expression holds its parts together: 0 where nothing can come
between them, and more for each kind of operator that binds less. -/
def Expr.looseness : Expr → Nat
  | .not _ | .typeOf _ => 1
  | .sum _ _ => 2
  | .binary operator _ _ => operator.looseness
  | .choose _ _ _ => 7
  | _ => 0

/-- Whether an expression is a numeral, which takes a point for its own. -/
def Expr.isNumber : Expr → Bool
  | .number _ => true
  | _ => false

/-- Whether the name of a field can be written as it is. -/
def FieldName.isLaid : FieldName → Bool
  | .bare name => isWord name
  | .quoted _ => true

mutual

/-- Whether the parts of an expression may stand where they do. -/
def Expr.Laid : Expr → Prop
  | .text _ | .emptyText | .yes => True
  | .number value => value < 10
  | .var name => isName name = true
  | .member object name =>
      object.Laid ∧ object.looseness = 0 ∧ object.isNumber = false ∧ isWord name = true
  | .apply function arguments => function.Laid ∧ function.looseness = 0 ∧ AllLaid arguments
  | .list items => AllLaid items
  | .record fields => FieldsLaid fields
  | .sum first rest => first.Laid ∧ first.looseness ≤ 1 ∧ SummandsLaid rest
  | .not operand => operand.Laid ∧ operand.looseness ≤ 1
  | .typeOf operand => operand.Laid ∧ operand.looseness ≤ 1
  | .binary operator left right =>
      left.Laid ∧ right.Laid ∧ left.looseness ≤ operator.looseness
        ∧ right.looseness < operator.looseness
  | .choose test t f =>
      (test.Laid ∧ t.Laid ∧ f.Laid) ∧ test.looseness ≤ 6 ∧ t.looseness ≤ 6 ∧ f.looseness ≤ 6
  | .paren inner => inner.Laid
  | .function parameters result => parameters.all isName = true ∧ result.Laid
  | .closure parameters name value result =>
      parameters.all isName = true ∧ isName name = true ∧ value.Laid ∧ result.Laid

/-- Whether the parts of the expressions of a list may stand where they do. -/
def AllLaid : List Expr → Prop
  | [] => True
  | e :: rest => e.Laid ∧ AllLaid rest

/-- Whether the parts of the fields of an object may stand where they do. -/
def FieldsLaid : List (FieldName × Expr) → Prop
  | [] => True
  | (name, e) :: rest => (name.isLaid = true ∧ e.Laid) ∧ FieldsLaid rest

/-- Whether the parts of summands may stand where they do. -/
def SummandsLaid : List (Bool × Expr) → Prop
  | [] => True
  | (_, e) :: rest => (e.Laid ∧ e.looseness ≤ 1) ∧ SummandsLaid rest

end

/-! ## How the text of an expression starts -/

/-- Whether an operand may start with a character. -/
def opensOperand (c : Char) : Bool :=
  isWordChar c || ['\'', '"', '(', '[', '\x7b', '!'].contains c

/-- Whether an operand may start where a text does. -/
def startsOperand (s : List Char) : Bool :=
  s.head?.any opensOperand

theorem startsOperand_word {name : String} (h : isWord name = true) (s : List Char) :
    startsOperand (name.toList ++ s) = true := by
  obtain ⟨hall, hhead⟩ := Bool.and_eq_true_iff.mp h
  cases hlist : name.toList with
  | nil => simp [hlist] at hhead
  | cons c more =>
      have hc : isWordChar c = true := by simp_all
      simp [startsOperand, opensOperand, hc]

theorem startsOperand_pieces : ∀ (e : Expr), e.Laid → ∀ s : List Char,
    startsOperand (text e.pieces ++ s) = true
  | .text _, _, _ => rfl
  | .emptyText, _, _ => rfl
  | .yes, _, _ => rfl
  | .number n, h, s => by
      have hdigits : ∀ d < 10, opensOperand (digitChar d) = true := by decide
      have hn : n < 10 := h
      rw [Expr.pieces, decimal, if_pos hn]
      exact hdigits n hn
  | .var name, h, s => by
      rw [Expr.pieces, text_code]
      exact startsOperand_word (Bool.and_eq_true_iff.mp h).1 s
  -- An expression starts as the leftmost one in it does.
  | .member object _, h, s => by
      simp only [Expr.pieces, text_append, List.append_assoc]
      exact startsOperand_pieces object h.1 _
  | .apply function _, h, s => by
      simp only [Expr.pieces, text_append, List.append_assoc]
      exact startsOperand_pieces function h.1 _
  | .list _, _, _ => rfl
  | .record _, _, _ => rfl
  | .sum first _, h, s => by
      simp only [Expr.pieces, text_append, List.append_assoc]
      exact startsOperand_pieces first h.1 _
  | .not _, _, _ => rfl
  | .typeOf _, _, _ => rfl
  | .binary _ left _, h, s => by
      simp only [Expr.pieces, text_append, List.append_assoc]
      exact startsOperand_pieces left h.1 _
  | .choose test _ _, h, s => by
      simp only [Expr.pieces, text_append, List.append_assoc]
      exact startsOperand_pieces test h.1.1 _
  | .paren _, _, _ => rfl
  | .function _ _, _, _ => rfl
  | .closure _ _ _ _, _, _ => rfl

/-- A character that an operand starts with is no blank and ends no line. -/
theorem isBlank_eq_false_of_opensOperand {c : Char} (h : opensOperand c = true) :
    (isLineBlank c || endsLine c) = false := by
  rw [opensOperand, Bool.or_eq_true] at h
  rcases h with h | h
  · exact isBlank_eq_false_of_isWordChar h
  · have hmarks : (['\'', '"', '(', '[', '\x7b', '!'].all fun d =>
        !(isLineBlank d || endsLine d)) = true := rfl
    have hc := List.all_eq_true.mp hmarks c (List.elem_iff.mp h)
    rwa [Bool.not_eq_true'] at hc

/-- A word ends before a blank that an operand follows. -/
theorem stopsWord_blank {s : List Char} (h : startsOperand s = true) :
    stopsWord (' ' :: s) = true := by
  cases s with
  | nil => simp [startsOperand] at h
  | cons c s =>
      have hc : opensOperand c = true := by simpa [startsOperand] using h
      obtain ⟨hblank, hend⟩ := Bool.or_eq_false_iff.mp (isBlank_eq_false_of_opensOperand hc)
      have hspace : endsLine ' ' = false := rfl
      have hline : lineEndsHere (' ' :: c :: s) = false := by
        simp [lineEndsHere, hblank, hend, hspace]
      rw [stopsWord, hline]
      rfl

end Mustache.Script
