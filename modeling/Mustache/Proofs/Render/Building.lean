import Mustache.Proofs.Text.NewlineRuns

/-!
Text that is built.

Text is built by all of a flat template, and in a structural one by the values of
attributes, whose literals lose their newlines. Both go over a list of nodes in the same
way, and `builtText` is either of them.
-/
set_option autoImplicit false

namespace Mustache

open Json

variable {inclusions : Inclusions}

/-- The text that the renderer gives for a node where text is built: in a structural
template that is the value of an attribute. -/
def builtTextOfNode (target : Target) (policy : InvertedPolicy) (inclusions : Inclusions)
    (scope : Value) (node : Node) : Option String :=
  match target with
  | .flat => textOfNode policy inclusions scope node
  | .structural => attributeTextOfNode policy inclusions scope node

/-- The text that the renderer gives for a list of nodes where text is built. -/
def builtText (target : Target) (policy : InvertedPolicy) (inclusions : Inclusions)
    (scope : Value) (nodes : List Node) : Option String :=
  match target with
  | .flat => textOfNodes policy inclusions scope nodes
  | .structural => attributeText policy inclusions scope nodes

theorem builtText_nil (target : Target) (policy : InvertedPolicy) (scope : Value) :
    builtText target policy inclusions scope [] = some "" := by
  cases target <;> rfl

theorem builtText_cons_eq (target : Target) (policy : InvertedPolicy) (scope : Value)
    (node : Node) (rest : List Node) :
    builtText target policy inclusions scope (node :: rest) = (do
      let first ← builtTextOfNode target policy inclusions scope node
      let others ← builtText target policy inclusions scope rest
      some (first ++ others)) := by
  cases target <;> rfl

theorem builtText_cons {target : Target} {policy : InvertedPolicy} {scope : Value} {node : Node}
    {rest : List Node} {first others : String}
    (hfirst : builtTextOfNode target policy inclusions scope node = some first)
    (hothers : builtText target policy inclusions scope rest = some others) :
    builtText target policy inclusions scope (node :: rest) = some (first ++ others) := by
  rw [builtText_cons_eq, hfirst, hothers]
  rfl

theorem builtText_cons_eq_some {target : Target} {policy : InvertedPolicy} {scope : Value}
    {node : Node} {rest : List Node} {t : String}
    (h : builtText target policy inclusions scope (node :: rest) = some t) :
    ∃ first others, builtTextOfNode target policy inclusions scope node = some first
      ∧ builtText target policy inclusions scope rest = some others ∧ first ++ others = t := by
  rw [builtText_cons_eq] at h
  simp only [Option.bind_eq_bind, Option.bind_eq_some_iff, Option.some.injEq] at h
  obtain ⟨first, hfirst, others, hothers, rfl⟩ := h
  exact ⟨first, others, hfirst, hothers, rfl⟩

theorem builtTextOfNode_text (target : Target) (policy : InvertedPolicy) (scope : Value)
    (value : String) :
    builtTextOfNode target policy inclusions scope (.text value)
      = some (String.ofList (literalText target value)) := by
  cases target with
  | flat => rw [builtTextOfNode, textOfNode, literalText, String.ofList_toList]
  | structural => rw [builtTextOfNode, attributeTextOfNode, literalText_structural, collapsed]

theorem builtTextOfNode_interpolation (target : Target) (policy : InvertedPolicy) (scope : Value)
    (expression : String) (escape : Bool) (location : Location) :
    builtTextOfNode target policy inclusions scope (.interpolation expression escape location)
      = some (interpolate scope expression escape) := by
  cases target <;> rfl

theorem builtTextOfNode_block (target : Target) (policy : InvertedPolicy) (scope : Value)
    (kind : BlockKind) (expression : String) (body : List Node) (location : Location) :
    builtTextOfNode target policy inclusions scope (.block kind expression body location)
      = joinScopes (fun child => builtText target policy inclusions child body)
        (blockScopes policy kind scope expression) := by
  cases target <;> rfl

theorem builtTextOfNode_inclusion (target : Target) (policy : InvertedPolicy) (scope : Value)
    (name : String) (location : Location) :
    builtTextOfNode target policy inclusions scope (.inclusion name location)
      = inclusions.text name scope := by
  cases target <;> rfl

theorem builtTextOfNode_element (target : Target) (policy : InvertedPolicy) (scope : Value)
    (tag : String) (attributes : List Attribute) (children : List Node) :
    builtTextOfNode target policy inclusions scope (.element tag attributes children)
      = some "[object Object]" := by
  cases target <;> rfl

end Mustache
