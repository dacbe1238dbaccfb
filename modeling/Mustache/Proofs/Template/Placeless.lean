import Mustache.Proofs.Template.Rewording
import Mustache.Template.Builder

/-!
Trees without places.

A place in a tree is there for error messages alone. Two templates that are cut into alike
pieces are read alike: both fail, with errors of one code, or both have trees, and these are
the same once their places are left out (`readFlat_alike`).
-/
set_option autoImplicit false

namespace Mustache

/-! ## Leaving places out -/

mutual

/-- A node without its places. -/
def Node.placeless : Node → Node
  | .text value => .text value
  | .interpolation expression escape _ => .interpolation expression escape .unknown
  | .block kind expression body _ => .block kind expression (placelessNodes body) .unknown
  | .inclusion name _ => .inclusion name .unknown
  | .element tag attributes children =>
      .element tag (placelessAttributes attributes) (placelessNodes children)

/-- The nodes of a list without their places. -/
def placelessNodes : List Node → List Node
  | [] => []
  | node :: rest => node.placeless :: placelessNodes rest

/-- An attribute without its places. -/
def Attribute.placeless : Attribute → Attribute
  | .static name value => .static name value
  | .dynamic name parts => .dynamic name (placelessNodes parts)

/-- The attributes of a list without their places. -/
def placelessAttributes : List Attribute → List Attribute
  | [] => []
  | attr :: rest => attr.placeless :: placelessAttributes rest

end

theorem placelessNodes_eq_map (nodes : List Node) :
    placelessNodes nodes = nodes.map Node.placeless := by
  induction nodes with
  | nil => rfl
  | cons node rest ih => rw [placelessNodes, ih, List.map_cons]

/-- Leaving places out does not depend on the order of the nodes. -/
theorem placelessNodes_reverse (nodes : List Node) :
    placelessNodes nodes.reverse = (placelessNodes nodes).reverse := by
  rw [placelessNodes_eq_map, placelessNodes_eq_map, List.map_reverse]

namespace Builder

/-- An open block, and the list around it, without their places. -/
def placelessBlock (block : Scope × List Node) : Scope × List Node :=
  ({ block.1 with location := .unknown }, placelessNodes block.2)

/-- A partly built tree without its places. -/
def placeless (b : Builder) : Builder :=
  ⟨placelessNodes b.body, b.enclosing.map placelessBlock⟩

theorem depth_placeless (b : Builder) : b.placeless.depth = b.depth := by
  simp [depth, scopes, ScopeStack.depth, placeless]

theorem placeless_addNode (b : Builder) (node : Node) :
    (b.addNode node).placeless = b.placeless.addNode node.placeless := rfl

theorem placeless_addLiteral (b : Builder) (text : List Char) :
    (b.addLiteral text).placeless = b.placeless.addLiteral text := by
  unfold addLiteral
  split_ifs
  · rfl
  · rfl

theorem placeless_openBlock (b : Builder) (kind : BlockKind) (expression : String)
    (location : Location) :
    (b.openBlock kind expression location).placeless
      = b.placeless.openBlock kind expression .unknown := by
  unfold openBlock
  rw [depth_placeless]
  rfl

theorem placeless_closeBlock? (b : Builder) :
    b.closeBlock?.map placeless = b.placeless.closeBlock? := by
  unfold closeBlock?
  cases henclosing : b.enclosing with
  | nil => simp [placeless, henclosing]
  | cons block rest =>
      obtain ⟨scope, outer⟩ := block
      simp only [placeless, henclosing, List.map_cons, placelessBlock, Option.map_some,
        placelessNodes, Node.placeless, placelessNodes_reverse]

end Builder

/-! ## Alike outcomes -/

/-- Whether two computations fail with errors of one code, or both have results, and what is
seen of these is the same. -/
inductive AlikeOutcomes {α β : Type} (seen : α → β) :
    Except TemplateError α → Except TemplateError α → Prop
  | ok {a b : α} (h : seen a = seen b) : AlikeOutcomes seen (.ok a) (.ok b)
  | error {e f : TemplateError} (h : e.code = f.code) : AlikeOutcomes seen (.error e) (.error f)

theorem AlikeOutcomes.bind {α β α' β' : Type} {seen : α → β} {seen' : α' → β'}
    {first first' : Except TemplateError α} {second second' : α → Except TemplateError α'}
    (h : AlikeOutcomes seen first first')
    (hnext : ∀ a b, seen a = seen b → AlikeOutcomes seen' (second a) (second' b)) :
    AlikeOutcomes seen' (first.bind second) (first'.bind second') := by
  cases h with
  | ok h => exact hnext _ _ h
  | error h => exact .error h

/-! ## Alike pieces -/

namespace Builder

variable {b c : Builder} {source other : List Char} (file : String)

theorem closeBlock?_alike (h : b.placeless = c.placeless) :
    b.closeBlock?.map placeless = c.closeBlock?.map placeless := by
  rw [placeless_closeBlock?, placeless_closeBlock?, h]

/-- Tags that are alike do the same to trees that are the same without places. -/
theorem addTag_alike {tag tag' : Tag} (htags : Segment.Alike (.tag tag) (.tag tag'))
    (h : b.placeless = c.placeless) :
    AlikeOutcomes placeless (b.addTag source file tag) (c.addTag other file tag') := by
  cases htags with
  | tag hsigil hexpression =>
      unfold addTag
      rw [← hsigil]
      by_cases hclose : tag.sigil = .blockClose
      · -- What the tag names is read by no one, unless no block is open.
        have hclosed := closeBlock?_alike h
        rw [hclose]
        unfold act
        cases hb : b.closeBlock? with
        | none =>
            rw [hb, Option.map_none] at hclosed
            rw [Option.map_eq_none_iff.mp hclosed.symm]
            exact .error rfl
        | some closed =>
            rw [hb, Option.map_some] at hclosed
            obtain ⟨closed', hc, hsame⟩ := Option.map_eq_some_iff.mp hclosed.symm
            rw [hc]
            exact .ok hsame.symm
      · rw [← hexpression hclose]
        cases hsigil : tag.sigil with
        | blockClose => exact absurd hsigil hclose
        | comment => exact .ok h
        | blockOpen | invertedOpen =>
            apply AlikeOutcomes.ok
            rw [placeless_openBlock, placeless_openBlock, h]
        | inclusion | raw | plain =>
            apply AlikeOutcomes.ok
            rw [placeless_addNode, placeless_addNode, h]
            rfl

/-- Alike pieces are taken alike. -/
theorem addSegments_alike {segments others : List Segment}
    (hsegments : List.Forall₂ Segment.Alike segments others) (h : b.placeless = c.placeless) :
    AlikeOutcomes placeless (b.addSegments source file segments)
      (c.addSegments other file others) := by
  induction hsegments generalizing b c with
  | nil => exact .ok h
  | cons hfirst _ ih =>
      cases hfirst with
      | literal text =>
          apply ih
          rw [placeless_addLiteral, placeless_addLiteral, h]
      | tag hsigil hexpression =>
          apply (addTag_alike file (.tag hsigil hexpression) h).bind
          intro next next' hnext
          exact ih hnext

/-- A tree is complete or not, whatever its places. -/
theorem finish_alike (h : b.placeless = c.placeless) :
    AlikeOutcomes placelessNodes (b.finish file) (c.finish file) := by
  have hbody : placelessNodes b.body = placelessNodes c.body := congrArg Builder.body h
  have henclosing : b.enclosing.map placelessBlock = c.enclosing.map placelessBlock :=
    congrArg Builder.enclosing h
  have hempty : b.enclosing.isEmpty = c.enclosing.isEmpty := by
    rw [← List.isEmpty_map (f := placelessBlock), henclosing, List.isEmpty_map]
  unfold finish
  rw [hempty]
  split_ifs
  · apply AlikeOutcomes.ok
    rw [placelessNodes_reverse, placelessNodes_reverse, hbody]
  · exact .error rfl

end Builder

/-- Templates that are cut into alike pieces are read alike. -/
theorem readFlat_alike {source other : List Char} (file : String)
    (h : List.Forall₂ Segment.Alike (scan source) (scan other)) :
    AlikeOutcomes placelessNodes (readFlat source file) (readFlat other file) := by
  have hbuilt : AlikeOutcomes Builder.placeless
      (Builder.empty.addSegments source file (scan source))
      (Builder.empty.addSegments other file (scan other)) :=
    Builder.addSegments_alike file h rfl
  exact hbuilt.bind fun _ _ hsame => Builder.finish_alike file hsame

end Mustache
