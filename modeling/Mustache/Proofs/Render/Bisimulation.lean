import Mustache.Proofs.Render.Building
import Mustache.Proofs.Render.Inclusion

/-!
Data that no template tells apart.

A relation between scopes is a bisimulation for some expressions if related scopes print
the same for each of them, and if a block of each of them is shown in related scopes, pair
by pair. Templates that read these expressions alone, themselves and through all that
they include, then render in related scopes to one and the same result
(`Bisimulation.exists_bound`): the renderer learns of a scope through interpolations and
blocks only, and hands it to inclusions as it is (`renderNodes_of_alike`).
-/
set_option autoImplicit false

namespace Mustache

open Json

/-! ## One result -/

/-- Whether two computations have one and the same result. -/
def Coincide {α : Type} (x y : Option α) : Prop :=
  ∃ a, x = some a ∧ y = some a

theorem coincide_some {α : Type} (a : α) : Coincide (some a) (some a) :=
  ⟨a, rfl, rfl⟩

theorem Coincide.map {α β : Type} {x y : Option α} (h : Coincide x y) (f : α → β) :
    Coincide (x.map f) (y.map f) := by
  obtain ⟨a, rfl, rfl⟩ := h
  exact coincide_some (f a)

theorem Coincide.bind {α β : Type} {x y : Option α} (h : Coincide x y) {f g : α → Option β}
    (hresult : ∀ a, Coincide (f a) (g a)) : Coincide (x.bind f) (y.bind g) := by
  obtain ⟨a, rfl, rfl⟩ := h
  exact hresult a

/-- Lists whose members give the same, pair by pair, give the same. -/
theorem coincide_mapM {α β γ : Type} {f : α → Option γ} {g : β → Option γ} {xs : List α}
    {ys : List β} (h : List.Forall₂ (fun x y => Coincide (f x) (g y)) xs ys) :
    Coincide (xs.mapM f) (ys.mapM g) := by
  induction h with
  | nil => exact coincide_some []
  | cons hfirst _ ih =>
      rw [List.mapM_cons, List.mapM_cons]
      exact hfirst.bind fun a => ih.bind fun as => coincide_some (a :: as)

/-! ## Expressions -/

mutual

/-- The expressions of a node and of all that it holds. -/
def Node.expressions : Node → List String
  | .text _ | .inclusion .. => []
  | .interpolation expression _ _ => [expression]
  | .block _ expression body _ => expression :: expressionsOfNodes body
  | .element _ attributes children =>
      expressionsOfAttributes attributes ++ expressionsOfNodes children

def expressionsOfNodes : List Node → List String
  | [] => []
  | node :: rest => node.expressions ++ expressionsOfNodes rest

def Attribute.expressions : Attribute → List String
  | .static .. => []
  | .dynamic _ parts => expressionsOfNodes parts

def expressionsOfAttributes : List Attribute → List String
  | [] => []
  | attr :: rest => attr.expressions ++ expressionsOfAttributes rest

end

def Template.expressions (template : Template) : List String :=
  expressionsOfNodes template.tree.nodes

/-- Whether a page has an expression, itself or in a template that it includes, directly
or through others. -/
inductive Template.Reads (resolve : Resolver) (page : Template) : String → Prop
  | own {expression : String} (h : expression ∈ page.expressions) :
      Template.Reads resolve page expression
  | included {p : Site × String} {template : Template} {expression : String}
      (hreaches : Reaches resolve page p) (hresolve : resolve p.2 = some template)
      (h : expression ∈ template.expressions) : Template.Reads resolve page expression

/-! ## Two renderings of a node -/

section

variable (policy : InvertedPolicy) (included : String → Value → Value → Prop)

mutual

/-- Whether a node looks the same in two scopes but for what it includes: the interpolations
print the same, the blocks are shown in scopes of which the same is true, pair by pair, and what
is included is alike. -/
def Node.Alike (s s' : Value) : Node → Prop
  | .text _ => True
  | .interpolation expression escape _ =>
      interpolate s expression escape = interpolate s' expression escape
  | .inclusion name _ => included name s s'
  | .block kind expression body _ =>
      List.Forall₂ (fun child child' => NodesAlike child child' body)
        (blockScopes policy kind s expression) (blockScopes policy kind s' expression)
  | .element _ attributes children => AttributesAlike s s' attributes ∧ NodesAlike s s' children

/-- Whether the nodes of a list look the same in two scopes. -/
def NodesAlike (s s' : Value) : List Node → Prop
  | [] => True
  | node :: rest => node.Alike s s' ∧ NodesAlike s s' rest

/-- Whether the value of an attribute looks the same in two scopes. -/
def Attribute.Alike (s s' : Value) : Attribute → Prop
  | .static .. => True
  | .dynamic _ parts => NodesAlike s s' parts

/-- Whether the values of attributes look the same in two scopes. -/
def AttributesAlike (s s' : Value) : List Attribute → Prop
  | [] => True
  | attr :: rest => attr.Alike s s' ∧ AttributesAlike s s' rest

end

end

/-- Whether a name gives the same in two scopes, each with its own way of rendering inclusions. -/
def RendersAlike (inclusions inclusions' : Inclusions) (name : String) (s s' : Value) : Prop :=
  Coincide (inclusions.text name s) (inclusions'.text name s')
    ∧ Coincide (inclusions.nodes name s) (inclusions'.nodes name s')

section

variable {policy : InvertedPolicy} {inclusions inclusions' : Inclusions}

mutual

/-- The text of a node that looks the same is the same. -/
theorem builtTextOfNode_of_alike (target : Target) {node : Node} {s s' : Value}
    (h : node.Alike policy (RendersAlike inclusions inclusions') s s') :
    Coincide (builtTextOfNode target policy inclusions s node)
      (builtTextOfNode target policy inclusions' s' node) := by
  cases node with
  | text value =>
      rw [builtTextOfNode_text, builtTextOfNode_text]
      exact coincide_some _
  | interpolation expression escape location =>
      rw [Node.Alike] at h
      rw [builtTextOfNode_interpolation, builtTextOfNode_interpolation, h]
      exact coincide_some _
  | block kind expression body location =>
      rw [Node.Alike] at h
      rw [builtTextOfNode_block, builtTextOfNode_block]
      exact (coincide_mapM (h.imp fun _ _ hbody => builtText_of_alike target hbody)).map
        String.join
  | inclusion name location =>
      rw [Node.Alike] at h
      rw [builtTextOfNode_inclusion, builtTextOfNode_inclusion]
      exact h.1
  | element tag attributes children =>
      rw [builtTextOfNode_element, builtTextOfNode_element]
      exact coincide_some _

/-- The text of nodes that look the same is the same. -/
theorem builtText_of_alike (target : Target) {nodes : List Node} {s s' : Value}
    (h : NodesAlike policy (RendersAlike inclusions inclusions') s s' nodes) :
    Coincide (builtText target policy inclusions s nodes)
      (builtText target policy inclusions' s' nodes) := by
  cases nodes with
  | nil =>
      rw [builtText_nil, builtText_nil]
      exact coincide_some ""
  | cons node rest =>
      rw [NodesAlike] at h
      obtain ⟨first, hfirst, hfirst'⟩ := builtTextOfNode_of_alike target h.1
      obtain ⟨others, hothers, hothers'⟩ := builtText_of_alike target h.2
      rw [builtText_cons hfirst hothers, builtText_cons hfirst' hothers']
      exact coincide_some _

end

/-- An attribute whose value looks the same is the same. -/
theorem renderAttribute_of_alike {attr : Attribute} {s s' : Value}
    (h : attr.Alike policy (RendersAlike inclusions inclusions') s s') :
    Coincide (renderAttribute policy inclusions s attr)
      (renderAttribute policy inclusions' s' attr) := by
  cases attr with
  | static name value => exact coincide_some _
  | dynamic name parts =>
      rw [Attribute.Alike] at h
      have hparts : Coincide (attributeText policy inclusions s parts)
          (attributeText policy inclusions' s' parts) :=
        builtText_of_alike .structural h
      exact hparts.map (name, ·)

/-- Attributes whose values look the same are the same. -/
theorem renderAttributes_of_alike {attributes : List Attribute} {s s' : Value}
    (h : AttributesAlike policy (RendersAlike inclusions inclusions') s s' attributes) :
    Coincide (attributes.mapM (renderAttribute policy inclusions s))
      (attributes.mapM (renderAttribute policy inclusions' s')) := by
  refine coincide_mapM ?_
  induction attributes with
  | nil => exact .nil
  | cons attr rest ih =>
      rw [AttributesAlike] at h
      exact .cons (renderAttribute_of_alike h.1) (ih h.2)

mutual

/-- The entries of a node that looks the same are the same. -/
theorem renderNode_of_alike {node : Node} {s s' : Value}
    (h : node.Alike policy (RendersAlike inclusions inclusions') s s') :
    Coincide (renderNode policy inclusions s node) (renderNode policy inclusions' s' node) := by
  cases node with
  | text value => exact coincide_some _
  | interpolation expression escape location =>
      rw [Node.Alike] at h
      rw [renderNode, renderNode, h]
      exact coincide_some _
  | block kind expression body location =>
      rw [Node.Alike] at h
      rw [renderNode, renderNode]
      exact (coincide_mapM (h.imp fun _ _ hbody => renderNodes_of_alike hbody)).map List.flatten
  | inclusion name location =>
      rw [Node.Alike] at h
      exact h.2
  | element tag attributes children =>
      rw [Node.Alike] at h
      rw [renderNode, renderNode]
      exact (renderAttributes_of_alike h.1).bind fun values =>
        (renderNodes_of_alike h.2).bind fun inner => coincide_some _

/-- The entries of nodes that look the same are the same. -/
theorem renderNodes_of_alike {nodes : List Node} {s s' : Value}
    (h : NodesAlike policy (RendersAlike inclusions inclusions') s s' nodes) :
    Coincide (renderNodes policy inclusions s nodes)
      (renderNodes policy inclusions' s' nodes) := by
  cases nodes with
  | nil => exact coincide_some []
  | cons node rest =>
      rw [NodesAlike] at h
      rw [renderNodes, renderNodes]
      exact (renderNode_of_alike h.1).bind fun first =>
        (renderNodes_of_alike h.2).bind fun others => coincide_some _

end

end

/-! ## Bisimulations -/

/-- A relation between scopes that some expressions do not tell apart, neither where they
stand nor in the scopes of their blocks. -/
structure Bisimulation (reads : String → Prop) (related : Value → Value → Prop) : Prop where
  interpolate : ∀ {s s' expression}, related s s' → reads expression → ∀ escape,
    interpolate s expression escape = Mustache.interpolate s' expression escape
  blockScopes : ∀ {s s' expression}, related s s' → reads expression → ∀ policy kind,
    List.Forall₂ related (blockScopes policy kind s expression)
      (Mustache.blockScopes policy kind s' expression)

/-- Whether a name that is included gives the same in related scopes. -/
def IncludesAlike (related : Value → Value → Prop) (inclusions : Inclusions) (name : String) :
    Prop :=
  ∀ s s', related s s' → Coincide (inclusions.text name s) (inclusions.text name s')
    ∧ Coincide (inclusions.nodes name s) (inclusions.nodes name s')

section

variable {reads : String → Prop} {related : Value → Value → Prop} {policy : InvertedPolicy}
  {inclusions : Inclusions}

mutual

/-- A node looks the same in related scopes. -/
theorem Node.alike_of_related (hbisim : Bisimulation reads related) {site : Site} {node : Node}
    (hreads : ∀ e ∈ node.expressions, reads e)
    (hincluded : ∀ p ∈ node.inclusions site, IncludesAlike related inclusions p.2) {s s' : Value}
    (h : related s s') : node.Alike policy (RendersAlike inclusions inclusions) s s' := by
  cases node with
  | text value => exact trivial
  | interpolation expression escape location =>
      exact hbisim.interpolate h (hreads _ List.mem_cons_self) escape
  | inclusion name location => exact hincluded _ (List.mem_singleton.mpr rfl) s s' h
  | block kind expression body location =>
      -- The body is rendered in scopes that are related again, pair by pair.
      rw [Node.Alike]
      have hscopes := hbisim.blockScopes h (hreads _ List.mem_cons_self) policy kind
      have hbody : ∀ e ∈ expressionsOfNodes body, reads e :=
        fun e he => hreads e (List.mem_cons_of_mem _ he)
      exact hscopes.imp fun _ _ hscope => nodesAlike_of_related hbisim hbody hincluded hscope
  | element tag attributes children =>
      -- The children are a list again, whatever list the element stands in.
      have hinner : ∀ p ∈ inclusionsOfNodes .child children,
          IncludesAlike related inclusions p.2 :=
        fun p hp => hincluded p (List.mem_append_right _ hp)
      exact ⟨attributesAlike_of_related hbisim
          (fun e he => hreads e (List.mem_append_left _ he))
          (fun p hp => hincluded p (List.mem_append_left _ hp)) h,
        nodesAlike_of_related hbisim (fun e he => hreads e (List.mem_append_right _ he)) hinner h⟩

theorem nodesAlike_of_related (hbisim : Bisimulation reads related) {site : Site}
    {nodes : List Node} (hreads : ∀ e ∈ expressionsOfNodes nodes, reads e)
    (hincluded : ∀ p ∈ inclusionsOfNodes site nodes, IncludesAlike related inclusions p.2)
    {s s' : Value} (h : related s s') :
    NodesAlike policy (RendersAlike inclusions inclusions) s s' nodes := by
  cases nodes with
  | nil => exact trivial
  | cons node rest =>
      exact ⟨Node.alike_of_related hbisim (fun e he => hreads e (List.mem_append_left _ he))
          (fun p hp => hincluded p (List.mem_append_left _ hp)) h,
        nodesAlike_of_related hbisim (fun e he => hreads e (List.mem_append_right _ he))
          (fun p hp => hincluded p (List.mem_append_right _ hp)) h⟩

theorem Attribute.alike_of_related (hbisim : Bisimulation reads related) {attr : Attribute}
    (hreads : ∀ e ∈ attr.expressions, reads e)
    (hincluded : ∀ p ∈ attr.inclusions, IncludesAlike related inclusions p.2) {s s' : Value}
    (h : related s s') : attr.Alike policy (RendersAlike inclusions inclusions) s s' := by
  cases attr with
  | static name value => exact trivial
  | dynamic name parts => exact nodesAlike_of_related hbisim hreads hincluded h

theorem attributesAlike_of_related (hbisim : Bisimulation reads related)
    {attributes : List Attribute} (hreads : ∀ e ∈ expressionsOfAttributes attributes, reads e)
    (hincluded : ∀ p ∈ inclusionsOfAttributes attributes, IncludesAlike related inclusions p.2)
    {s s' : Value} (h : related s s') :
    AttributesAlike policy (RendersAlike inclusions inclusions) s s' attributes := by
  cases attributes with
  | nil => exact trivial
  | cons attr rest =>
      exact ⟨Attribute.alike_of_related hbisim (fun e he => hreads e (List.mem_append_left _ he))
          (fun p hp => hincluded p (List.mem_append_left _ hp)) h,
        attributesAlike_of_related hbisim (fun e he => hreads e (List.mem_append_right _ he))
          (fun p hp => hincluded p (List.mem_append_right _ hp)) h⟩

end

/-! ## Templates -/

/-- The text of a template is the same in related scopes, if all that it includes is. -/
theorem Template.textWith_coincide (hbisim : Bisimulation reads related) {template : Template}
    (hreads : ∀ e ∈ template.expressions, reads e)
    (hincluded : ∀ p ∈ template.inclusions, IncludesAlike related inclusions p.2) {s s' : Value}
    (h : related s s') :
    Coincide (template.textWith inclusions s) (template.textWith inclusions s') :=
  builtText_of_alike .flat (nodesAlike_of_related hbisim hreads hincluded h)

/-- The entries of a template are the same in related scopes, if all that it includes is. -/
theorem Template.nodesWith_coincide (hbisim : Bisimulation reads related) {template : Template}
    (hreads : ∀ e ∈ template.expressions, reads e)
    (hincluded : ∀ p ∈ template.inclusions, IncludesAlike related inclusions p.2) {s s' : Value}
    (h : related s s') :
    Coincide (template.nodesWith inclusions s) (template.nodesWith inclusions s') :=
  renderNodes_of_alike (nodesAlike_of_related hbisim hreads hincluded h)

/-- A name gives the same in related scopes, if all that its template includes does one
level deeper. -/
theorem includesAlike_succ (hbisim : Bisimulation reads related) {resolve : Resolver}
    {depth : Nat} {name : String}
    (hreads : ∀ template, resolve name = some template → ∀ e ∈ template.expressions, reads e)
    (hincluded : ∀ template, resolve name = some template → ∀ p ∈ template.inclusions,
      IncludesAlike related (inclusionsTo resolve depth) p.2) :
    IncludesAlike related (inclusionsTo resolve (depth + 1)) name := by
  intro s s' h
  cases hresolve : resolve name with
  | none =>
      simp only [inclusionsTo, hresolve]
      exact ⟨coincide_some "", coincide_some []⟩
  | some template =>
      have htext := Template.textWith_coincide hbisim (hreads template hresolve)
        (hincluded template hresolve) h
      have hnodes := Template.nodesWith_coincide hbisim (hreads template hresolve)
        (hincluded template hresolve) h
      simp only [inclusionsTo, hresolve, Template.includedNodes]
      -- Among texts and elements a flat template gives its text, and any other its entries.
      refine ⟨htext, ?_⟩
      cases template.options.target with
      | flat => exact htext.map _
      | structural => exact hnodes

end

/-- A page whose chains of inclusions end renders, from some depth on, to the same in scopes
that the expressions it reads do not tell apart. -/
theorem Bisimulation.exists_bound {resolve : Resolver} {page : Template}
    {related : Value → Value → Prop} (hbisim : Bisimulation (page.Reads resolve) related)
    (hsettles : ∀ p, Reaches resolve page p → Settles resolve p.2) :
    ∃ bound, ∀ depth, bound ≤ depth → ∀ s s', related s s' →
      Coincide (page.renderText resolve depth s) (page.renderText resolve depth s')
        ∧ Coincide (page.renderNodes resolve depth s) (page.renderNodes resolve depth s') := by
  obtain ⟨bound, hbound⟩ := exists_bound_of_settled hsettles
    (P := fun depth p => IncludesAlike related (inclusionsTo resolve depth) p.2)
    fun depth p hreaches hincluded => includesAlike_succ hbisim
      (fun template hresolve e he => .included hreaches hresolve he) hincluded
  refine ⟨bound, fun depth hdepth s s' h => ⟨?_, ?_⟩⟩
  · exact Template.textWith_coincide hbisim (fun e he => .own he) (hbound depth hdepth) h
  · exact Template.nodesWith_coincide hbisim (fun e he => .own he) (hbound depth hdepth) h

end Mustache
