import Mathlib.Data.Set.Card
import Mustache.Proofs.Render.Bisimulation

/-!
How deep inclusions nest.

What rendering a node in a scope includes can be listed beforehand, each name with the scope
that it is handed (`Node.met`), for the scopes of a block depend on data alone. A name nests
within a depth in a scope if all that its template comes to there nests within one less. To any
depth of at least that much the name renders, and always to the same
(`rendersAlike_of_nestsWithin`). Where names lead to each other without a circle, each leads to one
name of a template less than what includes it, itself, so that inclusions nest no deeper than
there are templates to reach (`rendering_ends`).
-/
set_option autoImplicit false

namespace Mustache

open Json Relation

/-! ## Inclusions and their scopes -/

mutual

/-- What a node includes when it is rendered in a scope, each name with the scope that its
template is handed. -/
def Node.met (policy : InvertedPolicy) (scope : Value) : Node → List (String × Value)
  | .text _ | .interpolation .. => []
  | .inclusion name _ => [(name, scope)]
  | .block kind expression body _ =>
      (blockScopes policy kind scope expression).flatMap fun child => metByNodes policy child body
  | .element _ attributes children =>
      metByAttributes policy scope attributes ++ metByNodes policy scope children

/-- What the nodes of a list include in a scope. -/
def metByNodes (policy : InvertedPolicy) (scope : Value) : List Node → List (String × Value)
  | [] => []
  | node :: rest => node.met policy scope ++ metByNodes policy scope rest

/-- What the value of an attribute includes in a scope. -/
def Attribute.met (policy : InvertedPolicy) (scope : Value) : Attribute → List (String × Value)
  | .static .. => []
  | .dynamic _ parts => metByNodes policy scope parts

/-- What the values of attributes include in a scope. -/
def metByAttributes (policy : InvertedPolicy) (scope : Value) :
    List Attribute → List (String × Value)
  | [] => []
  | attr :: rest => attr.met policy scope ++ metByAttributes policy scope rest

end

/-- What a template includes in a scope. -/
def Template.met (template : Template) (scope : Value) : List (String × Value) :=
  metByNodes template.options.invertedPolicy scope template.tree.nodes

section

variable {policy : InvertedPolicy}

mutual

theorem Node.exists_site_of_mem_met {node : Node} {scope : Value} {p : String × Value}
    (hp : p ∈ node.met policy scope) (site : Site) :
    ∃ site', (site', p.1) ∈ node.inclusions site := by
  cases node with
  | text value => cases hp
  | interpolation expression escape location => cases hp
  | inclusion name location =>
      cases List.mem_singleton.mp hp
      exact ⟨site, List.mem_singleton.mpr rfl⟩
  | block kind expression body location =>
      obtain ⟨child, -, hbody⟩ := List.mem_flatMap.mp hp
      exact exists_site_of_mem_metByNodes hbody site
  | element tag attributes children =>
      rcases List.mem_append.mp hp with hattributes | hchildren
      · obtain ⟨site', hsite'⟩ := exists_site_of_mem_metByAttributes hattributes
        exact ⟨site', List.mem_append_left _ hsite'⟩
      · obtain ⟨site', hsite'⟩ := exists_site_of_mem_metByNodes hchildren .child
        exact ⟨site', List.mem_append_right _ hsite'⟩

theorem exists_site_of_mem_metByNodes {nodes : List Node} {scope : Value} {p : String × Value}
    (hp : p ∈ metByNodes policy scope nodes) (site : Site) :
    ∃ site', (site', p.1) ∈ inclusionsOfNodes site nodes := by
  cases nodes with
  | nil => cases hp
  | cons node rest =>
      rcases List.mem_append.mp hp with hfirst | hrest
      · obtain ⟨site', hsite'⟩ := Node.exists_site_of_mem_met hfirst site
        exact ⟨site', List.mem_append_left _ hsite'⟩
      · obtain ⟨site', hsite'⟩ := exists_site_of_mem_metByNodes hrest site
        exact ⟨site', List.mem_append_right _ hsite'⟩

theorem Attribute.exists_site_of_mem_met {attr : Attribute} {scope : Value} {p : String × Value}
    (hp : p ∈ attr.met policy scope) : ∃ site', (site', p.1) ∈ attr.inclusions := by
  cases attr with
  | static name value => cases hp
  | dynamic name parts => exact exists_site_of_mem_metByNodes hp .text

theorem exists_site_of_mem_metByAttributes {attributes : List Attribute} {scope : Value}
    {p : String × Value} (hp : p ∈ metByAttributes policy scope attributes) :
    ∃ site', (site', p.1) ∈ inclusionsOfAttributes attributes := by
  cases attributes with
  | nil => cases hp
  | cons attr rest =>
      rcases List.mem_append.mp hp with hfirst | hrest
      · obtain ⟨site', hsite'⟩ := Attribute.exists_site_of_mem_met hfirst
        exact ⟨site', List.mem_append_left _ hsite'⟩
      · obtain ⟨site', hsite'⟩ := exists_site_of_mem_metByAttributes hrest
        exact ⟨site', List.mem_append_right _ hsite'⟩

end

end

/-! ## Two ways of including -/

section

variable {policy : InvertedPolicy} {included : String → Value → Value → Prop}

mutual

/-- A node looks the same in a scope if all that it includes there is alike. -/
theorem Node.alike_of_met {node : Node} {scope : Value}
    (h : ∀ p ∈ node.met policy scope, included p.1 p.2 p.2) :
    node.Alike policy included scope scope := by
  cases node with
  | text value => exact trivial
  | interpolation expression escape location => exact Eq.refl _
  | inclusion name location => exact h _ (List.mem_singleton.mpr rfl)
  | block kind expression body location =>
      rw [Node.Alike, List.forall₂_same]
      exact fun child hchild => nodesAlike_of_met fun p hp =>
        h p (List.mem_flatMap.mpr ⟨child, hchild, hp⟩)
  | element tag attributes children =>
      exact ⟨attributesAlike_of_met fun p hp => h p (List.mem_append_left _ hp),
        nodesAlike_of_met fun p hp => h p (List.mem_append_right _ hp)⟩

theorem nodesAlike_of_met {nodes : List Node} {scope : Value}
    (h : ∀ p ∈ metByNodes policy scope nodes, included p.1 p.2 p.2) :
    NodesAlike policy included scope scope nodes := by
  cases nodes with
  | nil => exact trivial
  | cons node rest =>
      exact ⟨Node.alike_of_met fun p hp => h p (List.mem_append_left _ hp),
        nodesAlike_of_met fun p hp => h p (List.mem_append_right _ hp)⟩

theorem Attribute.alike_of_met {attr : Attribute} {scope : Value}
    (h : ∀ p ∈ attr.met policy scope, included p.1 p.2 p.2) :
    attr.Alike policy included scope scope := by
  cases attr with
  | static name value => exact trivial
  | dynamic name parts => exact nodesAlike_of_met h

theorem attributesAlike_of_met {attributes : List Attribute} {scope : Value}
    (h : ∀ p ∈ metByAttributes policy scope attributes, included p.1 p.2 p.2) :
    AttributesAlike policy included scope scope attributes := by
  cases attributes with
  | nil => exact trivial
  | cons attr rest =>
      exact ⟨Attribute.alike_of_met fun p hp => h p (List.mem_append_left _ hp),
        attributesAlike_of_met fun p hp => h p (List.mem_append_right _ hp)⟩

end

end

/-! ## Nesting -/

/-- Whether the inclusions that a name leads to in a scope nest at most so deep, counting the
template of the name itself. -/
def NestsWithin (resolve : Resolver) : Nat → String → Value → Prop
  | 0, name, _ => resolve name = none
  | depth + 1, name, scope => ∀ template, resolve name = some template →
      ∀ p ∈ template.met scope, NestsWithin resolve depth p.1 p.2

variable {resolve : Resolver}

theorem NestsWithin.mono {depth depth' : Nat} {name : String} {scope : Value}
    (h : NestsWithin resolve depth name scope) (hle : depth ≤ depth') :
    NestsWithin resolve depth' name scope := by
  induction depth generalizing depth' name scope with
  | zero =>
      cases depth' with
      | zero => exact h
      | succ depth' =>
          intro template htemplate
          rw [NestsWithin] at h
          rw [h] at htemplate
          cases htemplate
  | succ depth ih =>
      obtain ⟨less, rfl⟩ : ∃ less, depth' = less + 1 := ⟨depth' - 1, by omega⟩
      exact fun template htemplate p hp => ih (h template htemplate p hp) (by omega)

theorem rendersAlike_of_unresolved {name : String} (h : resolve name = none)
    (depth depth' : Nat) (scope : Value) :
    RendersAlike (inclusionsTo resolve depth) (inclusionsTo resolve depth') name scope scope := by
  have hnothing (depth : Nat) : (inclusionsTo resolve depth).text name scope = some ""
      ∧ (inclusionsTo resolve depth).nodes name scope = some [] := by
    cases depth <;> simp [inclusionsTo, h]
  exact ⟨⟨"", (hnothing depth).1, (hnothing depth').1⟩,
    ⟨[], (hnothing depth).2, (hnothing depth').2⟩⟩

/-- To all depths that a name nests within it renders, and to the same. -/
theorem rendersAlike_of_nestsWithin {bound depth depth' : Nat} {name : String} {scope : Value}
    (h : NestsWithin resolve bound name scope) (hdepth : bound ≤ depth) (hdepth' : bound ≤ depth') :
    RendersAlike (inclusionsTo resolve depth) (inclusionsTo resolve depth') name scope scope := by
  induction bound generalizing depth depth' name scope with
  | zero => exact rendersAlike_of_unresolved h depth depth' scope
  | succ bound ih =>
      cases hresolve : resolve name with
      | none => exact rendersAlike_of_unresolved hresolve depth depth' scope
      | some template =>
          obtain ⟨less, rfl⟩ : ∃ less, depth = less + 1 := ⟨depth - 1, by omega⟩
          obtain ⟨less', rfl⟩ : ∃ less, depth' = less + 1 := ⟨depth' - 1, by omega⟩
          have hmet : ∀ p ∈ template.met scope,
              RendersAlike (inclusionsTo resolve less) (inclusionsTo resolve less') p.1 p.2 p.2 :=
            fun p hp => ih (h template hresolve p hp) (by omega) (by omega)
          have htext : Coincide (template.textWith (inclusionsTo resolve less) scope)
              (template.textWith (inclusionsTo resolve less') scope) :=
            builtText_of_alike .flat (nodesAlike_of_met hmet)
          have hnodes : Coincide (template.nodesWith (inclusionsTo resolve less) scope)
              (template.nodesWith (inclusionsTo resolve less') scope) :=
            renderNodes_of_alike (nodesAlike_of_met hmet)
          simp only [RendersAlike, inclusionsTo, hresolve, Template.includedNodes]
          -- Among texts and elements a flat template gives its text, and any other its entries.
          refine ⟨htext, ?_⟩
          cases template.options.target with
          | flat => exact htext.map _
          | structural => exact hnodes

/-- A page of which all inclusions nest within a depth renders, to the same text and to the same
entries at all depths from there on. -/
theorem Template.renders_of_nestsWithin {page : Template} {bound : Nat} {data : Value}
    (h : ∀ p ∈ page.met data, NestsWithin resolve bound p.1 p.2) :
    ∃ text entries, ∀ depth, bound ≤ depth →
      page.renderText resolve depth data = some text
        ∧ page.renderNodes resolve depth data = some entries := by
  have hmet (depth : Nat) (hdepth : bound ≤ depth) (p : String × Value) (hp : p ∈ page.met data) :
      RendersAlike (inclusionsTo resolve bound) (inclusionsTo resolve depth) p.1 p.2 p.2 :=
    rendersAlike_of_nestsWithin (h p hp) (le_refl bound) hdepth
  have htext (depth : Nat) (hdepth : bound ≤ depth) :
      Coincide (page.renderText resolve bound data) (page.renderText resolve depth data) :=
    builtText_of_alike .flat (nodesAlike_of_met (hmet depth hdepth))
  have hnodes (depth : Nat) (hdepth : bound ≤ depth) :
      Coincide (page.renderNodes resolve bound data) (page.renderNodes resolve depth data) :=
    renderNodes_of_alike (nodesAlike_of_met (hmet depth hdepth))
  -- What is rendered at the bound is what every larger depth gives.
  obtain ⟨text, htextBound, -⟩ := htext bound (le_refl bound)
  obtain ⟨entries, hnodesBound, -⟩ := hnodes bound (le_refl bound)
  refine ⟨text, entries, fun depth hdepth => ⟨?_, ?_⟩⟩
  · obtain ⟨text', hbound, hdeeper⟩ := htext depth hdepth
    exact hdeeper.trans (hbound.symm.trans htextBound)
  · obtain ⟨entries', hbound, hdeeper⟩ := hnodes depth hdepth
    exact hdeeper.trans (hbound.symm.trans hnodesBound)

/-! ## Names that lead to each other -/

/-- The names of templates that a name leads to, itself among them. -/
def ledTo (resolve : Resolver) (name : String) : Set String :=
  {inner | (resolve inner).isSome ∧ ReflTransGen (Includes resolve) name inner}

/-- Whether a name leads to no circle of inclusions. -/
def LeadsToNoCircle (resolve : Resolver) (name : String) : Prop :=
  ∀ inner, ReflTransGen (Includes resolve) name inner →
    ¬ TransGen (Includes resolve) inner inner

/-- A name whose chains of inclusions end leads to no circle. -/
theorem leadsToNoCircle_of_settles {name : String} (h : Settles resolve name) :
    LeadsToNoCircle resolve name := by
  intro inner hinner
  have hsettles : Settles resolve inner := by
    induction hinner with
    | refl => exact h
    | tail _ hstep ih => exact ih.inv hstep
  exact hsettles.not_transGen

/-- A template without inclusions leads to itself alone. -/
theorem encard_ledTo_of_leaf {name : String} {template : Template}
    (hresolve : resolve name = some template) (hnone : template.inclusions = []) :
    (ledTo resolve name).encard ≤ 1 := by
  rw [← Set.encard_singleton name]
  refine Set.encard_le_encard fun inner hinner => ?_
  rcases ReflTransGen.cases_head hinner.2 with heq | ⟨next, hnext, -⟩
  · exact heq.symm
  · exact absurd hnext (not_includes_of_leaf hresolve hnone next)

/-- A name that is included leads to one name less than the one that includes it: not to that
one itself. -/
theorem encard_ledTo_add_one_le {name inner : String} (hname : (resolve name).isSome)
    (hincludes : Includes resolve name inner) (hcircle : ¬ TransGen (Includes resolve) name name) :
    (ledTo resolve inner).encard + 1 ≤ (ledTo resolve name).encard := by
  have hout : name ∉ ledTo resolve inner := fun hmem =>
    hcircle (TransGen.head' hincludes hmem.2)
  rw [← Set.encard_insert_of_notMem hout]
  refine Set.encard_le_encard (Set.insert_subset ⟨hname, .refl⟩ fun m hm => ?_)
  exact ⟨hm.1, ReflTransGen.head hincludes hm.2⟩

/-- A name that leads to no circle nests within the number of names that it leads to. -/
theorem nestsWithin_of_encard_le {depth : Nat} {name : String}
    (hcircle : LeadsToNoCircle resolve name) (h : (ledTo resolve name).encard ≤ depth)
    (scope : Value) : NestsWithin resolve depth name scope := by
  induction depth generalizing name scope with
  | zero =>
      have hempty : ledTo resolve name = ∅ := by
        rw [← Set.encard_eq_zero]
        exact nonpos_iff_eq_zero.mp h
      rw [NestsWithin, ← Option.not_isSome_iff_eq_none]
      intro hsome
      have hself : name ∈ ledTo resolve name := ⟨hsome, .refl⟩
      rw [hempty] at hself
      exact hself
  | succ depth ih =>
      intro template htemplate p hp
      have hincludes : Includes resolve name p.1 :=
        ⟨template, htemplate, exists_site_of_mem_metByNodes hp template.tree.target.site⟩
      -- Nothing leads back to the name itself, so each template that it includes leads to fewer.
      have hless : (ledTo resolve p.1).encard + 1 ≤ (depth : ℕ∞) + 1 := by
        refine (encard_ledTo_add_one_le ?_ hincludes (hcircle name .refl)).trans h
        rw [htemplate]
        rfl
      refine ih (fun inner hinner => hcircle inner (.head hincludes hinner)) ?_ p.2
      exact (ENat.add_le_add_iff_right ENat.one_ne_top).mp hless

/-! ## Pages -/

/-- What a name leads to that a page includes is reached from the page. -/
theorem Reaches.of_reflTransGen {page : Template} {site : Site} {name inner : String}
    (h : Reaches resolve page (site, name)) (hinner : ReflTransGen (Includes resolve) name inner) :
    ∃ site', Reaches resolve page (site', inner) := by
  induction hinner with
  | refl => exact ⟨site, h⟩
  | tail _ hstep ih =>
      obtain ⟨site', hreaches⟩ := ih
      obtain ⟨template, hresolve, site'', hmem⟩ := hstep
      exact ⟨site'', hreaches.through hresolve hmem⟩

/-- The names of templates that a page includes, directly or through others. -/
def Template.partials (resolve : Resolver) (page : Template) : Set String :=
  {name | (resolve name).isSome ∧ ∃ site, Reaches resolve page (site, name)}

/-- A page from which no circle of inclusions is reached renders for all data, and to one and
the same text and to one and the same entries at every depth that is at least the number of
templates that it reaches. -/
theorem rendering_ends {page : Template}
    (hcircle : ∀ p, Reaches resolve page p → ¬ TransGen (Includes resolve) p.2 p.2) {bound : Nat}
    (hbound : (page.partials resolve).encard ≤ bound) (data : Value) :
    ∃ text entries, ∀ depth, bound ≤ depth →
      page.renderText resolve depth data = some text
        ∧ page.renderNodes resolve depth data = some entries := by
  refine Template.renders_of_nestsWithin fun p hp => ?_
  obtain ⟨site, hmem⟩ := exists_site_of_mem_metByNodes hp page.tree.target.site
  have hreached {inner : String} (h : ReflTransGen (Includes resolve) p.1 inner) :
      ∃ site', Reaches resolve page (site', inner) :=
    (Reaches.own hmem).of_reflTransGen h
  refine nestsWithin_of_encard_le (fun inner hinner => ?_) ?_ p.2
  · obtain ⟨site', hreaches⟩ := hreached hinner
    exact hcircle _ hreaches
  · have hsubset : ledTo resolve p.1 ⊆ page.partials resolve :=
      fun inner hinner => ⟨hinner.1, hreached hinner.2⟩
    exact (Set.encard_le_encard hsubset).trans hbound

/-- A template that shows an item. -/
def entryTemplate : Template :=
  ⟨⟨"entry", .flat, [.interpolation "." true ⟨1, 1⟩]⟩, Options.default⟩

/-- A list of the items, with a name that no template bears. -/
def listingTemplate : Template :=
  ⟨⟨"listing", .structural,
    [.block .normal "items" [.inclusion "entry" ⟨1, 11⟩, .inclusion "missing" ⟨1, 22⟩] ⟨1, 1⟩]⟩,
    { Options.default with target := .structural }⟩

/-- The resolver that knows these two. -/
def listingAndEntry : Resolver :=
  fun name => if name = "listing" then some listingTemplate
    else if name = "entry" then some entryTemplate else none

/-- A page with the list of items twice, the second time in an element that has all of them in
an attribute too. -/
def listingPage : Template :=
  ⟨⟨"page", .structural, [.inclusion "listing" ⟨1, 1⟩, .element "div"
    [.dynamic "title" [.block .normal "items" [.inclusion "entry" ⟨1, 41⟩] ⟨1, 30⟩]]
    [.inclusion "listing" ⟨1, 63⟩]]⟩, { Options.default with target := .structural }⟩

def twoEntries : Value :=
  .obj [("items", .arr [.str "a", .str "b"])]

/-- Two templates are reached, one through the other, so that the depth two is enough. -/
theorem rendering_ends_of_listing :
    (listingPage.partials listingAndEntry).encard ≤ (2 : Nat)
      ∧ ∀ depth, 2 ≤ depth →
        listingPage.renderText listingAndEntry depth twoEntries = some "ab[object Object]"
        ∧ listingPage.renderNodes listingAndEntry depth twoEntries
          = some [.text "a", .text "b",
            .element "div" [("title", "ab")] [.text "a", .text "b"]] := by
  have hinner {outer inner : String} (h : Includes listingAndEntry outer inner) :
      outer = "listing" ∧ (inner = "entry" ∨ inner = "missing") := by
    obtain ⟨template, hresolve, site, hmem⟩ := h
    rw [listingAndEntry] at hresolve
    split_ifs at hresolve with hlisting hentry
    · cases hresolve
      have hnames : ∀ p ∈ listingTemplate.inclusions, p.2 = "entry" ∨ p.2 = "missing" := by decide
      exact ⟨hlisting, hnames _ hmem⟩
    · cases hresolve
      cases hmem
  -- What the list includes includes nothing.
  have hcircle (name : String) : ¬ TransGen (Includes listingAndEntry) name name := by
    intro h
    obtain ⟨inner, hfirst, hback⟩ := TransGen.head'_iff.mp h
    obtain ⟨rfl, hname⟩ := hinner hfirst
    rcases ReflTransGen.cases_head hback with rfl | ⟨next, hnext, -⟩
    · exact absurd hname (by decide)
    · rw [(hinner hnext).1] at hname
      exact absurd hname (by decide)
  have hsubset : listingPage.partials listingAndEntry ⊆ {"listing", "entry"} := by
    rintro name ⟨hsome, -⟩
    rw [listingAndEntry] at hsome
    split_ifs at hsome with hlisting hentry
    · exact .inl hlisting
    · exact .inr hentry
    · cases hsome
  have hbound : (listingPage.partials listingAndEntry).encard ≤ (2 : Nat) :=
    (Set.encard_le_encard hsubset).trans (Set.encard_pair (by decide)).le
  obtain ⟨text, entries, hrenders⟩ := rendering_ends (fun p _ => hcircle p.2) hbound twoEntries
  have htext : listingPage.renderText listingAndEntry 2 twoEntries = some "ab[object Object]" := by
    with_unfolding_all rfl
  have hentries : listingPage.renderNodes listingAndEntry 2 twoEntries
      = some [.text "a", .text "b",
        .element "div" [("title", "ab")] [.text "a", .text "b"]] := by
    with_unfolding_all rfl
  -- What is rendered at the bound is rendered at every depth from there on.
  obtain ⟨hboundtext, hboundentries⟩ := hrenders 2 le_rfl
  rw [← htext, ← hentries, hboundtext, hboundentries]
  exact ⟨hbound, hrenders⟩

end Mustache
