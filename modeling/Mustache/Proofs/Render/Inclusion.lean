import Mathlib.Data.Fintype.Card
import Mathlib.Data.Set.Finite.Basic
import Mustache.Render.Renderer

/-!
Which templates include which.

A template is included where text is built or among the children of an element, and
only a flat one may be included where text is built. Inclusions are in order if all
that a template includes, directly or through others, is there and in its place, and
if no chain of inclusions goes on for ever. Then whatever passes from the inclusions of
a template to the template itself, at the cost of one level of depth, holds of all
inclusions at every depth from some depth on (`Sound.exists_bound`).
-/
set_option autoImplicit false

namespace Mustache

/-! ## Names -/

/-- Where a template is included: where text is built, or among the children of an
element. -/
inductive Site where
  | text
  | child
  deriving DecidableEq, Repr

mutual

/-- The names that a node includes, each with its site. -/
def Node.inclusions (site : Site) : Node → List (Site × String)
  | .text _ | .interpolation .. => []
  | .inclusion name _ => [(site, name)]
  | .block _ _ body _ => inclusionsOfNodes site body
  | .element _ attributes children =>
      inclusionsOfAttributes attributes ++ inclusionsOfNodes .child children

/-- The names that the nodes of a list include. -/
def inclusionsOfNodes (site : Site) : List Node → List (Site × String)
  | [] => []
  | node :: rest => node.inclusions site ++ inclusionsOfNodes site rest

/-- The names that the value of an attribute includes. -/
def Attribute.inclusions : Attribute → List (Site × String)
  | .static .. => []
  | .dynamic _ parts => inclusionsOfNodes .text parts

/-- The names that the values of attributes include. -/
def inclusionsOfAttributes : List Attribute → List (Site × String)
  | [] => []
  | attr :: rest => attr.inclusions ++ inclusionsOfAttributes rest

end

/-- Where the nodes of a template stand. -/
def Target.site : Target → Site
  | .flat => .text
  | .structural => .child

/-- The names that a template includes, each with its site. -/
def Template.inclusions (template : Template) : List (Site × String) :=
  inclusionsOfNodes template.tree.target.site template.tree.nodes

theorem mem_inclusionsOfAttributes {attr : Attribute} {attributes : List Attribute}
    (h : attr ∈ attributes) {p : Site × String} (hp : p ∈ attr.inclusions) :
    p ∈ inclusionsOfAttributes attributes := by
  induction attributes with
  | nil => exact absurd h List.not_mem_nil
  | cons first rest ih =>
      rw [inclusionsOfAttributes]
      rcases List.mem_cons.mp h with rfl | hrest
      · exact List.mem_append_left _ hp
      · exact List.mem_append_right _ (ih hrest)

/-! ## Chains of inclusions -/

/-- Whether the template of a name includes another name. -/
def Includes (resolve : Resolver) (outer inner : String) : Prop :=
  ∃ template, resolve outer = some template ∧ ∃ site, (site, inner) ∈ template.inclusions

/-- Whether no chain of inclusions that starts at a name goes on for ever. -/
def Settles (resolve : Resolver) (name : String) : Prop :=
  Acc (fun inner outer => Includes resolve outer inner) name

/-- A name whose chains of inclusions end does not include itself, directly or through
others. -/
theorem Settles.not_transGen {resolve : Resolver} {name : String} (h : Settles resolve name) :
    ¬ Relation.TransGen (Includes resolve) name name := by
  induction h with
  | intro name _ ih =>
      intro hcycle
      obtain ⟨inner, hinner, hback⟩ := Relation.TransGen.head'_iff.mp hcycle
      exact ih inner hinner (Relation.TransGen.tail' hback hinner)

/-- A name that no template bears includes nothing. -/
theorem settles_of_unresolved {resolve : Resolver} {name : String} (h : resolve name = none) :
    Settles resolve name := by
  refine ⟨_, fun inner ⟨template, htemplate, _⟩ => ?_⟩
  rw [h] at htemplate
  cases htemplate

/-- Among finitely many templates of which none includes itself, directly or through
others, no chain of inclusions goes on for ever. -/
theorem settles_of_finite {resolve : Resolver} (hfinite : {name | (resolve name).isSome}.Finite)
    (hacyclic : ∀ name, ¬ Relation.TransGen (Includes resolve) name name) (name : String) :
    Settles resolve name := by
  -- Only names of templates include anything, so that the relation lives on these.
  let known := {name // (resolve name).isSome}
  let inner : String → String → Prop := fun b a => Includes resolve a b
  let within : known → known → Prop := fun b a => Relation.TransGen inner b.1 a.1
  have : Finite known := hfinite
  have : IsTrans known within := ⟨fun _ _ _ => Relation.TransGen.trans⟩
  have : Std.Irrefl within :=
    ⟨fun a hcycle => hacyclic a.1 (Relation.transGen_swap.mp hcycle)⟩
  have hwf : WellFounded within := Finite.wellFounded_of_trans_of_irrefl within
  have hknown (a : known) : Settles resolve a.1 := by
    induction a using hwf.induction with
    | _ a ih =>
        refine ⟨_, fun b hb => ?_⟩
        cases hresolve : resolve b with
        | some template => exact ih ⟨b, by rw [hresolve]; rfl⟩ (.single hb)
        | none => exact settles_of_unresolved hresolve
  cases hresolve : resolve name with
  | some template => exact hknown ⟨name, by rw [hresolve]; rfl⟩
  | none => exact settles_of_unresolved hresolve

/-! ## Inclusions in order -/

/-- Whether a template is included by another, directly or through others, and where. -/
inductive Reaches (resolve : Resolver) (page : Template) : Site × String → Prop
  | own {p : Site × String} (h : p ∈ page.inclusions) : Reaches resolve page p
  | through {p q : Site × String} {template : Template} (h : Reaches resolve page p)
      (hresolve : resolve p.2 = some template) (hq : q ∈ template.inclusions) :
      Reaches resolve page q

/-- Whether a template may be included at a site: only a flat one where text is built.
Its tree is of the target that its options name, as every tree that is read. -/
def Template.Fits (template : Template) : Site → Prop
  | .text => template.tree.target = .flat ∧ template.options.target = .flat
  | .child => template.tree.target = template.options.target

/-- Whether the inclusions of a template are in order. -/
structure Sound (resolve : Resolver) (page : Template) : Prop where
  resolved : ∀ p, Reaches resolve page p → ∃ template, resolve p.2 = some template
    ∧ template.Fits p.1
  settles : ∀ p, Reaches resolve page p → Settles resolve p.2

theorem not_includes_of_leaf {resolve : Resolver} {name : String} {template : Template}
    (hresolve : resolve name = some template) (hnone : template.inclusions = []) (inner : String) :
    ¬ Includes resolve name inner := by
  rintro ⟨other, hother, site, hmem⟩
  rw [hresolve] at hother
  cases hother
  rw [hnone] at hmem
  exact absurd hmem List.not_mem_nil

theorem settles_of_leaf {resolve : Resolver} {name : String} {template : Template}
    (hresolve : resolve name = some template) (hnone : template.inclusions = []) :
    Settles resolve name :=
  ⟨_, fun inner hinner => absurd hinner (not_includes_of_leaf hresolve hnone inner)⟩

theorem Reaches.mem_of_leaves {resolve : Resolver} {page : Template}
    (h : ∀ p ∈ page.inclusions, ∃ template, resolve p.2 = some template
      ∧ template.inclusions = []) {p : Site × String} (hp : Reaches resolve page p) :
    p ∈ page.inclusions := by
  induction hp with
  | own hmem => exact hmem
  | through _ hresolve hq ih =>
      obtain ⟨leaf, hleaf, hnone⟩ := h _ ih
      rw [hleaf] at hresolve
      cases hresolve
      rw [hnone] at hq
      exact absurd hq List.not_mem_nil

theorem sound_of_leaves {resolve : Resolver} {page : Template}
    (h : ∀ p ∈ page.inclusions, ∃ template, resolve p.2 = some template ∧ template.Fits p.1
      ∧ template.inclusions = []) : Sound resolve page := by
  have hown {p : Site × String} (hp : Reaches resolve page p) : p ∈ page.inclusions :=
    hp.mem_of_leaves fun q hq =>
      let ⟨template, hresolve, _, hnone⟩ := h q hq
      ⟨template, hresolve, hnone⟩
  refine ⟨fun p hp => ?_, fun p hp => ?_⟩
  · obtain ⟨template, hresolve, hfits, -⟩ := h p (hown hp)
    exact ⟨template, hresolve, hfits⟩
  · obtain ⟨template, hresolve, -, hnone⟩ := h p (hown hp)
    exact settles_of_leaf hresolve hnone

/-- What holds of each of finitely many things from some depth on holds of all of them
from some depth on. -/
theorem exists_bound_of_forall {α : Type} {P : Nat → α → Prop} {xs : List α}
    (h : ∀ x ∈ xs, ∃ bound, ∀ depth, bound ≤ depth → P depth x) :
    ∃ bound, ∀ depth, bound ≤ depth → ∀ x ∈ xs, P depth x := by
  induction xs with
  | nil => exact ⟨0, fun _ _ x hx => absurd hx List.not_mem_nil⟩
  | cons x xs ih =>
      obtain ⟨first, hfirst⟩ := h x List.mem_cons_self
      obtain ⟨others, hothers⟩ := ih fun y hy => h y (List.mem_cons_of_mem x hy)
      refine ⟨max first others, fun depth hdepth y hy => ?_⟩
      rcases List.mem_cons.mp hy with rfl | hy
      · exact hfirst depth (by omega)
      · exact hothers depth (by omega) y hy

/-- What passes from the inclusions of a template to its name, at the cost of one level of
depth, holds of all that a page includes from some depth on, if no chain of inclusions goes on
for ever. A name that no template bears includes nothing. -/
theorem exists_bound_of_settled {resolve : Resolver} {page : Template}
    (hsettles : ∀ p, Reaches resolve page p → Settles resolve p.2)
    {P : Nat → Site × String → Prop}
    (hstep : ∀ depth p, Reaches resolve page p →
      (∀ template, resolve p.2 = some template → ∀ q ∈ template.inclusions, P depth q) →
      P (depth + 1) p) :
    ∃ bound, ∀ depth, bound ≤ depth → ∀ p ∈ page.inclusions, P depth p := by
  have hreached (name : String) (hsettled : Settles resolve name) :
      ∀ site, Reaches resolve page (site, name) →
        ∃ bound, ∀ depth, bound ≤ depth → P depth (site, name) := by
    -- The induction follows the chains of inclusions below a name; its bound is one more
    -- than one for all that the template of the name includes.
    induction hsettled with
    | intro name _ ih =>
        intro site hreaches
        have hinner : ∃ bound, ∀ depth, bound ≤ depth → ∀ template, resolve name = some template →
            ∀ q ∈ template.inclusions, P depth q := by
          cases hresolve : resolve name with
          | none => exact ⟨0, fun _ _ template htemplate => nomatch htemplate⟩
          | some template =>
              have hincluded : ∀ q ∈ template.inclusions,
                  ∃ bound, ∀ depth, bound ≤ depth → P depth q :=
                fun q hq =>
                  ih q.2 ⟨template, hresolve, q.1, hq⟩ q.1 (.through hreaches hresolve hq)
              obtain ⟨bound, hbound⟩ := exists_bound_of_forall hincluded
              refine ⟨bound, fun depth hdepth other hother => ?_⟩
              cases hother
              exact hbound depth hdepth
        obtain ⟨bound, hbound⟩ := hinner
        refine ⟨bound + 1, fun depth hdepth => ?_⟩
        obtain ⟨inner, rfl⟩ : ∃ inner, depth = inner + 1 := ⟨depth - 1, by omega⟩
        exact hstep inner (site, name) hreaches (hbound inner (by omega))
  exact exists_bound_of_forall fun p hp => hreached p.2 (hsettles p (.own hp)) p.1 (.own hp)

/-- What passes from the inclusions of a template to the template, at the cost of one
level of depth, holds of all that a page includes from some depth on, if each template that
is reached is there and fits, and no chain of inclusions goes on for ever. -/
theorem exists_bound_of_reached {resolve : Resolver} {page : Template}
    (fits : Site → Template → Prop)
    (hresolved : ∀ p, Reaches resolve page p → ∃ template, resolve p.2 = some template
      ∧ fits p.1 template)
    (hsettles : ∀ p, Reaches resolve page p → Settles resolve p.2)
    {P : Nat → Site × String → Prop}
    (hstep : ∀ depth p template, resolve p.2 = some template → fits p.1 template →
      (∀ q ∈ template.inclusions, P depth q) → P (depth + 1) p) :
    ∃ bound, ∀ depth, bound ≤ depth → ∀ p ∈ page.inclusions, P depth p := by
  refine exists_bound_of_settled hsettles fun depth p hreaches hincluded => ?_
  obtain ⟨template, hresolve, hfits⟩ := hresolved p hreaches
  exact hstep depth p template hresolve hfits (hincluded template hresolve)

/-- What passes from the inclusions of a template to the template, at the cost of one
level of depth, holds of all that is reached from some depth on. -/
theorem Sound.exists_bound {resolve : Resolver} {page : Template} (hsound : Sound resolve page)
    {P : Nat → Site × String → Prop}
    (hstep : ∀ depth p template, resolve p.2 = some template → template.Fits p.1 →
      (∀ q ∈ template.inclusions, P depth q) → P (depth + 1) p) :
    ∃ bound, ∀ depth, bound ≤ depth → ∀ p ∈ page.inclusions, P depth p :=
  exists_bound_of_reached (fun site template => template.Fits site) hsound.resolved
    hsound.settles hstep

end Mustache
