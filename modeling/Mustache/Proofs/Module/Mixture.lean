import Mustache.Proofs.Module.Meaning

/-!
Templates of both targets that include each other.

A module returns a string or a list of entries, whatever includes it: where text is built,
a list counts as the text of its entries, which follow each other in a flat template and
are printed with commas in the value of an attribute. What a page is when each template
that it includes contributes that much is what its module returns, for any mixture of
targets (`exists_returned`). The renderer takes the text of an included template instead,
with the newlines of its literals and without commas. Both are the same where no literal
of a structural template that is taken for text has a newline, and where one that stands
in the value of an attribute has at most one entry (`mixed_meaning`).
-/
set_option autoImplicit false

namespace Mustache

open Json (Value)
open Script

/-! ## What modules return -/

/-- What the module of a template returns. -/
inductive Returned where
  /-- The string of a flat template. -/
  | text (value : String)
  /-- The list of a structural one. -/
  | entries (list : List Rendered)

/-- What a module returns as a value. -/
def Returned.toValue : Returned → Value
  | .text value => .str value
  | .entries list => .arr (valuesOf list)

/-- What a template renders to for its target, with inclusions rendered in a given way. -/
def Template.returns (template : Template) (inclusions : Inclusions) (data : Value) :
    Option Returned :=
  match template.tree.target with
  | .flat => (template.textWith inclusions data).map .text
  | .structural => (template.nodesWith inclusions data).map .entries

/-- The text that an entry prints. -/
def Rendered.printed : Rendered → String
  | .text value => value
  | .element .. => "[object Object]"

/-- The text that entries make one after another. -/
def joinedEntries (entries : List Rendered) : String :=
  String.join (entries.map Rendered.printed)

/-- What a module contributes to the text of a template of the target `outer`. -/
def Returned.asText (outer : Target) : Returned → String
  | .text value => value
  | .entries list =>
      match outer with
      | .flat => joinedEntries list
      | .structural => ",".intercalate (list.map Rendered.printed)

/-- What a module contributes to a list of entries. -/
def Returned.asEntries : Returned → List Rendered
  | .text value => [.text value]
  | .entries list => list

/-- Inclusions in a template of the target `outer` that contribute what their own modules
return, where these may go `depth` templates deep. -/
def contributions (resolve : Resolver) : (depth : Nat) → (outer : Target) → Inclusions
  | 0, _ => inclusionsTo resolve 0
  | depth + 1, outer =>
    { text := fun name data =>
        match resolve name with
        | none => some ""
        | some template =>
            (template.returns (contributions resolve depth template.tree.target) data).map
              (Returned.asText outer)
      nodes := fun name data =>
        match resolve name with
        | none => some []
        | some template =>
            (template.returns (contributions resolve depth template.tree.target) data).map
              Returned.asEntries }

/-! ## Modules and their contributions -/

theorem printedItems_valuesOf (entries : List Rendered) :
    printedItems (valuesOf entries) = entries.map Rendered.printed := by
  induction entries with
  | nil => rfl
  | cons entry rest ih =>
      rw [valuesOf, List.map_cons, ← ih]
      cases entry with
      | text value =>
          rw [Rendered.toValue, printedItems, Value.printed, Rendered.printed]
          intro hnull
          cases hnull
      | element tag attributes children =>
          rw [toValue_element, printedItems, Value.printed, Rendered.printed]
          intro hnull
          cases hnull

/-- Where text is built, what a module returns stands for what it contributes. -/
theorem Returned.spells (returned : Returned) (outer : Target) :
    Spells outer.textOutput returned.toValue (returned.asText outer) := by
  cases returned with
  | text value => exact .inl rfl
  | entries list =>
      refine .inr (.inl ⟨valuesOf list, rfl, ?_⟩)
      cases outer with
      | flat => rw [Target.textOutput, Output.textOfItems, printedItems_valuesOf]; rfl
      | structural => rw [Target.textOutput, Output.textOfItems, printedItems_valuesOf]; rfl

/-- Where a list is built, what a module returns adds the entries that it contributes. -/
theorem Returned.spliced_toValue (returned : Returned) :
    spliced returned.toValue = valuesOf returned.asEntries := by
  cases returned <;> rfl

/-- A module returns what its template renders to for its target, if the modules that it
loads agree with its inclusions. -/
theorem Template.run_returns {template : Template} {inclusions : Inclusions} {modules : Modules}
    (hincluded : ∀ p ∈ template.inclusions, Agrees template.emitOptions inclusions modules p)
    (data : Value) :
    ∃ returned, template.returns inclusions data = some returned
      ∧ template.run modules data = some returned.toValue := by
  cases htarget : template.tree.target with
  | flat =>
      obtain ⟨text, htext, hrun⟩ := Template.run_flat htarget hincluded data
      refine ⟨.text text, ?_, hrun⟩
      rw [Template.returns, htarget]
      simp only [htext, Option.map_some]
  | structural =>
      obtain ⟨entries, hentries, hrun⟩ := Template.run_structural htarget hincluded data
      refine ⟨.entries entries, ?_, hrun⟩
      rw [Template.returns, htarget]
      simp only [hentries, Option.map_some]

/-- Whether the modules of a depth agree on an inclusion with what modules contribute,
whatever template it stands in. -/
def Contributes (resolve : Resolver) (depth : Nat) (p : Site × String) : Prop :=
  ∀ o : EmitOptions, Agrees o (contributions resolve depth o.target)
    (modulesOf o.partialExtension (returnedTo resolve depth)) p

/-- Modules agree on an inclusion with what its module contributes if they do, one level
deeper, on what its template includes. -/
theorem contributes_succ {resolve : Resolver} {depth : Nat} {p : Site × String}
    {template : Template} (hresolve : resolve p.2 = some template)
    (hincluded : ∀ q ∈ template.inclusions, Contributes resolve depth q) :
    Contributes resolve (depth + 1) p := by
  intro o
  obtain ⟨site, name⟩ := p
  have hmodule := modulesOf_modulePath hresolve o.partialExtension depth
  have hrun := Template.run_returns fun q hq => hincluded q hq template.emitOptions
  -- One result of the module, seen as text or as entries.
  cases site with
  | text =>
      intro data
      obtain ⟨returned, hreturns, hruns⟩ := hrun data
      refine ⟨returned.asText o.target, returned.toValue, ?_, (hmodule data).trans hruns,
        returned.spells o.target⟩
      simp only [Template.emitOptions] at hreturns
      simp only [contributions, hresolve, hreturns, Option.map_some]
  | child =>
      intro data
      obtain ⟨returned, hreturns, hruns⟩ := hrun data
      refine ⟨returned.asEntries, returned.toValue, ?_, (hmodule data).trans hruns,
        returned.spliced_toValue⟩
      simp only [Template.emitOptions] at hreturns
      simp only [contributions, hresolve, hreturns, Option.map_some]

/-- Whether all that a template includes, directly or through others, is there and of the
target that its options name, as every template that is read, and whether no chain of
inclusions goes on for ever. -/
structure Complete (resolve : Resolver) (page : Template) : Prop where
  resolved : ∀ p, Reaches resolve page p → ∃ template, resolve p.2 = some template
    ∧ template.tree.target = template.options.target
  settles : ∀ p, Reaches resolve page p → Settles resolve p.2

/-- From some depth on, the module of a page returns what the page renders to when each
template that it includes contributes what its own module returns. -/
theorem Complete.exists_returned {resolve : Resolver} {page : Template}
    (hcomplete : Complete resolve page) :
    ∃ bound, ∀ depth, bound ≤ depth → ∀ data, ∃ returned,
      page.returns (contributions resolve depth page.tree.target) data = some returned
        ∧ page.runTo resolve depth data = some returned.toValue := by
  obtain ⟨bound, hbound⟩ := exists_bound_of_reached (P := Contributes resolve)
    (fun _ template => template.tree.target = template.options.target) hcomplete.resolved
    hcomplete.settles
    fun _ _ _ hresolve _ hincluded => contributes_succ hresolve hincluded
  exact ⟨bound, fun depth hdepth =>
    Template.run_returns fun p hp => hbound depth hdepth p hp page.emitOptions⟩

/-! ## Text without newlines -/

/-- A literal without newlines is rendered as it stands. -/
theorem joinedEntries_renderedLiteral {value : String} (h : '\n' ∉ value.toList) :
    joinedEntries (renderedLiteral value) = value := by
  have hcollapsed : collapsed value = value := by
    rw [collapsed, collapse_of_not_mem h, String.ofList_toList]
  rw [renderedLiteral, hcollapsed]
  split_ifs with hempty
  · rw [hempty]
    rfl
  · simp [joinedEntries, Rendered.printed]

theorem joinedEntries_append (first rest : List Rendered) :
    joinedEntries (first ++ rest) = joinedEntries first ++ joinedEntries rest := by
  rw [joinedEntries, List.map_append, String.join_append]
  rfl

theorem joinedEntries_flatten (lists : List (List Rendered)) :
    joinedEntries lists.flatten = String.join (lists.map joinedEntries) := by
  induction lists with
  | nil => rfl
  | cons list lists ih =>
      rw [List.flatten_cons, joinedEntries_append, ih, List.map_cons, String.join_cons]

mutual

/-- The nodes that show something where text is built: blocks are opened, and elements are
left closed. -/
def Node.leaves : Node → List Node
  | .block _ _ body _ => leavesOf body
  | .text value => [.text value]
  | .interpolation expression escape location => [.interpolation expression escape location]
  | .inclusion name location => [.inclusion name location]
  | .element tag attributes children => [.element tag attributes children]

/-- The nodes of a list that show something where text is built. -/
def leavesOf : List Node → List Node
  | [] => []
  | node :: rest => node.leaves ++ leavesOf rest

end

/-- If each member of a list that has a result has a related result otherwise, so has the
list. -/
theorem mapM_eq_some_map {α β γ : Type} {f : α → Option β} {g : α → Option γ} (h : β → γ)
    {xs : List α} (hsome : ∀ x ∈ xs, ∀ y, f x = some y → g x = some (h y)) {ys : List β}
    (hys : xs.mapM f = some ys) : xs.mapM g = some (ys.map h) := by
  induction xs generalizing ys with
  | nil =>
      cases hys
      rfl
  | cons x xs ih =>
      rw [List.mapM_cons, Option.bind_eq_bind, Option.bind_eq_some_iff] at hys
      obtain ⟨y, hy, hrest⟩ := hys
      rw [Option.bind_eq_bind, Option.bind_eq_some_iff] at hrest
      obtain ⟨zs, hzs, hlist⟩ := hrest
      cases hlist
      rw [List.mapM_cons, hsome x List.mem_cons_self y hy,
        ih (fun x' hx' => hsome x' (List.mem_cons_of_mem x hx')) hzs]
      rfl

section

variable {policy : InvertedPolicy} {shown given : Inclusions}

theorem renderNodes_cons_eq_some {node : Node} {rest : List Node} {scope : Value}
    {entries : List Rendered}
    (h : renderNodes policy given scope (node :: rest) = some entries) :
    ∃ first others, renderNode policy given scope node = some first
      ∧ renderNodes policy given scope rest = some others ∧ first ++ others = entries := by
  rw [renderNodes] at h
  simp only [Option.bind_eq_bind, Option.bind_eq_some_iff, Option.some.injEq] at h
  obtain ⟨first, hfirst, others, hothers, rfl⟩ := h
  exact ⟨first, others, hfirst, hothers, rfl⟩

mutual

/-- The text of a node without newlines is that of its entries. -/
theorem textOfNode_of_renderNode {node : Node} {scope : Value} {entries : List Rendered}
    (hliterals : ∀ value, .text value ∈ node.leaves → '\n' ∉ value.toList)
    (hincluded : ∀ name location, .inclusion name location ∈ node.leaves → ∀ data list,
      given.nodes name data = some list → shown.text name data = some (joinedEntries list))
    (h : renderNode policy given scope node = some entries) :
    textOfNode policy shown scope node = some (joinedEntries entries) := by
  -- Only literals tell the two apart, by their newlines; an element counts as one text in both.
  cases node with
  | text value =>
      cases h
      rw [joinedEntries_renderedLiteral (hliterals value List.mem_cons_self)]
      rfl
  | interpolation expression escape location =>
      cases h
      simp [textOfNode, joinedEntries, Rendered.printed]
  | inclusion name location =>
      exact hincluded name location List.mem_cons_self scope entries h
  | element tag attributes children =>
      rw [renderNode] at h
      simp only [Option.bind_eq_bind, Option.bind_eq_some_iff, Option.some.injEq] at h
      obtain ⟨values, -, inner, -, rfl⟩ := h
      simp [textOfNode, joinedEntries, Rendered.printed]
  | block kind expression body location =>
      rw [renderNode, appendScopes, Option.map_eq_some_iff] at h
      obtain ⟨lists, hlists, rfl⟩ := h
      rw [textOfNode, joinScopes, joinedEntries_flatten,
        mapM_eq_some_map joinedEntries (fun s _ list hlist =>
          textOfNodes_of_renderNodes hliterals hincluded hlist) hlists]
      rfl

/-- The text of nodes without newlines is that of their entries. -/
theorem textOfNodes_of_renderNodes {nodes : List Node} {scope : Value} {entries : List Rendered}
    (hliterals : ∀ value, .text value ∈ leavesOf nodes → '\n' ∉ value.toList)
    (hincluded : ∀ name location, .inclusion name location ∈ leavesOf nodes → ∀ data list,
      given.nodes name data = some list → shown.text name data = some (joinedEntries list))
    (h : renderNodes policy given scope nodes = some entries) :
    textOfNodes policy shown scope nodes = some (joinedEntries entries) := by
  cases nodes with
  | nil =>
      cases h
      rfl
  | cons node rest =>
      obtain ⟨first, others, hfirst, hothers, rfl⟩ := renderNodes_cons_eq_some h
      rw [textOfNodes,
        textOfNode_of_renderNode (fun value hv => hliterals value (List.mem_append_left _ hv))
          (fun name location hp => hincluded name location (List.mem_append_left _ hp)) hfirst,
        textOfNodes_of_renderNodes (fun value hv => hliterals value (List.mem_append_right _ hv))
          (fun name location hp => hincluded name location (List.mem_append_right _ hp)) hothers,
        joinedEntries_append]
      rfl

end

/-! ## Renderings that follow each other -/

/-- Whether inclusions give what others give, where these give something. -/
def Follows (shown given : Inclusions) : Site × String → Prop
  | (.text, name) => ∀ data t, given.text name data = some t → shown.text name data = some t
  | (.child, name) => ∀ data list, given.nodes name data = some list →
      shown.nodes name data = some list

theorem joinScopes_follows {render render' : Value → Option String} {scopes : List Value}
    (hscopes : ∀ s ∈ scopes, ∀ t, render s = some t → render' s = some t) {t : String}
    (h : joinScopes render scopes = some t) : joinScopes render' scopes = some t := by
  obtain ⟨texts, htexts, rfl⟩ := Option.map_eq_some_iff.mp h
  rw [joinScopes, mapM_eq_some_map id hscopes htexts, List.map_id]
  rfl

mutual

theorem builtTextOfNode_follows {target : Target} {node : Node} {scope : Value} {t : String}
    (hincluded : ∀ p ∈ node.inclusions .text, Follows shown given p)
    (h : builtTextOfNode target policy given scope node = some t) :
    builtTextOfNode target policy shown scope node = some t := by
  cases node with
  | text value =>
      rw [builtTextOfNode_text] at h ⊢
      exact h
  | interpolation expression escape location =>
      rw [builtTextOfNode_interpolation] at h ⊢
      exact h
  | block kind expression body location =>
      rw [builtTextOfNode_block] at h ⊢
      exact joinScopes_follows (fun s _ u hu => builtText_follows target hincluded hu) h
  | inclusion name location =>
      rw [builtTextOfNode_inclusion] at h ⊢
      exact hincluded _ (List.mem_singleton.mpr rfl) scope t h
  | element tag attributes children =>
      rw [builtTextOfNode_element] at h ⊢
      exact h

theorem builtText_follows (target : Target) {nodes : List Node} {scope : Value} {t : String}
    (hincluded : ∀ p ∈ inclusionsOfNodes .text nodes, Follows shown given p)
    (h : builtText target policy given scope nodes = some t) :
    builtText target policy shown scope nodes = some t := by
  cases nodes with
  | nil =>
      rw [builtText_nil] at h ⊢
      exact h
  | cons node rest =>
      obtain ⟨first, others, hfirst, hothers, rfl⟩ := builtText_cons_eq_some h
      exact builtText_cons
        (builtTextOfNode_follows (fun p hp => hincluded p (List.mem_append_left _ hp)) hfirst)
        (builtText_follows target (fun p hp => hincluded p (List.mem_append_right _ hp)) hothers)

end

theorem renderAttribute_follows {attr : Attribute} {scope : Value} {entry : String × String}
    (hincluded : ∀ p ∈ attr.inclusions, Follows shown given p)
    (h : renderAttribute policy given scope attr = some entry) :
    renderAttribute policy shown scope attr = some entry := by
  cases attr with
  | static name value => exact h
  | dynamic name parts =>
      obtain ⟨t, ht, rfl⟩ := Option.map_eq_some_iff.mp h
      have hparts : attributeText policy shown scope parts = some t :=
        builtText_follows .structural hincluded ht
      rw [renderAttribute, hparts]
      rfl

mutual

theorem renderNode_follows {node : Node} {scope : Value} {entries : List Rendered}
    (hincluded : ∀ p ∈ node.inclusions .child, Follows shown given p)
    (h : renderNode policy given scope node = some entries) :
    renderNode policy shown scope node = some entries := by
  cases node with
  | text value => exact h
  | interpolation expression escape location => exact h
  | block kind expression body location =>
      rw [renderNode] at h ⊢
      obtain ⟨lists, hlists, rfl⟩ := Option.map_eq_some_iff.mp h
      rw [appendScopes,
        mapM_eq_some_map id (fun s _ list hlist => renderNodes_follows hincluded hlist) hlists,
        List.map_id]
      rfl
  | inclusion name location => exact hincluded _ (List.mem_singleton.mpr rfl) scope entries h
  | element tag attributes children =>
      rw [renderNode] at h ⊢
      simp only [Option.bind_eq_bind, Option.bind_eq_some_iff, Option.some.injEq] at h
      obtain ⟨values, hvalues, inner, hinner, rfl⟩ := h
      have hattributes : attributes.mapM (renderAttribute policy shown scope) = some values := by
        rw [mapM_eq_some_map id (fun attr hattr _ => renderAttribute_follows fun p hp =>
          hincluded p (List.mem_append_left _ (mem_inclusionsOfAttributes hattr hp))) hvalues,
          List.map_id]
      rw [hattributes,
        renderNodes_follows (fun p hp => hincluded p (List.mem_append_right _ hp)) hinner]
      rfl

theorem renderNodes_follows {nodes : List Node} {scope : Value} {entries : List Rendered}
    (hincluded : ∀ p ∈ inclusionsOfNodes .child nodes, Follows shown given p)
    (h : renderNodes policy given scope nodes = some entries) :
    renderNodes policy shown scope nodes = some entries := by
  cases nodes with
  | nil => exact h
  | cons node rest =>
      obtain ⟨first, others, hfirst, hothers, rfl⟩ := renderNodes_cons_eq_some h
      rw [renderNodes,
        renderNode_follows (fun p hp => hincluded p (List.mem_append_left _ hp)) hfirst,
        renderNodes_follows (fun p hp => hincluded p (List.mem_append_right _ hp)) hothers]
      rfl

end

end

theorem Template.returns_follows {template : Template} {shown given : Inclusions} {data : Value}
    {returned : Returned} (hincluded : ∀ p ∈ template.inclusions, Follows shown given p)
    (h : template.returns given data = some returned) :
    template.returns shown data = some returned := by
  rw [Template.inclusions] at hincluded
  rw [Template.returns] at h ⊢
  cases htarget : template.tree.target with
  | flat =>
      rw [htarget] at h hincluded
      obtain ⟨t, ht, rfl⟩ := Option.map_eq_some_iff.mp h
      have htext : template.textWith shown data = some t :=
        builtText_follows .flat hincluded ht
      simp only [htext, Option.map_some]
  | structural =>
      rw [htarget] at h hincluded
      obtain ⟨entries, hentries, rfl⟩ := Option.map_eq_some_iff.mp h
      have hnodes : template.nodesWith shown data = some entries :=
        renderNodes_follows hincluded hentries
      simp only [hnodes, Option.map_some]

/-! ## Templates that count for their text -/

/-- Whether the renderer's text of a template of a name is the text of what its module
returns: the template is flat, or no literal outside of its elements has a newline, and what
it includes there is plain as well. -/
inductive Plain (resolve : Resolver) : String → Prop
  | flat {name : String} {template : Template} (hresolve : resolve name = some template)
      (htarget : template.tree.target = .flat) : Plain resolve name
  | structural {name : String} {template : Template} (hresolve : resolve name = some template)
      (hliterals : ∀ value, .text value ∈ leavesOf template.tree.nodes → '\n' ∉ value.toList)
      (hincluded : ∀ inner location,
        .inclusion inner location ∈ leavesOf template.tree.nodes → Plain resolve inner) :
      Plain resolve name

/-- Whether the renderer never lists more than one entry for a name. -/
def Single (resolve : Resolver) (name : String) : Prop :=
  ∀ depth data list, (inclusionsTo resolve depth).nodes name data = some list → list.length ≤ 1

/-- Whether what a template includes where it builds text counts there for the text that the
renderer takes it for. -/
def Template.IncludesPlainly (resolve : Resolver) (template : Template) : Prop :=
  ∀ name, (.text, name) ∈ template.inclusions →
    Plain resolve name ∧ (template.tree.target = .structural → Single resolve name)

/-- Whether that is so for a page and for all that it includes, directly or through others. -/
structure AllPlain (resolve : Resolver) (page : Template) : Prop where
  own : page.IncludesPlainly resolve
  reached : ∀ p template, Reaches resolve page p → resolve p.2 = some template →
    template.IncludesPlainly resolve

mutual

theorem mem_inclusions_of_leaves {node : Node} {name : String} {location : Location}
    (h : .inclusion name location ∈ node.leaves) (site : Site) :
    (site, name) ∈ node.inclusions site := by
  cases node with
  | text value => simp [Node.leaves] at h
  | interpolation expression escape location => simp [Node.leaves] at h
  | block kind expression body location => exact mem_inclusionsOfNodes_of_leaves h site
  | inclusion other location =>
      simp only [Node.leaves, List.mem_singleton, Node.inclusion.injEq] at h
      rw [h.1]
      exact List.mem_singleton.mpr rfl
  | element tag attributes children => simp [Node.leaves] at h

theorem mem_inclusionsOfNodes_of_leaves {nodes : List Node} {name : String} {location : Location}
    (h : .inclusion name location ∈ leavesOf nodes) (site : Site) :
    (site, name) ∈ inclusionsOfNodes site nodes := by
  cases nodes with
  | nil => exact absurd h List.not_mem_nil
  | cons node rest =>
      rw [inclusionsOfNodes, List.mem_append]
      rcases List.mem_append.mp h with hfirst | hrest
      · exact .inl (mem_inclusions_of_leaves hfirst site)
      · exact .inr (mem_inclusionsOfNodes_of_leaves hrest site)

end

/-- Among entries a template counts for what it renders to. -/
theorem Template.includedNodes_eq {template : Template}
    (htarget : template.tree.target = template.options.target) (inclusions : Inclusions)
    (data : Value) :
    template.includedNodes inclusions data
      = (template.returns inclusions data).map Returned.asEntries := by
  rw [Template.includedNodes, Template.returns, ← htarget]
  cases template.tree.target with
  | flat => rw [Option.map_map]; rfl
  | structural => rw [Option.map_map]; exact Option.map_id'.symm

/-- Entries that a module contributes make the text that it contributes to a flat template. -/
theorem contributions_text_of_nodes {resolve : Resolver} {depth : Nat} {outer : Target}
    {name : String} {data : Value} {list : List Rendered}
    (h : (contributions resolve depth outer).nodes name data = some list) :
    (contributions resolve depth .flat).text name data = some (joinedEntries list) := by
  -- At depth zero both know the names alone that no template has.
  cases depth with
  | zero =>
      simp only [contributions, inclusionsTo] at h ⊢
      split_ifs at h ⊢ with hresolve
      cases h
      rfl
  | succ depth =>
      cases hresolve : resolve name with
      | none =>
          simp only [contributions, hresolve] at h ⊢
          cases h
          rfl
      | some template =>
          simp only [contributions, hresolve] at h ⊢
          obtain ⟨returned, hreturned, rfl⟩ := Option.map_eq_some_iff.mp h
          rw [hreturned]
          cases returned with
          | text value => simp [Returned.asText, Returned.asEntries, joinedEntries,
              Rendered.printed]
          | entries list => rfl

/-- What the renderer gives for an inclusion is what its module contributes, where that is
plain text or a list. -/
def Matches (resolve : Resolver) (depth : Nat) (name : String) : Prop :=
  (Plain resolve name → ∀ data t,
      (contributions resolve depth .flat).text name data = some t →
      (inclusionsTo resolve depth).text name data = some t)
    ∧ ∀ outer data list, (contributions resolve depth outer).nodes name data = some list →
      (inclusionsTo resolve depth).nodes name data = some list

/-- At most one entry is printed in the value of an attribute as it is in a flat template. -/
theorem Matches.text_of_single {resolve : Resolver} {depth : Nat} {name : String}
    (hmatches : Matches resolve depth name) (hsingle : Single resolve name) {data : Value}
    {t : String} (h : (contributions resolve depth .structural).text name data = some t) :
    (contributions resolve depth .flat).text name data = some t := by
  cases depth with
  | zero => exact h
  | succ depth =>
      cases hresolve : resolve name with
      | none =>
          simp only [contributions, hresolve] at h ⊢
          exact h
      | some template =>
          have hnodes := hmatches.2 .structural data
          simp only [contributions, hresolve] at h hnodes ⊢
          obtain ⟨returned, hreturned, rfl⟩ := Option.map_eq_some_iff.mp h
          rw [hreturned] at hnodes ⊢
          -- With one entry at most there is nothing to join.
          have hlength := hsingle _ _ _ (hnodes _ rfl)
          cases returned with
          | text value => rfl
          | entries list =>
              match list, hlength with
              | [], _ => rfl
              | [entry], _ => simp [Returned.asText, joinedEntries]

/-- What a template includes is rendered as its modules contribute it, if the template
includes it plainly. -/
theorem Template.IncludesPlainly.follows {resolve : Resolver} {template : Template}
    (hplain : template.IncludesPlainly resolve) {depth : Nat}
    (hmatches : ∀ p ∈ template.inclusions, Matches resolve depth p.2) :
    ∀ p ∈ template.inclusions, Follows (inclusionsTo resolve depth)
      (contributions resolve depth template.tree.target) p := by
  rintro ⟨site, name⟩ hp
  have hname : Matches resolve depth name := hmatches _ hp
  -- Among children all that counts is the list; in text the name has to be plain, and in a
  -- structural template to list one entry at most.
  cases site with
  | child => exact hname.2 template.tree.target
  | text =>
      intro data t ht
      obtain ⟨hplainName, hsingle⟩ := hplain name hp
      refine hname.1 hplainName data t ?_
      cases htarget : template.tree.target with
      | flat =>
          rw [htarget] at ht
          exact ht
      | structural =>
          rw [htarget] at ht
          exact hname.text_of_single (hsingle htarget) ht

/-- The text of a plain structural template is that of the entries of its module. -/
theorem Plain.textWith_of_nodesWith {resolve : Resolver} {depth : Nat} {name : String}
    {template : Template} (hplain : Plain resolve name) (hresolve : resolve name = some template)
    (htarget : template.tree.target = .structural)
    (hmatches : ∀ p ∈ template.inclusions, Matches resolve depth p.2) {outer : Target}
    {data : Value} {entries : List Rendered}
    (h : template.nodesWith (contributions resolve depth outer) data = some entries) :
    template.textWith (inclusionsTo resolve depth) data = some (joinedEntries entries) := by
  cases hplain with
  | flat hresolve' hflat =>
      rw [hresolve] at hresolve'
      cases hresolve'
      rw [htarget] at hflat
      cases hflat
  | structural hresolve' hliterals hincluded =>
      rw [hresolve] at hresolve'
      cases hresolve'
      -- An inclusion outside of the elements is one among the children too, so what it lists is
      -- settled, and it is plain itself.
      refine textOfNodes_of_renderNodes hliterals (fun inner location hinner => ?_) h
      intro data list hlist
      have hmem : (Site.child, inner) ∈ template.inclusions := by
        rw [Template.inclusions, htarget]
        exact mem_inclusionsOfNodes_of_leaves hinner .child
      exact (hmatches _ hmem).1 (hincluded inner location hinner) data _
        (contributions_text_of_nodes hlist)

/-- The renderer gives for all that a page includes what their modules contribute, if it is
all included plainly. -/
theorem AllPlain.contributions_matched {resolve : Resolver} {page : Template}
    (hplain : AllPlain resolve page) (hcomplete : Complete resolve page) (depth : Nat) :
    ∀ p, Reaches resolve page p → Matches resolve depth p.2 := by
  induction depth with
  | zero => exact fun _ _ => ⟨fun _ _ _ h => h, fun _ _ _ h => h⟩
  | succ depth ih =>
      intro p hp
      -- What the template includes is reached as well, so that it matches one level below.
      obtain ⟨template, hresolve, htarget⟩ := hcomplete.resolved p hp
      have hmatches : ∀ q ∈ template.inclusions, Matches resolve depth q.2 :=
        fun q hq => ih q (.through hp hresolve hq)
      have hreturns {data : Value} {returned : Returned}
          (h : template.returns (contributions resolve depth template.tree.target) data
            = some returned) :
          template.returns (inclusionsTo resolve depth) data = some returned :=
        Template.returns_follows ((hplain.reached p template hp hresolve).follows hmatches) h
      refine ⟨fun hplainName data t ht => ?_, fun outer data list hlist => ?_⟩
      · simp only [contributions, inclusionsTo, hresolve] at ht ⊢
        obtain ⟨returned, hreturned, rfl⟩ := Option.map_eq_some_iff.mp ht
        cases hkind : template.tree.target with
        | flat =>
            have hnative := hreturns hreturned
            simp only [Template.returns, hkind] at hreturned hnative
            obtain ⟨text, -, rfl⟩ := Option.map_eq_some_iff.mp hreturned
            obtain ⟨same, hsame, hreturned⟩ := Option.map_eq_some_iff.mp hnative
            cases hreturned
            exact hsame
        | structural =>
            rw [Template.returns, hkind] at hreturned
            obtain ⟨entries, hentries, rfl⟩ := Option.map_eq_some_iff.mp hreturned
            exact hplainName.textWith_of_nodesWith hresolve hkind hmatches hentries
      · simp only [contributions, inclusionsTo, hresolve] at hlist ⊢
        obtain ⟨returned, hreturned, rfl⟩ := Option.map_eq_some_iff.mp hlist
        rw [Template.includedNodes_eq htarget, hreturns hreturned]
        rfl

/-! ## Two kinds of items -/

/-- A structural template that shows a kind. -/
def kindTemplate : Template :=
  ⟨⟨"kind", .structural, [.interpolation "kind" true ⟨1, 1⟩]⟩, optionsFor .structural⟩

/-- The resolver that knows a flat template and a structural one. -/
def itemAndKind : Resolver :=
  fun name => if name = "kind" then some kindTemplate else itemOnly name

/-- A structural template that includes a structural one in the value of an attribute, and
both kinds among the children of an element. -/
def mixedList : Template :=
  ⟨⟨"list", .structural,
    [.element "ul" [.dynamic "class" [.text "list ", .inclusion "kind" ⟨1, 1⟩]]
      [.block .normal "items" [.inclusion "item" ⟨1, 1⟩] ⟨1, 1⟩, .inclusion "kind" ⟨1, 1⟩]]⟩,
    optionsFor .structural⟩

theorem mixedList_leaves : ∀ p ∈ mixedList.inclusions, ∃ template,
    itemAndKind p.2 = some template ∧ template.tree.target = template.options.target
      ∧ template.inclusions = [] := by
  have hnames : ∀ p ∈ mixedList.inclusions, p.2 = "kind" ∨ p.2 = "item" := by decide
  intro p hp
  rcases hnames p hp with h | h
  · exact ⟨kindTemplate, h ▸ rfl, rfl, rfl⟩
  · exact ⟨itemTemplate, h ▸ rfl, rfl, rfl⟩

theorem complete_of_leaves {resolve : Resolver} {page : Template}
    (h : ∀ p ∈ page.inclusions, ∃ template, resolve p.2 = some template
      ∧ template.tree.target = template.options.target ∧ template.inclusions = []) :
    Complete resolve page := by
  have hown {p : Site × String} (hp : Reaches resolve page p) : p ∈ page.inclusions :=
    hp.mem_of_leaves fun q hq =>
      let ⟨template, hresolve, _, hnone⟩ := h q hq
      ⟨template, hresolve, hnone⟩
  refine ⟨fun p hp => ?_, fun p hp => ?_⟩
  · obtain ⟨template, hresolve, htarget, -⟩ := h p (hown hp)
    exact ⟨template, hresolve, htarget⟩
  · obtain ⟨template, hresolve, -, hnone⟩ := h p (hown hp)
    exact settles_of_leaf hresolve hnone

/-- The list includes its templates plainly: the structural one has no literals and shows
one entry. -/
theorem mixedList_allPlain : AllPlain itemAndKind mixedList := by
  refine ⟨fun name hname => ?_, fun p template hp hresolve name hname => ?_⟩
  · have hkind : ∀ p ∈ mixedList.inclusions, p.1 = .text → p.2 = "kind" := by decide
    obtain rfl : name = "kind" := hkind _ hname rfl
    have hplain : Plain itemAndKind "kind" :=
      @Plain.structural _ _ kindTemplate rfl (by simp [kindTemplate, leavesOf, Node.leaves])
        (by simp [kindTemplate, leavesOf, Node.leaves])
    refine ⟨hplain, fun _ depth data list h => ?_⟩
    cases depth with
    | zero => cases h
    | succ depth =>
        cases h
        exact Nat.le_refl 1
  · have hmem := hp.mem_of_leaves fun q hq =>
      let ⟨template, hresolve, _, hnone⟩ := mixedList_leaves q hq
      ⟨template, hresolve, hnone⟩
    obtain ⟨leaf, hleaf, -, hnone⟩ := mixedList_leaves p hmem
    rw [hleaf] at hresolve
    cases hresolve
    rw [hnone] at hname
    exact absurd hname List.not_mem_nil

/-! ## Mixed templates -/

/-- The module of a page returns what the page renders to when each template that it
includes contributes what its own module returns, whatever the targets of the page and of
the templates are, and wherever these are included. The renderer gives the same if all
templates are included plainly. -/
theorem mixed_meaning {resolve : Resolver} {page : Template}
    (hcomplete : Complete resolve page) :
    ∃ bound, ∀ depth, bound ≤ depth → ∀ data, ∃ returned,
      page.runTo resolve depth data = some returned.toValue
        ∧ page.returns (contributions resolve depth page.tree.target) data = some returned
        ∧ (AllPlain resolve page →
          page.returns (inclusionsTo resolve depth) data = some returned) := by
  obtain ⟨bound, hbound⟩ := hcomplete.exists_returned
  refine ⟨bound, fun depth hdepth data => ?_⟩
  obtain ⟨returned, hreturns, hrun⟩ := hbound depth hdepth data
  refine ⟨returned, hrun, hreturns, fun hplain => ?_⟩
  have hmatched := hplain.contributions_matched hcomplete depth
  exact Template.returns_follows (hplain.own.follows fun p hp => hmatched p (.own hp)) hreturns

/-- The module of a list that mixes targets returns what the renderer gives. -/
theorem mixed_meaning_of_list :
    ∃ depth, mixedList.runTo itemAndKind depth twoItems
      = some (.arr (valuesOf
        [.element "ul" [("class", "list x")] [.text "a;", .text "&lt;;", .text "x"]])) := by
  obtain ⟨bound, hbound⟩ := mixed_meaning (complete_of_leaves mixedList_leaves)
  obtain ⟨returned, hrun, -, hnative⟩ := hbound (bound + 1) (by omega) twoItems
  have hrender : mixedList.returns (inclusionsTo itemAndKind (bound + 1)) twoItems
      = some (.entries
        [.element "ul" [("class", "list x")] [.text "a;", .text "&lt;;", .text "x"]]) := rfl
  have hreturned := hnative mixedList_allPlain
  rw [hrender] at hreturned
  cases hreturned
  exact ⟨bound + 1, hrun⟩

/-! ## Text of structural templates -/

/-- A structural template with a newline outside of its elements. -/
def noteTemplate : Template :=
  ⟨⟨"note", .structural, [.text "a\n b", .element "i" [] [.text "c"]]⟩, optionsFor .structural⟩

/-- The resolver that knows this template alone. -/
def noteOnly : Resolver :=
  fun name => if name = "note" then some noteTemplate else none

/-- A flat template that includes it. -/
def notedText : Template :=
  ⟨⟨"text", .flat, [.inclusion "note" ⟨1, 1⟩]⟩, optionsFor .flat⟩

/-- A structural template that includes it in the value of an attribute. -/
def notedTitle : Template :=
  ⟨⟨"title", .structural, [.element "p" [.dynamic "title" [.inclusion "note" ⟨1, 1⟩]] []]⟩,
    optionsFor .structural⟩

/-- Both include nothing else. -/
theorem noteOnly_leaves (page : Template) (h : ∀ p ∈ page.inclusions, p.2 = "note") :
    ∀ p ∈ page.inclusions, ∃ template, noteOnly p.2 = some template
      ∧ template.tree.target = template.options.target ∧ template.inclusions = [] :=
  fun p hp => ⟨noteTemplate, h p hp ▸ rfl, rfl, rfl⟩

/-- The renderer keeps the newline of a structural template that is included for its text,
which its module drops, and leaves out the comma that stands between its entries in the
value of an attribute. -/
theorem structural_text_otherwise :
    ∃ depth,
      notedText.runTo noteOnly depth .null = some (.str "ab[object Object]")
        ∧ notedText.renderText noteOnly depth .null = some "a\n b[object Object]"
        ∧ notedTitle.runTo noteOnly depth .null
          = some (.arr (valuesOf [.element "p" [("title", "ab,[object Object]")] []]))
        ∧ notedTitle.renderNodes noteOnly depth .null
          = some [.element "p" [("title", "a\n b[object Object]")] []] := by
  obtain ⟨first, hfirst⟩ :=
    (complete_of_leaves (noteOnly_leaves notedText (by decide))).exists_returned
  obtain ⟨second, hsecond⟩ :=
    (complete_of_leaves (noteOnly_leaves notedTitle (by decide))).exists_returned
  obtain ⟨text, htext, hruns⟩ := hfirst (max first second + 1) (by omega) .null
  obtain ⟨entries, hentries, hlists⟩ := hsecond (max first second + 1) (by omega) .null
  have htextIs : notedText.returns (contributions noteOnly (max first second + 1) .flat) .null
      = some (.text "ab[object Object]") := rfl
  have hentriesAre :
      notedTitle.returns (contributions noteOnly (max first second + 1) .structural) .null
        = some (.entries [.element "p" [("title", "ab,[object Object]")] []]) := rfl
  obtain rfl := Option.some.inj (htext.symm.trans htextIs)
  obtain rfl := Option.some.inj (hentries.symm.trans hentriesAre)
  exact ⟨max first second + 1, hruns, rfl, hlists, rfl⟩

end Mustache
