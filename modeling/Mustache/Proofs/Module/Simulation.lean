import Mustache.Proofs.Module.Fragments
import Mustache.Proofs.Render.Building
import Mustache.Proofs.Render.Inclusion

/-!
Emitted code and the renderer.

The main statements are an induction over a template, whatever its target. Where text
is built the fragments of nodes spell the text that the renderer gives
(`nodes_spell`); where a list is built they give items, which in a structural template
are the renderer's entries (`nodes_give`), and the fields of attributes have the texts
that the renderer gives (`attributes_yield`). Included templates are taken as they are:
each that the code loads has to give what the renderer gives for it, and where text is
built a value that stands for that text in the mode in which the template builds text.
-/
set_option autoImplicit false

namespace Mustache

open Json Script

/-! ## Loaded modules -/

/-- The mode in which a template builds text that its readers see: a flat one is joined,
and in a structural one text is built in the values of attributes. -/
def Target.textOutput : Target → Output
  | .flat => .joined
  | .structural => .summed

/-- Whether a module that is loaded gives what the renderer gives for the template in
its place. -/
def Agrees (o : EmitOptions) (inclusions : Inclusions) (modules : Modules) :
    Site × String → Prop
  | (.text, name) => ∀ data, ∃ t v, inclusions.text name data = some t
      ∧ modules (modulePath o.partialExtension name) data = some v
      ∧ Spells o.target.textOutput v t
  | (.child, name) => ∀ data, ∃ entries v, inclusions.nodes name data = some entries
      ∧ modules (modulePath o.partialExtension name) data = some v ∧ spliced v = valuesOf entries

variable {o : EmitOptions} {inclusions : Inclusions} {modules : Modules}

/-! ## Single nodes -/

/-- A literal stands for its text as it is emitted. -/
theorem literal_spells (target : Target) (output : Output) (value : String) (depth : Nat)
    (scope : Value) :
    ∃ ts, List.Forall₂ (SpellsAt output modules depth scope)
        (literalFragment? target value).toList ts
      ∧ String.join ts = String.ofList (literalText target value) := by
  -- A literal is left out only if nothing of it would be emitted.
  cases hvalue : literalFragment? target value with
  | none =>
      refine ⟨[], .nil, ?_⟩
      rw [literalFragment?] at hvalue
      split_ifs at hvalue with hempty
      rw [hempty.2]
      rfl
  | some fragment =>
      rw [literalFragment?] at hvalue
      split_ifs at hvalue
      cases hvalue
      exact ⟨[_], .cons ⟨_, text_yields _, .inl rfl⟩ .nil, by simp⟩

/-- An interpolation stands for the text of what it looks up. -/
theorem interpolation_spells (output : Output) (depth : Nat) (scope : Value) (expression : String)
    (escape : Bool) (location : Location) :
    ∃ ts, List.Forall₂ (SpellsAt output modules depth scope)
        (emitNode o output depth (.interpolation expression escape location)).toList ts
      ∧ String.join ts = interpolate scope expression escape := by
  refine ⟨[interpolate scope expression escape], .cons ?_ .nil, by simp⟩
  exact ⟨_, lookup_denotes expression escape, rfl⟩

theorem inclusion_yields {name : String} {depth : Nat} {scope v : Value}
    (h : modules (modulePath o.partialExtension name) scope = some v) :
    (method (call "require" [.text (modulePath o.partialExtension name)]) "render"
      [contextRef depth]).Yields modules depth scope v := by
  intro env henv
  have hcontext : (contextRef depth).term.eval modules env = some (.of scope) :=
    contextRef_yields env henv
  have hglobal : env "require" = some .importer := henv.globals "require" (by decide)
  have hload : (call "require" [.text (modulePath o.partialExtension name)]).term.eval modules env
      = some (.module (modulePath o.partialExtension name)) := by
    simp only [call, Expr.term, termsOfList, Term.eval, evalList, hglobal, Option.bind_eq_bind,
      Option.bind_some]
    rfl
  have hrender : Denotation.call modules
      (.method (.module (modulePath o.partialExtension name)) "render") [.of scope]
      = (modules (modulePath o.partialExtension name) scope).map .of := rfl
  rw [h] at hrender
  simp only [method, Expr.term, termsOfList, Term.eval, evalList, hcontext,
    Option.bind_eq_bind, Option.bind_some] at hload ⊢
  rw [hload]
  exact hrender

/-- An inclusion where text is built stands for a text; in the mode of its template it is
the text of the included one. -/
theorem inclusion_spells {name : String} (h : Agrees o inclusions modules (.text, name))
    (output : Output) (depth : Nat) (scope : Value) (location : Location) :
    ∃ ts, List.Forall₂ (SpellsAt output modules depth scope)
        (emitNode o output depth (.inclusion name location)).toList ts
      ∧ (output = o.target.textOutput → inclusions.text name scope = some (String.join ts)) := by
  obtain ⟨t, v, htext, hmodule, hspells⟩ := h scope
  by_cases houtput : output = o.target.textOutput
  · refine ⟨[t], .cons ⟨v, inclusion_yields hmodule, houtput ▸ hspells⟩ .nil, fun _ => ?_⟩
    rw [htext]
    simp
  · obtain ⟨u, hother⟩ := hspells.exists_text output
    exact ⟨[u], .cons ⟨v, inclusion_yields hmodule, hother⟩ .nil, fun h => absurd h houtput⟩

theorem literal_gives (target : Target) (value : String) (depth : Nat) (scope : Value) :
    ∃ parts, List.Forall₂ (GivesAt modules depth scope) (literalFragment? target value).toList parts
      ∧ (target = .structural → valuesOf (renderedLiteral value) = parts.flatten) := by
  -- A literal that collapses to nothing is left out of the code and dropped by the renderer.
  by_cases hempty : target = .structural ∧ literalText target value = []
  · refine ⟨[], ?_, fun htarget => ?_⟩
    · rw [literalFragment?, if_pos hempty]
      exact .nil
    · obtain ⟨-, htext⟩ := hempty
      rw [htarget, literalText_structural, ← collapsed_eq_empty_iff] at htext
      rw [renderedLiteral, if_pos htext]
      rfl
  · refine ⟨[[.str (String.ofList (literalText target value))]], ?_, fun htarget => ?_⟩
    · rw [literalFragment?, if_neg hempty]
      exact .cons ⟨_, text_yields _, rfl⟩ .nil
    · have hne : collapsed value ≠ "" := by
        rw [htarget, literalText_structural, ← collapsed_eq_empty_iff] at hempty
        exact fun hcollapsed => hempty ⟨rfl, hcollapsed⟩
      rw [renderedLiteral, if_neg hne, htarget, literalText_structural]
      rfl

theorem interpolation_gives (depth : Nat) (scope : Value) (expression : String) (escape : Bool)
    (location : Location) :
    List.Forall₂ (GivesAt modules depth scope)
      (emitNode o .nodes depth (.interpolation expression escape location)).toList
      [[.str (interpolate scope expression escape)]] :=
  .cons ⟨_, printed_argument (lookup_denotes expression escape), rfl⟩ .nil

/-- An inclusion among children gives the entries of the template. -/
theorem inclusion_gives {name : String} (h : Agrees o inclusions modules (.child, name))
    (depth : Nat) (scope : Value) (location : Location) :
    ∃ items, List.Forall₂ (GivesAt modules depth scope)
        (emitNode o .nodes depth (.inclusion name location)).toList [items]
      ∧ (inclusions.nodes name scope).map valuesOf = some items := by
  obtain ⟨entries, v, hentries, hmodule, hitems⟩ := h scope
  refine ⟨valuesOf entries, .cons ⟨v, inclusion_yields hmodule, hitems⟩ .nil, ?_⟩
  rw [hentries]
  rfl

/-! ## Elements -/

/-- Setting an entry commutes with changing what stands under each name. -/
theorem insert_map {α β : Type} (f : α → β) (name : String) (a : α) (entries : NameMap α) :
    NameMap.insert name (f a) (entries.map fun entry => (entry.1, f entry.2))
      = (NameMap.insert name a entries).map fun entry => (entry.1, f entry.2) := by
  induction entries with
  | nil => rfl
  | cons entry rest ih =>
      rw [List.map_cons, NameMap.insert, NameMap.insert]
      by_cases hsame : name = entry.1
      · rw [if_pos hsame, if_pos hsame, List.map_cons]
      · rw [if_neg hsame, if_neg hsame]
        by_cases hbefore : name < entry.1
        · rw [if_pos hbefore, if_pos hbefore, List.map_cons, List.map_cons]
        · rw [if_neg hbefore, if_neg hbefore, ih, List.map_cons]

/-- Setting entries commutes with changing what stands under each name. -/
theorem insertAll_map {α β : Type} (f : α → β) (entries : NameMap α) (news : List (String × α)) :
    NameMap.insertAll (entries.map fun entry => (entry.1, f entry.2))
        (news.map fun entry => (entry.1, f entry.2))
      = (NameMap.insertAll entries news).map fun entry => (entry.1, f entry.2) := by
  induction news generalizing entries with
  | nil => rfl
  | cons new news ih =>
      have hstep := ih (NameMap.insert new.1 new.2 entries)
      rw [← insert_map] at hstep
      exact hstep

theorem element_yields {depth : Nat} {scope : Value} {fields : List (FieldName × Expr)}
    {values : List (String × String)} {children : Expr} {items : List Value}
    (hfields : ∀ env, Holds env depth scope → evalFields modules (termsOfFields fields) env
      = some (values.map fun entry => (entry.1, .str entry.2)))
    (hchildren : children.Yields modules depth scope (.arr items)) (tag : String) :
    (Expr.record [(.bare "tag", .text tag), (.bare "attrs", .record fields),
        (.bare "children", children)]).Yields modules depth scope
      (.ofMembers [("tag", .str tag),
        ("attrs", .obj ((NameMap.insertAll [] values).map fun entry => (entry.1, .str entry.2))),
        ("children", .arr items)]) := by
  intro env henv
  have hattrs : (Expr.record fields).term.eval modules env
      = some (.of (.obj ((NameMap.insertAll [] values).map fun entry =>
        (entry.1, .str entry.2)))) := by
    -- Of attributes with one name the last one stays, here as in the renderer.
    have hmembers := insertAll_map Value.str [] values
    rw [List.map_nil] at hmembers
    rw [Expr.term, Term.eval, hfields env henv, ← hmembers]
    rfl
  rw [Expr.term, Term.eval]
  simp only [termsOfFields, evalFields, FieldName.name, hattrs, hchildren env henv,
    Option.bind_eq_bind, Option.bind_some]
  rfl

/-! ## Templates -/

mutual

/-- Where text is built the fragment of a node spells a text; in the mode of its template
it is the text that the renderer gives. -/
theorem node_spells {output : Output} (houtput : output ≠ .nodes) (node : Node)
    (hincluded : ∀ p ∈ node.inclusions .text, Agrees o inclusions modules p) (depth : Nat)
    (scope : Value) :
    ∃ ts,
      List.Forall₂ (SpellsAt output modules depth scope) (emitNode o output depth node).toList ts
      ∧ (output = o.target.textOutput →
        builtTextOfNode o.target o.invertedPolicy inclusions scope node
          = some (String.join ts)) := by
  cases node with
  | text value =>
      obtain ⟨ts, hts, htext⟩ := literal_spells o.target output value depth scope
      exact ⟨ts, hts, fun _ => by rw [builtTextOfNode_text, htext]⟩
  | interpolation expression escape location =>
      obtain ⟨ts, hts, htext⟩ :=
        interpolation_spells output depth scope expression escape location
      exact ⟨ts, hts, fun _ => by rw [builtTextOfNode_interpolation, htext]⟩
  | block kind expression body location =>
      -- The body is run in other scopes, so that the induction is general in the scope.
      obtain ⟨texts, htexts, hspells⟩ := block_spells houtput
        (R := fun s t => output = o.target.textOutput →
          builtText o.target o.invertedPolicy inclusions s body = some t)
        fun s _ => nodes_spell houtput body hincluded (depth + 1) s
      refine ⟨_, hspells, fun hmode => ?_⟩
      rw [builtTextOfNode_block, joinScopes_texts (htexts.imp fun _ _ htext => htext hmode)]
      simp
  | inclusion name location =>
      rw [builtTextOfNode_inclusion]
      exact inclusion_spells (hincluded _ (List.mem_singleton.mpr rfl)) output depth scope location
  | element tag attributes children =>
      obtain ⟨values, hvalues, -⟩ := attributes_yield attributes
        (fun p hp => hincluded p (List.mem_append_left _ hp)) depth scope
      obtain ⟨parts, hparts, -⟩ := nodes_give children
        (fun p hp => hincluded p (List.mem_append_right _ hp)) depth scope
      have hobject := element_yields hvalues (closed_nodes hparts) tag
      -- The object has to have a value, although nothing of it is printed.
      refine ⟨["[object Object]"], .cons ⟨_, hobject, .inr (.inr ⟨⟨_, rfl⟩, rfl⟩)⟩ .nil,
        fun _ => ?_⟩
      rw [builtTextOfNode_element]
      rfl

/-- Where text is built the fragments of nodes spell a text; in the mode of their template
it is the text that the renderer gives. -/
theorem nodes_spell {output : Output} (houtput : output ≠ .nodes) (nodes : List Node)
    (hincluded : ∀ p ∈ inclusionsOfNodes .text nodes, Agrees o inclusions modules p) (depth : Nat)
    (scope : Value) :
    ∃ ts, List.Forall₂ (SpellsAt output modules depth scope) (emitNodes o output depth nodes) ts
      ∧ (output = o.target.textOutput →
        builtText o.target o.invertedPolicy inclusions scope nodes = some (String.join ts)) := by
  cases nodes with
  | nil => exact ⟨[], .nil, fun _ => builtText_nil o.target o.invertedPolicy scope⟩
  | cons node rest =>
      obtain ⟨ts, hts, htext⟩ := node_spells houtput node
        (fun p hp => hincluded p (List.mem_append_left _ hp)) depth scope
      obtain ⟨us, hus, hmore⟩ := nodes_spell houtput rest
        (fun p hp => hincluded p (List.mem_append_right _ hp)) depth scope
      refine ⟨ts ++ us, List.rel_append hts hus, fun hmode => ?_⟩
      rw [builtText_cons (htext hmode) (hmore hmode), String.join_append]

/-- Where a list is built the fragment of a node gives items; in a structural template
they are the entries that the renderer gives. -/
theorem node_gives (node : Node)
    (hincluded : ∀ p ∈ node.inclusions .child, Agrees o inclusions modules p) (depth : Nat)
    (scope : Value) :
    ∃ parts, List.Forall₂ (GivesAt modules depth scope) (emitNode o .nodes depth node).toList parts
      ∧ (o.target = .structural →
        (renderNode o.invertedPolicy inclusions scope node).map valuesOf = some parts.flatten) := by
  cases node with
  | text value =>
      obtain ⟨parts, hparts, hvalues⟩ := literal_gives o.target value depth scope
      exact ⟨parts, hparts, fun htarget => congrArg some (hvalues htarget)⟩
  | interpolation expression escape location =>
      exact ⟨_, interpolation_gives depth scope expression escape location, fun _ => rfl⟩
  | block kind expression body location =>
      -- In a flat template the items of a body are its own, and no renderer lists them.
      obtain ⟨results, hresults, hgives⟩ := block_gives
        (R := fun s items => o.target = .structural →
          (renderNodes o.invertedPolicy inclusions s body).map valuesOf = some items)
        (fun s _ => nodes_give body hincluded (depth + 1) s) location
      refine ⟨[results.flatten], hgives, fun htarget => ?_⟩
      rw [List.flatten_singleton]
      exact appendScopes_values (hresults.imp fun _ _ hrender => hrender htarget)
  | inclusion name location =>
      obtain ⟨items, hitems, hvalues⟩ :=
        inclusion_gives (hincluded _ (List.mem_singleton.mpr rfl)) depth scope location
      refine ⟨[items], hitems, fun _ => ?_⟩
      rw [List.flatten_singleton]
      exact hvalues
  | element tag attributes children =>
      obtain ⟨values, hvalues, hattributes⟩ := attributes_yield attributes
        (fun p hp => hincluded p (List.mem_append_left _ hp)) depth scope
      obtain ⟨parts, hparts, hchildren⟩ := nodes_give children
        (fun p hp => hincluded p (List.mem_append_right _ hp)) depth scope
      have hobject := element_yields hvalues (closed_nodes hparts) tag
      refine ⟨[[_]], .cons ⟨_, hobject, rfl⟩ .nil, fun htarget => ?_⟩
      obtain ⟨entries, hentries, hitems⟩ := Option.map_eq_some_iff.mp (hchildren htarget)
      rw [renderNode, hattributes htarget, hentries, ← hitems]
      rfl

/-- Where a list is built the fragments of nodes give items; in a structural template
they are the entries that the renderer gives. -/
theorem nodes_give (nodes : List Node)
    (hincluded : ∀ p ∈ inclusionsOfNodes .child nodes, Agrees o inclusions modules p) (depth : Nat)
    (scope : Value) :
    ∃ parts, List.Forall₂ (GivesAt modules depth scope) (emitNodes o .nodes depth nodes) parts
      ∧ (o.target = .structural →
        (renderNodes o.invertedPolicy inclusions scope nodes).map valuesOf
          = some parts.flatten) := by
  cases nodes with
  | nil => exact ⟨[], .nil, fun _ => rfl⟩
  | cons node rest =>
      obtain ⟨parts, hparts, hfirst⟩ := node_gives node
        (fun p hp => hincluded p (List.mem_append_left _ hp)) depth scope
      obtain ⟨more, hmore, hrest⟩ := nodes_give rest
        (fun p hp => hincluded p (List.mem_append_right _ hp)) depth scope
      refine ⟨parts ++ more, List.rel_append hparts hmore, fun htarget => ?_⟩
      obtain ⟨first, hentries, hitems⟩ := Option.map_eq_some_iff.mp (hfirst htarget)
      obtain ⟨others, hothers, hmoreItems⟩ := Option.map_eq_some_iff.mp (hrest htarget)
      rw [renderNodes, hentries, hothers, List.flatten_append, ← hitems, ← hmoreItems,
        ← valuesOf_append]
      rfl

/-- The fields of attributes have texts; in a structural template they are those that
the renderer gives. -/
theorem attributes_yield (attributes : List Attribute)
    (hincluded : ∀ p ∈ inclusionsOfAttributes attributes, Agrees o inclusions modules p)
    (depth : Nat) (scope : Value) :
    ∃ values : List (String × String),
      (∀ env, Holds env depth scope →
        evalFields modules (termsOfFields (emitAttributes o depth attributes)) env
          = some (values.map fun entry => (entry.1, .str entry.2)))
      ∧ (o.target = .structural →
        attributes.mapM (renderAttribute o.invertedPolicy inclusions scope) = some values) := by
  cases attributes with
  | nil => exact ⟨[], fun _ _ => rfl, fun _ => rfl⟩
  | cons attr rest =>
      obtain ⟨values, hvalues, hrest⟩ := attributes_yield rest
        (fun p hp => hincluded p (List.mem_append_right _ hp)) depth scope
      cases attr with
      | static name value =>
          refine ⟨(name, value) :: values, fun env henv => ?_, fun htarget => ?_⟩
          · rw [emitAttributes, emitAttribute, termsOfFields, evalFields, hvalues env henv]
            rfl
          · rw [List.mapM_cons, hrest htarget]
            rfl
      | dynamic name parts =>
          -- The value of an attribute is text even in a structural template.
          obtain ⟨ts, hts, htext⟩ := nodes_spell (by decide : Output.summed ≠ .nodes) parts
            (fun p hp => hincluded p (List.mem_append_left _ hp)) depth scope
          refine ⟨(name, String.join ts) :: values, fun env henv => ?_, fun htarget => ?_⟩
          · rw [emitAttributes, emitAttribute, termsOfFields, evalFields,
              runSum_yields hts env henv, hvalues env henv]
            rfl
          · rw [htarget, builtText] at htext
            rw [List.mapM_cons, renderAttribute, htext rfl, hrest htarget]
            rfl

end

end Mustache
