import Mustache.Proofs.Render.Bisimulation

/-!
Renderings without elements.

A list of nodes renders to a text in a flat template, to a text in the value of an
attribute, and to entries among the children of an element. Where no element stands in it,
nothing but the newlines of its literals tells the three apart: the entries are texts, the
value of an attribute is these texts one after another, and so is the text of the list once
its literals have lost their newlines (`renderings_agree`). The entries are taken as given
and the two texts follow from them, node by node; a body is rendered once for each scope of
its block, in the same scopes all three times.
-/
set_option autoImplicit false

namespace Mustache

open Json

/-! ## Lists without elements -/

mutual

/-- Whether a node is or holds an element. -/
def Node.hasElement : Node → Bool
  | .text _ | .interpolation .. | .inclusion .. => false
  | .block _ _ body _ => anyHasElement body
  | .element .. => true

/-- Whether some node of a list is or holds an element. -/
def anyHasElement : List Node → Bool
  | [] => false
  | node :: rest => node.hasElement || anyHasElement rest

end

mutual

/-- A node whose literals have lost their newlines, at any depth of blocks. -/
def Node.collapse : Node → Node
  | .text value => .text (collapsed value)
  | .block kind expression body location => .block kind expression (collapseNodes body) location
  | .interpolation expression escape location => .interpolation expression escape location
  | .inclusion name location => .inclusion name location
  | .element tag attributes children => .element tag attributes children

/-- The nodes of a list with literals that have lost their newlines. -/
def collapseNodes : List Node → List Node
  | [] => []
  | node :: rest => node.collapse :: collapseNodes rest

end

section

variable {policy : InvertedPolicy} {inclusions : Inclusions}

mutual

/-- A node without newlines is to a flat template what the node is to an attribute. -/
theorem builtTextOfNode_collapse (node : Node) (scope : Value) :
    builtTextOfNode .flat policy inclusions scope node.collapse
      = builtTextOfNode .structural policy inclusions scope node := by
  cases node with
  | text value => rfl
  | interpolation expression escape location => rfl
  | inclusion name location => rfl
  | element tag attributes children => rfl
  | block kind expression body location =>
      rw [Node.collapse, builtTextOfNode_block, builtTextOfNode_block]
      congr 1
      exact funext fun child => builtText_collapse body child

/-- Nodes without newlines are to a flat template what the nodes are to an attribute. -/
theorem builtText_collapse (nodes : List Node) (scope : Value) :
    builtText .flat policy inclusions scope (collapseNodes nodes)
      = builtText .structural policy inclusions scope nodes := by
  cases nodes with
  | nil => rfl
  | cons node rest =>
      rw [collapseNodes, builtText_cons_eq, builtText_cons_eq, builtTextOfNode_collapse node,
        builtText_collapse rest]

end

/-! ## Entries that are texts -/

/-- Whether entries are texts that make up a text one after another. -/
def MakeUp (entries : List Rendered) (text : String) : Prop :=
  ∃ texts : List String, entries = texts.map .text ∧ text = String.join texts

theorem makeUp_nil : MakeUp [] "" :=
  ⟨[], rfl, rfl⟩

theorem makeUp_singleton (text : String) : MakeUp [.text text] text :=
  ⟨[text], rfl, by simp⟩

theorem MakeUp.append {entries entries' : List Rendered} {text text' : String}
    (h : MakeUp entries text) (h' : MakeUp entries' text') :
    MakeUp (entries ++ entries') (text ++ text') := by
  obtain ⟨texts, rfl, rfl⟩ := h
  obtain ⟨texts', rfl, rfl⟩ := h'
  exact ⟨texts ++ texts', by rw [List.map_append], by rw [String.join_append]⟩

/-- A literal of which nothing is left makes up the empty text. -/
theorem makeUp_renderedLiteral (value : String) :
    MakeUp (renderedLiteral value) (collapsed value) := by
  rw [renderedLiteral]
  split_ifs with hempty
  · rw [hempty]
    exact makeUp_nil
  · exact makeUp_singleton _

/-- If the entries in each scope make up the text in that scope, then so do the entries of
all scopes. -/
theorem exists_joinScopes {render : Value → Option (List Rendered)}
    {build : Value → Option String}
    (hscope : ∀ scope entries, render scope = some entries →
      ∃ text, build scope = some text ∧ MakeUp entries text)
    {scopes : List Value} {entries : List Rendered}
    (h : appendScopes render scopes = some entries) :
    ∃ text, joinScopes build scopes = some text ∧ MakeUp entries text := by
  obtain ⟨lists, hlists, rfl⟩ := Option.map_eq_some_iff.mp h
  -- Scope by scope: the entries are appended on the one side as the texts are on the other.
  induction scopes generalizing lists with
  | nil =>
      cases hlists
      exact ⟨"", rfl, makeUp_nil⟩
  | cons scope scopes ih =>
      rw [List.mapM_cons] at hlists
      simp only [Option.bind_eq_bind, Option.bind_eq_some_iff] at hlists
      obtain ⟨first, hfirst, others, hothers, hlists⟩ := hlists
      cases hlists
      obtain ⟨text, htext, hmakes⟩ := hscope scope first hfirst
      obtain ⟨more, hmore, hmakes'⟩ := ih others hothers (by rw [appendScopes, hothers]; rfl)
      obtain ⟨texts, htexts, rfl⟩ := Option.map_eq_some_iff.mp hmore
      refine ⟨text ++ String.join texts, ?_, hmakes.append hmakes'⟩
      rw [joinScopes, List.mapM_cons, htext, htexts]
      exact congrArg some String.join_cons

/-! ## Nodes -/

/-- Whether the entries that a name is included as make up the text that it is included
as. -/
def IncludedAsText (inclusions : Inclusions) (name : String) : Prop :=
  ∀ data entries, inclusions.nodes name data = some entries →
    ∃ text, inclusions.text name data = some text ∧ MakeUp entries text

mutual

/-- The entries of a node without elements make up its text in an attribute. -/
theorem exists_builtTextOfNode {node : Node} (h : node.hasElement = false)
    (hincluded : ∀ p ∈ node.inclusions .text, IncludedAsText inclusions p.2) {scope : Value}
    {entries : List Rendered} (hentries : renderNode policy inclusions scope node = some entries) :
    ∃ text, builtTextOfNode .structural policy inclusions scope node = some text
      ∧ MakeUp entries text := by
  cases node with
  | text value =>
      cases hentries
      exact ⟨_, rfl, makeUp_renderedLiteral value⟩
  | interpolation expression escape location =>
      cases hentries
      exact ⟨_, rfl, makeUp_singleton _⟩
  | inclusion name location =>
      exact hincluded _ (List.mem_singleton.mpr rfl) scope entries hentries
  | element tag attributes children => cases h
  | block kind expression body location =>
      rw [builtTextOfNode_block]
      exact exists_joinScopes
        (fun child list hlist => exists_builtText h hincluded hlist) hentries

theorem exists_builtText {nodes : List Node} (h : anyHasElement nodes = false)
    (hincluded : ∀ p ∈ inclusionsOfNodes .text nodes, IncludedAsText inclusions p.2)
    {scope : Value} {entries : List Rendered}
    (hentries : renderNodes policy inclusions scope nodes = some entries) :
    ∃ text, builtText .structural policy inclusions scope nodes = some text
      ∧ MakeUp entries text := by
  cases nodes with
  | nil =>
      cases hentries
      exact ⟨"", rfl, makeUp_nil⟩
  | cons node rest =>
      obtain ⟨hnode, hrest⟩ := Bool.or_eq_false_iff.mp h
      rw [renderNodes] at hentries
      simp only [Option.bind_eq_bind, Option.bind_eq_some_iff, Option.some.injEq] at hentries
      obtain ⟨first, hfirst, others, hothers, rfl⟩ := hentries
      obtain ⟨text, htext, hmakes⟩ := exists_builtTextOfNode hnode
        (fun p hp => hincluded p (List.mem_append_left _ hp)) hfirst
      obtain ⟨more, hmore, hmakes'⟩ := exists_builtText hrest
        (fun p hp => hincluded p (List.mem_append_right _ hp)) hothers
      exact ⟨text ++ more, builtText_cons htext hmore, hmakes.append hmakes'⟩

end

end

/-! ## Inclusions -/

/-- A name that a flat template bears, or none, is included as its text. -/
theorem includedAsText_of_flat {resolve : Resolver} {name : String}
    (h : ∀ template, resolve name = some template → template.options.target = .flat)
    (depth : Nat) : IncludedAsText (inclusionsTo resolve depth) name := by
  intro data entries hentries
  cases hresolve : resolve name with
  | none =>
      cases depth <;>
        simp only [inclusionsTo, hresolve, Option.isNone_none, if_true, Option.some.injEq]
          at hentries ⊢ <;>
        exact ⟨"", rfl, hentries ▸ makeUp_nil⟩
  | some template =>
      cases depth with
      | zero => simp [inclusionsTo, hresolve] at hentries
      | succ depth =>
          simp only [inclusionsTo, hresolve, Template.includedNodes, h template hresolve]
            at hentries ⊢
          obtain ⟨text, htext, rfl⟩ := Option.map_eq_some_iff.mp hentries
          exact ⟨text, htext, makeUp_singleton text⟩

/-- What a page reaches starts no endless chain if nothing that it includes does. -/
theorem Reaches.settles {resolve : Resolver} {page : Template}
    (h : ∀ p ∈ page.inclusions, Settles resolve p.2) {p : Site × String}
    (hp : Reaches resolve page p) : Settles resolve p.2 := by
  induction hp with
  | own hmem => exact h _ hmem
  | @through p q template _ hresolve hq ih => exact ih.inv ⟨template, hresolve, q.1, hq⟩

/-- Data are told apart by nothing but themselves. -/
theorem bisimulation_eq (reads : String → Prop) : Bisimulation reads Eq := by
  refine ⟨fun h _ _ => h ▸ rfl, fun h _ policy kind => ?_⟩
  subst h
  exact List.forall₂_refl _

/-- Nodes whose chains of inclusions end have entries, from some depth on, for all data. -/
theorem exists_entries {resolve : Resolver} {nodes : List Node} (policy : InvertedPolicy)
    (hsettles : ∀ p ∈ inclusionsOfNodes .text nodes, Settles resolve p.2) :
    ∃ bound, ∀ depth, bound ≤ depth → ∀ scope, ∃ entries,
      renderNodes policy (inclusionsTo resolve depth) scope nodes = some entries := by
  let page : Template :=
    ⟨⟨"", .flat, nodes⟩, { Options.default with invertedPolicy := policy }⟩
  have hown : ∀ p ∈ page.inclusions, Settles resolve p.2 := hsettles
  obtain ⟨bound, hbound⟩ := (bisimulation_eq (page.Reads resolve)).exists_bound
    fun p hp => hp.settles hown
  refine ⟨bound, fun depth hdepth scope => ?_⟩
  obtain ⟨-, entries, hentries, -⟩ := hbound depth hdepth scope scope rfl
  exact ⟨entries, hentries⟩

/-! ## The three renderings -/

/-- A flat template with a newline of its own. -/
def verseTemplate : Template :=
  ⟨⟨"verse", .flat, [.text "<\n>"]⟩, Options.default⟩

/-- The resolver that knows this template alone. -/
def verseOnly : Resolver :=
  fun name => if name = "verse" then some verseTemplate else none

/-- A list with a verse for each item, and with a name that no template bears. -/
def itemsInVerse : List Node :=
  [.text "a\n  b",
    .block .normal "items" [.interpolation "." true ⟨2, 15⟩, .text "\n", .inclusion "verse" ⟨3, 1⟩]
      ⟨2, 4⟩,
    .block .inverted "others" [.inclusion "missing" ⟨4, 1⟩] ⟨3, 12⟩]

/-- A list of nodes without elements, whose inclusions are flat templates or none and whose
chains of inclusions end, renders from some depth on to entries that are texts. One after
another they are the text of the list in an attribute, and in a flat template the text of the
list once its literals have lost their newlines. -/
theorem renderings_agree {resolve : Resolver} {nodes : List Node}
    (hnodes : anyHasElement nodes = false)
    (hflat : ∀ p ∈ inclusionsOfNodes .text nodes, ∀ template, resolve p.2 = some template →
      template.options.target = .flat)
    (hsettles : ∀ p ∈ inclusionsOfNodes .text nodes, Settles resolve p.2) :
    ∃ bound, ∀ depth, bound ≤ depth → ∀ policy scope, ∃ texts : List String,
      renderNodes policy (inclusionsTo resolve depth) scope nodes = some (texts.map .text)
        ∧ attributeText policy (inclusionsTo resolve depth) scope nodes
          = some (String.join texts)
        ∧ textOfNodes policy (inclusionsTo resolve depth) scope (collapseNodes nodes)
          = some (String.join texts) := by
  obtain ⟨bound, hbound⟩ := exists_entries .arrayAware hsettles
  obtain ⟨bound', hbound'⟩ := exists_entries .lengthOnly hsettles
  -- Some depth is enough for both policies.
  refine ⟨max bound bound', fun depth hdepth policy scope => ?_⟩
  obtain ⟨entries, hentries⟩ : ∃ entries,
      renderNodes policy (inclusionsTo resolve depth) scope nodes = some entries := by
    cases policy with
    | arrayAware => exact hbound depth (by omega) scope
    | lengthOnly => exact hbound' depth (by omega) scope
  obtain ⟨text, htext, texts, rfl, rfl⟩ := exists_builtText hnodes
    (fun p hp => includedAsText_of_flat (hflat p hp) depth) hentries
  exact ⟨texts, hentries, htext, (builtText_collapse nodes scope).trans htext⟩

/-- The newlines of the list go, and that of the verse stays. -/
theorem renderings_agree_of_verses :
    ∃ depth, attributeText .arrayAware (inclusionsTo verseOnly depth)
        (.obj [("items", .arr [.str "1", .str "2"])]) itemsInVerse = some "ab1<\n>2<\n>"
      ∧ textOfNodes .arrayAware (inclusionsTo verseOnly depth)
        (.obj [("items", .arr [.str "1", .str "2"])]) (collapseNodes itemsInVerse)
          = some "ab1<\n>2<\n>" := by
  have hnames : ∀ p ∈ inclusionsOfNodes .text itemsInVerse, p.2 = "verse" ∨ p.2 = "missing" := by
    decide
  have hresolved (p : Site × String) (hp : p ∈ inclusionsOfNodes .text itemsInVerse) :
      verseOnly p.2 = some verseTemplate ∨ verseOnly p.2 = none := by
    rcases hnames p hp with hname | hname
    · exact .inl (by rw [hname]; rfl)
    · exact .inr (by rw [hname]; rfl)
  have hflat : ∀ p ∈ inclusionsOfNodes .text itemsInVerse, ∀ template,
      verseOnly p.2 = some template → template.options.target = .flat := by
    intro p hp template htemplate
    rcases hresolved p hp with hverse | hnone
    · rw [hverse] at htemplate
      cases htemplate
      rfl
    · rw [hnone] at htemplate
      cases htemplate
  have hsettles : ∀ p ∈ inclusionsOfNodes .text itemsInVerse, Settles verseOnly p.2 := fun p hp =>
    (hresolved p hp).elim (fun hverse => settles_of_leaf hverse rfl) settles_of_unresolved
  obtain ⟨bound, hbound⟩ := renderings_agree (by decide) hflat hsettles
  obtain ⟨texts, hentries, htext, hflatText⟩ := hbound (bound + 1) (by omega) .arrayAware
    (.obj [("items", .arr [.str "1", .str "2"])])
  have hrender : renderNodes .arrayAware (inclusionsTo verseOnly (bound + 1))
      (.obj [("items", .arr [.str "1", .str "2"])]) itemsInVerse
        = some (["ab", "1", "<\n>", "2", "<\n>"].map .text) := by
    with_unfolding_all rfl
  have htexts : texts = ["ab", "1", "<\n>", "2", "<\n>"] :=
    List.map_injective_iff.mpr (fun _ _ => Rendered.text.inj)
      (Option.some.inj (hentries.symm.trans hrender))
  rw [htexts] at htext hflatText
  exact ⟨bound + 1, htext, hflatText⟩

end Mustache
