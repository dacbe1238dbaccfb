import Mustache.Proofs.Data.Descent
import Mustache.Proofs.Render.Nesting
import Mustache.Proofs.Render.Reading

/-!
Templates that include themselves.

What a template includes is met in the scopes of the blocks around it, one in another
(`scopesThrough`). If one of these is a section over a key, the scopes in which a template
meets itself lie deeper under that key than the one that it starts from
(`ListsWithin.through`), and so the recursion goes as deep as the lists under the key nest
(`recursion_ends`). That holds only if each element has the key of its own: otherwise it is
handed the one of the scope around it, and the recursion can go on for ever
(`recursion_goes_on`).
-/
set_option autoImplicit false

namespace Mustache

open Json NameMap Relation

/-! ## Blocks around an inclusion -/

mutual

/-- The ways to the inclusions of a name in a node: the blocks around each, the outermost
first. -/
def Node.ways (name : String) : Node → List (List (BlockKind × String))
  | .text _ | .interpolation .. => []
  | .inclusion other _ => if other = name then [[]] else []
  | .block kind expression body _ => (waysOfNodes name body).map ((kind, expression) :: ·)
  | .element _ attributes children =>
      waysOfAttributes name attributes ++ waysOfNodes name children

/-- The ways to the inclusions of a name in the nodes of a list. -/
def waysOfNodes (name : String) : List Node → List (List (BlockKind × String))
  | [] => []
  | node :: rest => node.ways name ++ waysOfNodes name rest

/-- The ways to the inclusions of a name in the value of an attribute. -/
def Attribute.ways (name : String) : Attribute → List (List (BlockKind × String))
  | .static .. => []
  | .dynamic _ parts => waysOfNodes name parts

/-- The ways to the inclusions of a name in the values of attributes. -/
def waysOfAttributes (name : String) : List Attribute → List (List (BlockKind × String))
  | [] => []
  | attr :: rest => attr.ways name ++ waysOfAttributes name rest

end

/-- The ways to the inclusions of a name in a template. -/
def Template.ways (template : Template) (name : String) : List (List (BlockKind × String)) :=
  waysOfNodes name template.tree.nodes

/-- The scopes that blocks around each other make of a scope, the outermost first. -/
def scopesThrough (policy : InvertedPolicy) (scope : Value) :
    List (BlockKind × String) → List Value
  | [] => [scope]
  | (kind, expression) :: rest =>
      (blockScopes policy kind scope expression).flatMap fun child =>
        scopesThrough policy child rest

section

variable {policy : InvertedPolicy} {name : String} {inner : Value}

mutual

/-- A scope that a name is met in is one that the blocks around it make. -/
theorem Node.exists_way_of_mem_met {node : Node} {scope : Value}
    (h : (name, inner) ∈ node.met policy scope) :
    ∃ way ∈ node.ways name, inner ∈ scopesThrough policy scope way := by
  -- The way grows by a block on the way out; elements do not change the scope.
  cases node with
  | text value => cases h
  | interpolation expression escape location => cases h
  | inclusion other location =>
      cases List.mem_singleton.mp h
      refine ⟨[], ?_, List.mem_singleton.mpr rfl⟩
      rw [Node.ways, if_pos rfl]
      exact List.mem_singleton.mpr rfl
  | block kind expression body location =>
      obtain ⟨child, hchild, hbody⟩ := List.mem_flatMap.mp h
      obtain ⟨way, hway, hinner⟩ := exists_way_of_mem_metByNodes hbody
      exact ⟨(kind, expression) :: way, List.mem_map_of_mem hway,
        List.mem_flatMap.mpr ⟨child, hchild, hinner⟩⟩
  | element tag attributes children =>
      rcases List.mem_append.mp h with hattributes | hchildren
      · obtain ⟨way, hway, hinner⟩ := exists_way_of_mem_metByAttributes hattributes
        exact ⟨way, List.mem_append_left _ hway, hinner⟩
      · obtain ⟨way, hway, hinner⟩ := exists_way_of_mem_metByNodes hchildren
        exact ⟨way, List.mem_append_right _ hway, hinner⟩

theorem exists_way_of_mem_metByNodes {nodes : List Node} {scope : Value}
    (h : (name, inner) ∈ metByNodes policy scope nodes) :
    ∃ way ∈ waysOfNodes name nodes, inner ∈ scopesThrough policy scope way := by
  cases nodes with
  | nil => cases h
  | cons node rest =>
      rcases List.mem_append.mp h with hfirst | hrest
      · obtain ⟨way, hway, hinner⟩ := Node.exists_way_of_mem_met hfirst
        exact ⟨way, List.mem_append_left _ hway, hinner⟩
      · obtain ⟨way, hway, hinner⟩ := exists_way_of_mem_metByNodes hrest
        exact ⟨way, List.mem_append_right _ hway, hinner⟩

theorem Attribute.exists_way_of_mem_met {attr : Attribute} {scope : Value}
    (h : (name, inner) ∈ attr.met policy scope) :
    ∃ way ∈ attr.ways name, inner ∈ scopesThrough policy scope way := by
  cases attr with
  | static attrName value => cases h
  | dynamic attrName parts => exact exists_way_of_mem_metByNodes h

theorem exists_way_of_mem_metByAttributes {attributes : List Attribute} {scope : Value}
    (h : (name, inner) ∈ metByAttributes policy scope attributes) :
    ∃ way ∈ waysOfAttributes name attributes, inner ∈ scopesThrough policy scope way := by
  cases attributes with
  | nil => cases h
  | cons attr rest =>
      rcases List.mem_append.mp h with hfirst | hrest
      · obtain ⟨way, hway, hinner⟩ := Attribute.exists_way_of_mem_met hfirst
        exact ⟨way, List.mem_append_left _ hway, hinner⟩
      · obtain ⟨way, hway, hinner⟩ := exists_way_of_mem_metByAttributes hrest
        exact ⟨way, List.mem_append_right _ hway, hinner⟩

end

end

/-! ## Going down under a key -/

/-- Whether an expression is one key: not empty, without dots and without spaces. -/
structure IsPlainKey (key : String) : Prop where
  ne : key ≠ ""
  dot : '.' ∉ key.toList
  space : ' ' ∉ key.toList

/-- A section over a plain key shows what stands under the key. -/
theorem IsPlainKey.elements_eq {key : String} (h : IsPlainKey key) (members : Members) :
    elements (.obj members) key = shown (get? members key) := by
  have hpath : pathKeys key = [key] := by
    have hwhole : key.toList.takeWhile (· ≠ ' ') = key.toList := by
      rw [List.takeWhile_eq_self_iff]
      intro c hc
      have hne : c ≠ ' ' := fun heq => h.space (heq ▸ hc)
      exact decide_eq_true hne
    rw [pathKeys, hwhole, splitAtChar_of_not_mem h.dot, List.map_singleton, String.ofList_toList]
  have hhead : key.toList.head? ≠ some '.' := fun hhead => h.dot (List.mem_of_mem_head? hhead)
  rw [elements_eq_shown, lookup_of_path h.ne hhead, hpath, shown_settle]
  rfl

/-- A section shows something of what stands under the root of its expression: of that itself
if the root is the dot. -/
theorem exists_elements_eq {expression : String} (hne : expression ≠ "") :
    ∃ path : List String, (rootOf expression = "." → path = []) ∧ ∀ members,
      elements (.obj members) expression
        = shown (path.foldl walkStep (get? members (rootOf expression))) := by
  rcases lookup_obj hne with ⟨-, hname⟩ | ⟨hdot, path, hpath⟩
  · refine ⟨[], fun _ => rfl, fun members => ?_⟩
    rw [elements_eq_shown, hname]
    rfl
  · refine ⟨path, fun hroot => ?_, fun members => ?_⟩
    · rw [hroot] at hdot
      exact absurd hdot (by decide)
    · rw [elements_eq_shown, hpath, shown_settle]

section

variable {key : String} {keys : String → Prop} {depth : Nat}

/-- From the elements of a section over the key, which have it of their own, the sections over
the key go less deep. -/
theorem ListsWithin.of_mem_keyed {members : Members}
    (h : ListsWithin key keys depth (.obj members)) (hkey : IsPlainKey key) {element : Value}
    (helement : element ∈ elements (.obj members) key) :
    (ownValue? element key).isSome ∧ ∃ less < depth, ListsWithin key keys less element := by
  have hordered : element.Ordered := h.ordered.of_mem_elements element helement
  rw [hkey.elements_eq] at helement
  obtain ⟨hsome, hdescends, hless⟩ := h.own element helement
  exact ⟨hsome, _, hless, listsWithin_of_descends hordered hdescends (le_refl _)⟩

/-- From the elements of another section around an inclusion they go no deeper. -/
theorem ListsWithin.of_mem_other {members : Members}
    (h : ListsWithin key keys depth (.obj members)) {expression : String}
    (hroot : expression ≠ "" → keys (rootOf expression)) {element : Value}
    (helement : element ∈ elements (.obj members) expression) :
    ListsWithin key keys depth element := by
  have hordered : element.Ordered := h.ordered.of_mem_elements element helement
  by_cases hempty : expression = ""
  · -- The empty expression shows the scope itself.
    subst hempty
    have hself : elements (.obj members) "" = [.obj members] := rfl
    rw [hself] at helement
    cases List.mem_singleton.mp helement
    exact h
  obtain ⟨path, hpath, helements⟩ := exists_elements_eq hempty
  have hkeys : keys (rootOf expression) := hroot hempty
  rw [helements] at helement
  by_cases hdot : rootOf expression = "."
  · -- What stands under the dot is shown as a whole.
    rw [hpath hdot, hdot] at helement
    rw [hdot] at hkeys
    have hcurrent := h.current hkeys
    cases hfound : get? members "." with
    | none =>
        rw [hfound] at helement
        cases helement
    | some inner =>
        rw [ownValue?, hfound, Option.getD_some] at hcurrent
        rw [hfound] at helement
        exact listsWithin_of_mem_shown hordered hcurrent helement
  · have hstart : ∀ value ∈ get? members (rootOf expression), value.Lacks key :=
      h.apart _ hkeys hdot
    exact listsWithin_of_lacks hordered
      (lacks_of_mem_shown ((hereditary_lacks key).of_steps hstart path) helement)

/-- A scope of a block around an inclusion is an object from which the sections over the key go
no deeper, and less deep if the block is one. -/
theorem ListsWithin.of_mem_blockScopes {members : Members}
    (h : ListsWithin key keys depth (.obj members)) (hkey : IsPlainKey key) {kind : BlockKind}
    {expression : String}
    (hroot : kind = .normal → expression ≠ key → expression ≠ "" → keys (rootOf expression))
    {policy : InvertedPolicy} {scope : Value}
    (hscope : scope ∈ blockScopes policy kind (.obj members) expression) :
    ∃ inner less, scope = .obj inner ∧ ListsWithin key keys less (.obj inner) ∧ less ≤ depth
      ∧ ((kind, expression) = (.normal, key) → less < depth) := by
  cases kind with
  | normal =>
      rw [blockScopes, sectionScopes, elementScopesFrom_eq] at hscope
      obtain ⟨index, hindex, rfl⟩ := List.mem_mapIdx.mp hscope
      have helement := List.getElem_mem hindex
      by_cases hover : expression = key
      · -- The list of the key itself: its elements lie deeper, and each has a list of its own.
        subst hover
        obtain ⟨hsome, less, hless, hwithin⟩ := h.of_mem_keyed hkey helement
        have hnone (heq : ownValue? (elements (.obj members) expression)[index] expression = none) :
            depth ≤ less := by
          rw [heq] at hsome
          cases hsome
        exact ⟨_, less, rfl, h.elementScope hwithin hkey.dot hnone _ _, hless.le, fun _ => hless⟩
      · have hwithin := h.of_mem_other (hroot rfl hover) helement
        exact ⟨_, depth, rfl, h.elementScope hwithin hkey.dot (fun _ => le_refl depth) _ _,
          le_refl depth, fun heq => absurd (congrArg Prod.snd heq) hover⟩
  | inverted =>
      rw [blockScopes, invertedScopes] at hscope
      split_ifs at hscope
      · cases hscope
      · cases List.mem_singleton.mp hscope
        rw [overlay_nil_obj h.ordered.members]
        exact ⟨members, depth, rfl, h, le_refl depth, fun heq => by cases heq⟩

/-- A scope that a way leads to is such a scope, and deeper under the key if the way has a
section over it. -/
theorem ListsWithin.through {members : Members}
    (h : ListsWithin key keys depth (.obj members)) (hkey : IsPlainKey key)
    {way : List (BlockKind × String)}
    (hroots : ∀ expression, (BlockKind.normal, expression) ∈ way → expression ≠ key →
      expression ≠ "" → keys (rootOf expression))
    {policy : InvertedPolicy} {scope : Value}
    (hscope : scope ∈ scopesThrough policy (.obj members) way) :
    ∃ inner less, scope = .obj inner ∧ ListsWithin key keys less (.obj inner) ∧ less ≤ depth
      ∧ ((BlockKind.normal, key) ∈ way → less < depth) := by
  induction way generalizing members depth with
  | nil =>
      cases List.mem_singleton.mp hscope
      exact ⟨members, depth, rfl, h, le_refl depth, fun hmem => absurd hmem List.not_mem_nil⟩
  | cons block rest ih =>
      obtain ⟨kind, expression⟩ := block
      obtain ⟨child, hchild, hinner⟩ := List.mem_flatMap.mp hscope
      obtain ⟨outer, middle, rfl, houter, hmiddle, hover⟩ := h.of_mem_blockScopes hkey
        (fun hkind => hroots expression (hkind ▸ List.mem_cons_self)) hchild
      obtain ⟨inner, less, rfl, hwithin, hless, hdeeper⟩ := ih houter
        (fun other hother => hroots other (List.mem_cons_of_mem _ hother)) hinner
      refine ⟨inner, less, rfl, hwithin, hless.trans hmiddle, fun hmem => ?_⟩
      -- The depth never grows on the way, and drops at the block of the key.
      rcases List.mem_cons.mp hmem with heq | hrest
      · exact hless.trans_lt (hover heq.symm)
      · exact (hdeeper hrest).trans_le hmiddle

end

/-! ## Recursion -/

/-- Whether a key is the root of another section around an inclusion of a name than those over
a given key. -/
def Template.OtherRoot (template : Template) (name key root : String) : Prop :=
  ∃ way ∈ template.ways name, ∃ expression, (BlockKind.normal, expression) ∈ way
    ∧ expression ≠ key ∧ expression ≠ "" ∧ rootOf expression = root

/-- Whether a template includes itself inside sections over a plain key alone, and otherwise
what is on no circle and leads to no more templates than a number. -/
structure Template.RecursesUnder (template : Template) (resolve : Resolver) (name key : String)
    (others : Nat) : Prop where
  named : resolve name = some template
  plain : IsPlainKey key
  ways : ∀ way ∈ template.ways name, (BlockKind.normal, key) ∈ way
  noCircle : ∀ p ∈ template.inclusions, p.2 ≠ name → LeadsToNoCircle resolve p.2
  few : ∀ p ∈ template.inclusions, p.2 ≠ name → (ledTo resolve p.2).encard ≤ others

section

variable {resolve : Resolver} {name key : String} {template : Template} {others depth : Nat}
  {members : Members}

/-- What a recursive template meets in a scope is itself, in a scope that is deeper under the
key, or something that is on no circle. -/
theorem Template.RecursesUnder.nestsWithin_of_mem_met
    (hrecurses : template.RecursesUnder resolve name key others)
    (h : ListsWithin key (template.OtherRoot name key) depth (.obj members))
    (hself : ∀ less < depth, ∀ inner,
      ListsWithin key (template.OtherRoot name key) less (.obj inner) →
      NestsWithin resolve (less + others + 1) name (.obj inner))
    {p : String × Value} (hp : p ∈ template.met (.obj members)) :
    NestsWithin resolve (depth + others) p.1 p.2 := by
  obtain ⟨other, scope⟩ := p
  by_cases hname : other = name
  · subst hname
    obtain ⟨way, hway, hscope⟩ := exists_way_of_mem_metByNodes hp
    obtain ⟨inner, less, rfl, hwithin, -, hdeeper⟩ := h.through hrecurses.plain
      (fun expression hmem hne hempty => ⟨way, hway, expression, hmem, hne, hempty, rfl⟩) hscope
    have hless : less < depth := hdeeper (hrecurses.ways way hway)
    exact (hself less hless inner hwithin).mono (by omega)
  · obtain ⟨site, hmem⟩ := exists_site_of_mem_metByNodes hp template.tree.target.site
    have hnests : NestsWithin resolve others other scope :=
      nestsWithin_of_encard_le (hrecurses.noCircle _ hmem hname) (hrecurses.few _ hmem hname) scope
    exact hnests.mono (by omega)

/-- A recursive template nests in a scope as deep as the sections over the key go down from
it, with what else it includes on top. -/
theorem Template.RecursesUnder.nestsWithin
    (hrecurses : template.RecursesUnder resolve name key others)
    (h : ListsWithin key (template.OtherRoot name key) depth (.obj members)) :
    NestsWithin resolve (depth + others + 1) name (.obj members) := by
  induction depth using Nat.strong_induction_on generalizing members with
  | _ depth ih =>
      intro template' htemplate p hp
      rw [hrecurses.named] at htemplate
      cases htemplate
      exact hrecurses.nestsWithin_of_mem_met h
        (fun less hless inner hinner => ih less hless hinner) hp

/-- A template that includes itself inside sections over one key, and otherwise what is on no
circle, renders for all data in which each element that the sections over the key come to has
the key of its own, while nothing under the roots of other sections around it has the key. It
renders to one and the same text and to one and the same entries at every depth that is at
least as great as the lists under the key nest, with what else it includes on top. -/
theorem recursion_ends (hrecurses : template.RecursesUnder resolve name key others)
    {data : Value} (hordered : data.Ordered)
    (hdata : data.Descends key (template.OtherRoot name key)) :
    ∃ text entries, ∀ depth, data.listDepth key + others ≤ depth →
      template.renderText resolve depth data = some text
        ∧ template.renderNodes resolve depth data = some entries := by
  have hwithin := listsWithin_of_descends hordered hdata (le_refl _)
  cases hdata with
  | obj apart own below =>
      refine Template.renders_of_nestsWithin fun p hp => ?_
      exact hrecurses.nestsWithin_of_mem_met hwithin
        (fun less _ inner hinner => hrecurses.nestsWithin hinner) hp

end

/-- A template that shows a title, itself for each part of what is open, and a mark. -/
def outlineTemplate : Template :=
  ⟨⟨"outline", .flat, [.interpolation "title" true ⟨1, 1⟩,
    .block .normal "open" [.block .normal "parts" [.inclusion "outline" ⟨1, 29⟩] ⟨1, 19⟩] ⟨1, 10⟩,
    .inclusion "mark" ⟨1, 62⟩]⟩, Options.default⟩

def markTemplate : Template :=
  ⟨⟨"mark", .flat, [.text ";"]⟩, Options.default⟩

/-- The resolver that knows these two. -/
def outlineAndMark : Resolver :=
  fun name => if name = "outline" then some outlineTemplate
    else if name = "mark" then some markTemplate else none

/-- A part without parts. -/
def lastPart (title : String) : Value :=
  .obj [("parts", .arr []), ("title", .str title)]

/-- A part with two, the second with one more; the title of the first is that of the whole. -/
def outlineData : Value :=
  .obj [("open", .bool true),
    ("parts", .arr [.obj [("parts", .arr [])],
      .obj [("parts", .arr [lastPart "c"]), ("title", .str "b")]]),
    ("title", .str "a")]

/-- Each part has parts of its own, and what is open is no object. -/
theorem descends_outlineData {keys : String → Prop} (hkeys : ∀ k, keys k → k = "open") :
    outlineData.Descends "parts" keys := by
  have hnone (members : Members) (hopen : get? members "open" = none) :
      ∀ k, keys k → ∀ value ∈ get? members k, value.Lacks "parts" := by
    intro k hk value hvalue
    rw [hkeys k hk, hopen] at hvalue
    cases hvalue
  have hempty {own : Value → Prop} : ∀ element ∈ shown (some (.arr [])), own element :=
    fun _ helement => absurd helement List.not_mem_nil
  have hlast : (lastPart "c").Descends "parts" keys := .obj (hnone _ rfl) hempty hempty
  have hfirst : (Value.obj [("parts", .arr [])]).Descends "parts" keys :=
    .obj (hnone _ rfl) hempty hempty
  have hsecond : (Value.obj [("parts", .arr [lastPart "c"]), ("title", .str "b")]).Descends
      "parts" keys := by
    have hshown : shown (some (.arr [lastPart "c"])) = [lastPart "c"] := rfl
    refine .obj (hnone _ rfl) ?_ ?_
    · exact List.forall_mem_singleton.mpr rfl
    · exact List.forall_mem_singleton.mpr hlast
  refine .obj (fun k hk value hvalue => ?_) ?_ ?_
  · rw [hkeys k hk] at hvalue
    cases hvalue
    exact .bool true
  · exact List.forall_mem_cons.mpr ⟨rfl, List.forall_mem_singleton.mpr rfl⟩
  · exact List.forall_mem_cons.mpr ⟨hfirst, List.forall_mem_singleton.mpr hsecond⟩

/-- The parts nest twice, and the mark is one more. -/
theorem recursion_ends_of_outline :
    outlineData.listDepth "parts" = 2
      ∧ outlineTemplate.renderText outlineAndMark 3 outlineData = some "aa;bc;;;"
      ∧ ∃ text entries, ∀ depth, outlineData.listDepth "parts" + 1 ≤ depth →
        outlineTemplate.renderText outlineAndMark depth outlineData = some text
          ∧ outlineTemplate.renderNodes outlineAndMark depth outlineData = some entries := by
  have hway : outlineTemplate.ways "outline" = [[(.normal, "open"), (.normal, "parts")]] := rfl
  have hopen (k : String) (hk : outlineTemplate.OtherRoot "outline" "parts" k) : k = "open" := by
    obtain ⟨way, hmem, expression, hexpression, hne, -, rfl⟩ := hk
    rw [hway, List.mem_singleton] at hmem
    rw [hmem] at hexpression
    rcases List.mem_cons.mp hexpression with heq | hrest
    · cases heq
      decide +kernel
    · cases List.mem_singleton.mp hrest
      exact absurd rfl hne
  have hmark : outlineAndMark "mark" = some markTemplate := rfl
  have hother (p : Site × String) (hp : p ∈ outlineTemplate.inclusions) (hne : p.2 ≠ "outline") :
      p.2 = "mark" := by
    rcases List.mem_cons.mp hp with rfl | hlast
    · exact absurd rfl hne
    · cases List.mem_singleton.mp hlast
      rfl
  have hrecurses : outlineTemplate.RecursesUnder outlineAndMark "outline" "parts" 1 := by
    refine ⟨rfl, ⟨by decide, by decide, by decide⟩, by decide, fun p hp hne => ?_,
      fun p hp hne => ?_⟩
    · rw [hother p hp hne]
      exact leadsToNoCircle_of_settles (settles_of_leaf hmark rfl)
    · rw [hother p hp hne]
      exact encard_ledTo_of_leaf hmark rfl
  exact ⟨by decide +kernel, by decide +kernel,
    recursion_ends hrecurses (by decide +kernel) (descends_outlineData hopen)⟩

/-! ## Recursion that goes on -/

/-- A page that comes to a template in a scope in which the template comes to itself again never
renders. -/
theorem renderText_eq_none_of_loop {resolve : Resolver} {name : String} {template page : Template}
    {loop start : Value} (htemplate : resolve name = some template)
    (hloop : ∀ inclusions : Inclusions, inclusions.text name loop = none →
      template.textWith inclusions loop = none)
    (hstart : ∀ inclusions : Inclusions, inclusions.text name loop = none →
      page.textWith inclusions start = none) (depth : Nat) :
    page.renderText resolve depth start = none := by
  refine hstart _ ?_
  induction depth with
  | zero => simp [inclusionsTo, htemplate]
  | succ depth ih =>
      simp only [inclusionsTo, htemplate]
      exact hloop _ ih

/-- The resolver that knows one template as a node. -/
def onlyNode (template : Template) : Resolver :=
  fun name => if name = "node" then some template else none

/-- A template that shows a name, and itself for each of the kids. -/
def treeTemplate : Template :=
  ⟨⟨"node", .flat, [.interpolation "name" true ⟨1, 1⟩,
    .block .normal "kids" [.inclusion "node" ⟨1, 18⟩] ⟨1, 9⟩]⟩, Options.default⟩

/-- An object with one kid, which is without kids. -/
def treeData : Value :=
  .obj [("kids", .arr [.obj []]), ("name", .str "a")]

/-- The scope of the kid, which has the kids of its parent, itself among them. -/
def treeLoop : Value :=
  .obj [(".", .obj []), (".index", .ofNat 0), (".length", .ofNat 1), ("kids", .arr [.obj []]),
    ("name", .str "a")]

theorem treeTemplate_goes_on (depth : Nat) :
    treeTemplate.renderText (onlyNode treeTemplate) depth treeData = none := by
  have hstep (scope : Value) (hkids : sectionScopes scope "kids" = [treeLoop])
      (inclusions : Inclusions) (hloop : inclusions.text "node" treeLoop = none) :
      treeTemplate.textWith inclusions scope = none := by
    simp [Template.textWith, treeTemplate, textOfNodes, textOfNode, joinScopes, blockScopes,
      hkids, hloop]
  exact renderText_eq_none_of_loop rfl (hstep treeLoop (by with_unfolding_all rfl))
    (hstep treeData (by with_unfolding_all rfl)) depth

/-- A template that shows itself in brackets for what comes next after each of the kids. -/
def chainTemplate : Template :=
  ⟨⟨"node", .flat, [.text "(", .block .normal "kids"
    [.block .normal "next" [.inclusion "node" ⟨1, 20⟩] ⟨1, 11⟩] ⟨1, 2⟩, .text ")"]⟩,
    Options.default⟩

/-- An object with one kid, which is without kids, and with two links of a chain. -/
def chainData : Value :=
  .obj [("kids", .arr [.obj []]), ("next", .obj [("next", .obj [("next", .bool false)])])]

/-- A kid with an empty list of kids. -/
def childlessKid : Value :=
  .obj [("kids", .arr [])]

def kidParent : Value :=
  .obj [("kids", .arr [childlessKid])]

/-- The parent of the kid, with itself as what comes next. -/
def circleData : Value :=
  .obj [("kids", .arr [childlessKid]), ("next", kidParent)]

/-- The scope of the kid, in which what comes next is its parent. -/
def circleKid : Value :=
  .obj [(".", childlessKid), (".index", .ofNat 0), (".length", .ofNat 1), ("kids", .arr []),
    ("next", kidParent)]

/-- The scope of what comes next, which has the kid again. -/
def circleLoop : Value :=
  .obj [(".", kidParent), (".index", .ofNat 0), (".length", .ofNat 1),
    ("kids", .arr [childlessKid]), ("next", kidParent)]

theorem chainTemplate_goes_on (depth : Nat) :
    chainTemplate.renderText (onlyNode chainTemplate) depth circleData = none := by
  have hnext : sectionScopes circleKid "next" = [circleLoop] := by with_unfolding_all rfl
  have hstep (scope : Value) (hkids : sectionScopes scope "kids" = [circleKid])
      (inclusions : Inclusions) (hloop : inclusions.text "node" circleLoop = none) :
      chainTemplate.textWith inclusions scope = none := by
    simp [Template.textWith, chainTemplate, textOfNodes, textOfNode, joinScopes, blockScopes,
      hkids, hnext, hloop]
  exact renderText_eq_none_of_loop rfl (hstep circleLoop (by with_unfolding_all rfl))
    (hstep circleData (by with_unfolding_all rfl)) depth

/-- Each kid of the parent has kids of its own, if none. -/
theorem descends_circleData : circleData.Descends "kids" fun _ => False := by
  have hkid : childlessKid.Descends "kids" fun _ => False :=
    .obj (fun _ hk => hk.elim) (fun _ helement => absurd helement List.not_mem_nil)
      (fun _ helement => absurd helement List.not_mem_nil)
  exact .obj (fun _ hk => hk.elim) (List.forall_mem_singleton.mpr rfl)
    (List.forall_mem_singleton.mpr hkid)

/-- A template that includes itself wherever it stands. -/
def ringTemplate : Template :=
  ⟨⟨"ring", .flat, [.inclusion "ring" ⟨1, 1⟩]⟩, Options.default⟩

/-- A template that shows itself for each of the kids, and the other one. -/
def ringedTemplate : Template :=
  ⟨⟨"node", .flat, [.block .normal "kids" [.inclusion "node" ⟨1, 10⟩] ⟨1, 1⟩,
    .inclusion "ring" ⟨1, 30⟩]⟩, Options.default⟩

/-- The resolver that knows these two. -/
def nodeAndRing : Resolver :=
  fun name => if name = "node" then some ringedTemplate
    else if name = "ring" then some ringTemplate else none

theorem ringedTemplate_goes_on (depth : Nat) :
    ringedTemplate.renderText nodeAndRing depth (.obj []) = none := by
  have hring (inclusions : Inclusions) (hloop : inclusions.text "ring" (.obj []) = none) :
      ringTemplate.textWith inclusions (.obj []) = none := by
    simp [Template.textWith, ringTemplate, textOfNodes, textOfNode, hloop]
  have hkids : sectionScopes (.obj []) "kids" = [] := rfl
  have hpage (inclusions : Inclusions) (hloop : inclusions.text "ring" (.obj []) = none) :
      ringedTemplate.textWith inclusions (.obj []) = none := by
    simp [Template.textWith, ringedTemplate, textOfNodes, textOfNode, joinScopes, blockScopes,
      hkids, hloop]
  exact renderText_eq_none_of_loop rfl hring hpage depth

/-- A template that includes itself in nothing but sections over the kids need not end, nor
keep to the depth at which the kids nest: a kid without kids is handed those of its parent,
whether they come round for ever or until something else runs out. A section over something
else can bring the kids back though each kid has kids of its own; and what else the template
includes can go on by itself. -/
theorem recursion_goes_on :
    (∀ template ∈ [treeTemplate, chainTemplate, ringedTemplate],
        ∀ way ∈ template.ways "node", (BlockKind.normal, "kids") ∈ way)
      ∧ (treeData.listDepth "kids" = 1
        ∧ ∀ depth, treeTemplate.renderText (onlyNode treeTemplate) depth treeData = none)
      ∧ (chainData.listDepth "kids" = 1
        ∧ chainTemplate.renderText (onlyNode chainTemplate) 1 chainData = none
        ∧ chainTemplate.renderText (onlyNode chainTemplate) 2 chainData = some "((()))")
      ∧ (circleData.Descends "kids" (fun _ => False)
        ∧ ∀ depth, chainTemplate.renderText (onlyNode chainTemplate) depth circleData = none)
      ∧ ∀ depth, ringedTemplate.renderText nodeAndRing depth (.obj []) = none := by
  refine ⟨by decide, ⟨by decide +kernel, treeTemplate_goes_on⟩, ?_,
    ⟨descends_circleData, chainTemplate_goes_on⟩, ringedTemplate_goes_on⟩
  exact ⟨by decide +kernel, by decide +kernel, by decide +kernel⟩

end Mustache
