import Mathlib.Data.List.TakeWhile
import Mustache.Proofs.Data.Merging
import Mustache.Proofs.Render.Bisimulation

/-!
What rendering reads of its data.

An expression names one entry of a scope, its root: the whole expression if it starts with
a dot, and otherwise what stands before its first dot or space. Objects that have the same
under the roots of a template's expressions cannot be told apart by it. The scope of every
block is an object again, copied from its parent, and agrees on the roots as the parent
does: what is set on top is the same on both sides, for the element was looked up
(`agree_bisimulation`). Hence a template renders to the same for all data that agree on the
roots of what it reads (`renders_alike_of_agree`).
-/
set_option autoImplicit false

namespace Mustache

open Json NameMap

/-! ## Roots -/

/-- The entry of a scope that an expression starts from. -/
def rootOf (expression : String) : String :=
  match expression.toList with
  | '.' :: _ => expression
  | text => String.ofList ((text.takeWhile (· ≠ ' ')).takeWhile (· ≠ '.'))

/-- The first part of a text ends where the separator first stands. -/
theorem exists_splitAtChar (separator : Char) (s : List Char) :
    ∃ parts, splitAtChar separator s = s.takeWhile (· ≠ separator) :: parts := by
  induction s with
  | nil => exact ⟨[], rfl⟩
  | cons c s ih =>
      obtain ⟨parts, hparts⟩ := ih
      rw [splitAtChar, hparts]
      by_cases hc : c = separator
      · refine ⟨s.takeWhile (· ≠ separator) :: parts, ?_⟩
        rw [if_pos hc, List.takeWhile_cons_of_neg (by simpa using hc)]
      · refine ⟨parts, ?_⟩
        rw [if_neg hc, List.takeWhile_cons_of_pos (by simpa using hc)]

/-- Text without the separator is one part. -/
theorem splitAtChar_of_not_mem {separator : Char} {s : List Char} (h : separator ∉ s) :
    splitAtChar separator s = [s] := by
  induction s with
  | nil => rfl
  | cons c s ih =>
      rw [List.mem_cons, not_or] at h
      rw [splitAtChar, if_neg (Ne.symm h.1), ih h.2]

/-- An expression that does not start with a dot walks from its root on. -/
theorem exists_pathKeys {expression : String} (h : expression.toList.head? ≠ some '.') :
    ∃ keys, pathKeys expression = rootOf expression :: keys := by
  obtain ⟨parts, hparts⟩ :=
    exists_splitAtChar '.' (expression.toList.takeWhile (· ≠ ' '))
  refine ⟨parts.map String.ofList, ?_⟩
  rw [pathKeys, hparts, rootOf]
  split
  · rename_i hdot
    rw [hdot] at h
    exact absurd rfl h
  · rfl

/-- In an object, an expression that starts with a dot is looked up as it is, and any other is
walked from what stands under its root, which has no dot in it. -/
theorem lookup_obj {expression : String} (hne : expression ≠ "") :
    (rootOf expression = expression ∧ ∀ members escape,
      lookup (.obj members) expression escape = get? members (rootOf expression))
    ∨ ('.' ∉ (rootOf expression).toList ∧ ∃ keys : List String, ∀ members escape,
      lookup (.obj members) expression escape
        = settle escape (keys.foldl walkStep (get? members (rootOf expression)))) := by
  by_cases hdot : expression.toList.head? = some '.'
  · obtain ⟨rest, hrest⟩ := List.head?_eq_some_iff.mp hdot
    have hwhole : rootOf expression = expression := by
      simp only [rootOf, hrest]
    refine .inl ⟨hwhole, fun members escape => ?_⟩
    rw [hwhole, lookup, hrest]
    rfl
  · obtain ⟨keys, hkeys⟩ := exists_pathKeys hdot
    refine .inr ⟨fun hmem => ?_, keys, fun members escape => ?_⟩
    · rw [rootOf] at hmem
      split at hmem
      · rename_i hrest
        rw [hrest] at hdot
        exact hdot rfl
      · rw [String.toList_ofList] at hmem
        exact absurd (List.mem_takeWhile_imp hmem) (by decide)
    · -- Only the first step of a walk looks at the object itself.
      rw [lookup_of_path hne hdot, hkeys]
      rfl

example : rootOf "user.name raw" = "user" ∧ rootOf ".index.x y" = ".index.x y" := by
  decide +kernel

/-! ## Agreement -/

/-- Two objects, each with different names, that have the same under some of them. -/
structure AgreeOn (keys : String → Prop) (a b : Members) : Prop where
  distinct : Distinct a
  distinct' : Distinct b
  same : ∀ key, keys key → get? a key = get? b key

variable {keys : String → Prop} {a b : Members}

/-- Objects that agree on the root of an expression have the same under the expression. -/
theorem AgreeOn.lookup_eq (h : AgreeOn keys a b) {expression : String} (hne : expression ≠ "")
    (hroot : keys (rootOf expression)) (escape : Bool) :
    lookup (.obj a) expression escape = lookup (.obj b) expression escape := by
  rcases lookup_obj hne with ⟨-, hname⟩ | ⟨-, path, hpath⟩
  · rw [hname, hname, h.same _ hroot]
  · rw [hpath, hpath, h.same _ hroot]

/-- Copies of objects that agree, with the same set on top, agree. -/
theorem AgreeOn.insertAll (h : AgreeOn keys a b) (news : List (String × Value)) :
    AgreeOn keys (NameMap.insertAll (overlay [] (.obj a)) news)
      (NameMap.insertAll (overlay [] (.obj b)) news) := by
  refine ⟨(ordered_insertAll (ordered_overlay_nil _) news).distinct,
    (ordered_insertAll (ordered_overlay_nil _) news).distinct, fun key hkey => ?_⟩
  refine get?_insertAll_congr ?_ news
  rw [get?_overlay_nil h.distinct, get?_overlay_nil h.distinct', h.same key hkey]

/-- Two scopes that are objects and agree. -/
def ScopesAgree (keys : String → Prop) (s s' : Value) : Prop :=
  ∃ a b, s = .obj a ∧ s' = .obj b ∧ AgreeOn keys a b

theorem AgreeOn.elementScope (h : AgreeOn keys a b) (element : Value) (index count : Nat) :
    ScopesAgree keys (elementScope (.obj a) element index count)
      (Mustache.elementScope (.obj b) element index count) := by
  -- What is bound for the element and its own entries are set one after the other.
  have hbound := h.insertAll (elementBindings element index count ++ entries element)
  rw [NameMap.insertAll, NameMap.insertAll, List.foldl_append, List.foldl_append] at hbound
  exact ⟨_, _, rfl, rfl, hbound⟩

theorem AgreeOn.elementScopesFrom (h : AgreeOn keys a b) (count index : Nat)
    (elements : List Value) :
    List.Forall₂ (ScopesAgree keys) (elementScopesFrom (.obj a) count index elements)
      (Mustache.elementScopesFrom (.obj b) count index elements) := by
  induction elements generalizing index with
  | nil => exact .nil
  | cons element rest ih => exact .cons (h.elementScope element index count) (ih (index + 1))

theorem AgreeOn.blockScopes (h : AgreeOn keys a b) {expression : String} (hne : expression ≠ "")
    (hroot : keys (rootOf expression)) (policy : InvertedPolicy) (kind : BlockKind) :
    List.Forall₂ (ScopesAgree keys) (blockScopes policy kind (.obj a) expression)
      (Mustache.blockScopes policy kind (.obj b) expression) := by
  have hlookup := h.lookup_eq hne hroot false
  cases kind with
  | normal =>
      have helements : elements (.obj a) expression = elements (.obj b) expression := by
        rw [elements, elements, hlookup]
      unfold Mustache.blockScopes
      rw [sectionScopes, sectionScopes, helements]
      exact h.elementScopesFrom _ 0 _
  | inverted =>
      unfold Mustache.blockScopes
      rw [invertedScopes, invertedScopes, hlookup]
      split_ifs
      · exact .nil
      · exact .cons ⟨_, _, rfl, rfl, h.insertAll []⟩ .nil

/-- No expression tells objects apart that agree on its root. -/
theorem agree_bisimulation {reads : String → Prop} (hne : ∀ e, reads e → e ≠ "")
    (hroots : ∀ e, reads e → keys (rootOf e)) :
    Bisimulation reads (ScopesAgree keys) := by
  constructor
  · rintro _ _ expression ⟨a, b, rfl, rfl, h⟩ hreads escape
    rw [interpolate, interpolate, h.lookup_eq (hne _ hreads) (hroots _ hreads)]
  · rintro _ _ expression ⟨a, b, rfl, rfl, h⟩ hreads policy kind
    exact h.blockScopes (hne _ hreads) (hroots _ hreads) policy kind

/-! ## Rendering -/

/-- The entries that a page reads of its data: the roots of its expressions, and of those of
all that it includes. -/
def Template.Roots (resolve : Resolver) (page : Template) (key : String) : Prop :=
  ∃ expression, page.Reads resolve expression ∧ rootOf expression = key

/-- A page reads what its own expressions read and those of the templates that it includes,
if these include nothing. -/
theorem Template.Reads.mem_of_leaf {resolve : Resolver} {page leaf : Template}
    (h : ∀ p ∈ page.inclusions, resolve p.2 = some leaf) (hnone : leaf.inclusions = [])
    {expression : String} (hreads : page.Reads resolve expression) :
    expression ∈ page.expressions ++ leaf.expressions := by
  cases hreads with
  | own hmem => exact List.mem_append_left _ hmem
  | included hreaches hresolve hmem =>
      have hown := hreaches.mem_of_leaves fun q hq => ⟨leaf, h q hq, hnone⟩
      rw [h _ hown] at hresolve
      cases hresolve
      exact List.mem_append_right _ hmem

/-- A template that shows the name and the position of an item. -/
def lineTemplate : Template :=
  ⟨⟨"line", .flat, [.interpolation ".index" true ⟨1, 1⟩, .interpolation "name.0" true ⟨1, 11⟩]⟩,
    Options.default⟩

/-- The resolver that knows this template alone. -/
def lineOnly : Resolver :=
  fun name => if name = "line" then some lineTemplate else none

/-- A page with the kind of an order, and with a line for each item, or else a note. -/
def orderPage : Template :=
  ⟨⟨"order", .structural,
    [.interpolation "kind" true ⟨1, 1⟩,
      .element "ol" [.dynamic "class" [.interpolation "kind" true ⟨1, 21⟩]]
        [.block .normal "items" [.inclusion "line" ⟨1, 42⟩] ⟨1, 31⟩,
          .block .inverted "items" [.interpolation "note text" true ⟨1, 69⟩] ⟨1, 59⟩]]⟩,
    { Options.default with target := .structural }⟩

/-- The data of an order, which belongs to a user. -/
def orderOf (user : Value) : Members :=
  [("items", .arr [.obj [("name", .str "pen")], .obj [("name", .str "ink")]]),
    ("kind", .str "open"), ("user", user)]

/-- A page without empty expressions whose chains of inclusions end renders, from some depth
on, to one and the same text and to one and the same entries for all objects that have the
same under the roots of what it reads. -/
theorem renders_alike_of_agree {resolve : Resolver} {page : Template}
    (hne : ∀ e, page.Reads resolve e → e ≠ "")
    (hsettles : ∀ p, Reaches resolve page p → Settles resolve p.2) :
    ∃ bound, ∀ depth, bound ≤ depth → ∀ a b : Members, Distinct a → Distinct b →
      (∀ key, page.Roots resolve key → get? a key = get? b key) →
      (∃ text, page.renderText resolve depth (.obj a) = some text
        ∧ page.renderText resolve depth (.obj b) = some text)
      ∧ ∃ list, page.renderNodes resolve depth (.obj a) = some list
        ∧ page.renderNodes resolve depth (.obj b) = some list := by
  have hbisim : Bisimulation (page.Reads resolve) (ScopesAgree (page.Roots resolve)) :=
    agree_bisimulation hne fun e he => ⟨e, he, rfl⟩
  obtain ⟨bound, hbound⟩ := hbisim.exists_bound hsettles
  exact ⟨bound, fun depth hdepth a b ha hb hsame =>
    hbound depth hdepth _ _ ⟨a, b, rfl, rfl, ha, hb, hsame⟩⟩

/-- An order is shown alike whoever it belongs to; an element prints as any object does. -/
theorem renders_alike_of_order :
    let data : Value := .obj (orderOf (.obj [("name", .str "Ada"), ("note", .num (.int 7))]))
    ∃ depth, orderPage.renderText lineOnly depth data = some "open[object Object]"
      ∧ orderPage.renderNodes lineOnly depth data
        = some [.text "open", .element "ol" [("class", "open")] [.text "0p", .text "1i"]] := by
  intro data
  have hleaf : ∀ p ∈ orderPage.inclusions, lineOnly p.2 = some lineTemplate := by
    intro p hp
    cases List.mem_singleton.mp hp
    rfl
  have hreads (e : String) (he : orderPage.Reads lineOnly e) : e ≠ "" ∧ rootOf e ≠ "user" := by
    have hall : ∀ e ∈ orderPage.expressions ++ lineTemplate.expressions,
        e ≠ "" ∧ rootOf e ≠ "user" := by
      decide +kernel
    exact hall e (he.mem_of_leaf hleaf rfl)
  have hsettles (p : Site × String) (hp : Reaches lineOnly orderPage p) : Settles lineOnly p.2 := by
    have hown := hp.mem_of_leaves fun q hq => ⟨lineTemplate, hleaf q hq, rfl⟩
    exact settles_of_leaf (hleaf p hown) rfl
  have hdistinct (user : Value) : Distinct (orderOf user) := by
    have hnames : ["items", "kind", "user"].Nodup := by decide
    exact hnames
  have hsame (user other : Value) (key : String) (hkey : orderPage.Roots lineOnly key) :
      get? (orderOf user) key = get? (orderOf other) key := by
    obtain ⟨e, he, rfl⟩ := hkey
    simp only [orderOf, get?, if_neg (hreads e he).2]
  obtain ⟨bound, hbound⟩ := renders_alike_of_agree (fun e he => (hreads e he).1) hsettles
  obtain ⟨⟨text, htext, hothertext⟩, list, hlist, hother⟩ :=
    hbound (bound + 1) (by omega) (orderOf .null)
      (orderOf (.obj [("name", .str "Ada"), ("note", .num (.int 7))])) (hdistinct _) (hdistinct _)
      (hsame _ _)
  have hprint : orderPage.renderText lineOnly (bound + 1) (.obj (orderOf .null))
      = some "open[object Object]" := by
    with_unfolding_all rfl
  have hrender : orderPage.renderNodes lineOnly (bound + 1) (.obj (orderOf .null))
      = some [.text "open", .element "ol" [("class", "open")] [.text "0p", .text "1i"]] := by
    with_unfolding_all rfl
  rw [hprint] at htext
  rw [hrender] at hlist
  cases htext
  cases hlist
  exact ⟨bound + 1, hothertext, hother⟩

end Mustache
