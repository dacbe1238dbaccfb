import Mustache.Proofs.Data.Order

/-!
The layers of a scope.

The scope of an element is three layers on top of each other: the entries of its parent, what
the section binds, and the entries of the element. What stands under a name is what the
topmost layer has there that has anything (`get?_elementScope`). An inverted section copies
the lowest layer alone, and the copy of an object is the object. So a name means in a block
what the data around it and the element say, and nothing else (`block_scopes_layered`); since
the scopes are in order like the data, the same holds of the blocks inside.
-/
set_option autoImplicit false

namespace Mustache

open Json NameMap Text

/-! ## Entries by name -/

/-- The place that a name is the numeral of. -/
def placeOf? (name : String) : Option Nat :=
  let place := digitsValue name.toList
  if name.toList = decimal place then some place else none

/-- What a value has of its own under a name: a member of an object, and what stands at the
place of that name in an array or, by its UTF-16 units, in a string. -/
def ownValue? (value : Value) (name : String) : Option Value :=
  match value with
  | .obj members => get? members name
  | .arr items => (placeOf? name).bind (items[·]?)
  | .str s => (placeOf? name).bind fun place => (units s.toList)[place]?.map unitValue
  | .null | .bool _ | .num _ => none

/-- What a section binds under a name for an element. -/
def binding? (element : Value) (index count : Nat) (name : String) : Option Value :=
  if name = "." then some element
  else if name = ".index" then some (.ofNat index)
  else if name = ".length" then some (.ofNat count)
  else none

theorem placeOf?_eq_some_iff {name : String} {place : Nat} :
    placeOf? name = some place ↔ name = String.ofList (decimal place) := by
  constructor
  · intro h
    simp only [placeOf?] at h
    split_ifs at h with hname
    cases h
    rw [← hname, String.ofList_toList]
  · rintro rfl
    simp only [placeOf?, String.toList_ofList, digitsValue_decimal, if_true]

/-- Things under numerals are found at the places that the names are numerals of. -/
theorem get?_numbered_zero (things : List Value) (name : String) :
    get? (numbered 0 things) name = (placeOf? name).bind (things[·]?) := by
  cases hplace : placeOf? name with
  | some place =>
      rw [placeOf?_eq_some_iff.mp hplace]
      exact (congrArg (get? (numbered 0 things) <| String.ofList <| decimal ·)
        (Nat.zero_add place)).symm.trans (get?_numbered 0 place things)
  | none =>
      refine get?_numbered_eq_none fun i _ hname => ?_
      rw [Nat.zero_add] at hname
      have hsome := placeOf?_eq_some_iff.mpr (String.toList_inj.mp
        (hname.trans String.toList_ofList.symm))
      rw [hplace] at hsome
      cases hsome

/-- The names of things from a place on are the numerals of later places. -/
theorem mem_names_numbered {first : Nat} {things : List Value} {name : String}
    (h : name ∈ (numbered first things).map Prod.fst) :
    ∃ place, first ≤ place ∧ name = String.ofList (decimal place) := by
  induction things generalizing first with
  | nil => cases h
  | cons thing rest ih =>
      rcases List.mem_cons.mp h with rfl | hrest
      · exact ⟨first, le_refl first, rfl⟩
      · obtain ⟨place, hplace, rfl⟩ := ih hrest
        exact ⟨place, by omega, rfl⟩

theorem distinct_numbered (first : Nat) (things : List Value) :
    Distinct (numbered first things) := by
  induction things generalizing first with
  | nil => exact List.nodup_nil
  | cons thing rest ih =>
      refine List.nodup_cons.mpr ⟨fun hmem => ?_, ih (first + 1)⟩
      obtain ⟨place, hplace, hname⟩ := mem_names_numbered hmem
      have hnumber := ofList_decimal_injective hname
      omega

/-- The entries of a value in order have different names. -/
theorem Json.Value.Ordered.distinct_entries {value : Value} (h : value.Ordered) :
    Distinct (entries value) := by
  cases value with
  | obj members => exact h.members.distinct
  | arr items => exact distinct_numbered 0 items
  | str s => exact distinct_numbered 0 _
  | null | bool _ | num _ => exact List.nodup_nil

/-- What stands under a name among the entries of a value. -/
theorem get?_entries (value : Value) (name : String) :
    get? (entries value) name = ownValue? value name := by
  cases value with
  | obj members => rfl
  | arr items => exact get?_numbered_zero items name
  | str s =>
      rw [entries, get?_numbered_zero, ownValue?]
      exact congrArg (Option.bind _) (funext fun _ => List.getElem?_map)
  | null | bool _ | num _ => rfl

/-! ## Layers -/

/-- Entries on top of members come first. -/
theorem get?_overlay {value : Value} (h : value.Ordered) (members : Members) (name : String) :
    get? (overlay members value) name = (ownValue? value name).or (get? members name) := by
  rw [overlay, get?_insertAll h.distinct_entries, get?_entries]

theorem get?_copy {value : Value} (h : value.Ordered) (name : String) :
    get? (overlay [] value) name = ownValue? value name := by
  rw [get?_overlay h, get?_nil, Option.or_none]

/-- What a section binds comes before the members that it is bound on top of. -/
theorem get?_insertAll_elementBindings (members : Members) (element : Value) (index count : Nat)
    (name : String) :
    get? (insertAll members (elementBindings element index count)) name
      = (binding? element index count name).or (get? members name) := by
  have hnames : Distinct (elementBindings element index count) := by
    have hnodup : [".", ".index", ".length"].Nodup := by decide
    exact hnodup
  rw [get?_insertAll hnames, elementBindings, binding?]
  simp only [get?]

/-- In the scope of an element, a name stands for what the element has of its own, else for
what the section binds, and else for what the parent has. -/
theorem get?_elementScope {parent element : Value} (h : parent.Ordered)
    (helement : element.Ordered) (index count : Nat) :
    ∃ members, elementScope parent element index count = .obj members ∧ ∀ name,
      get? members name = (ownValue? element name).or
        ((binding? element index count name).or (ownValue? parent name)) := by
  refine ⟨_, rfl, fun name => ?_⟩
  rw [get?_overlay helement, get?_insertAll_elementBindings, get?_copy h]

/-! ## Scopes of blocks -/

/-- Items with entries under names that a section binds or that the data around them have. -/
def collidingItems : List Value :=
  [.str "ab", .obj [(".index", .str "own"), ("name", .null)]]

/-- An object that has some names in common with its items. -/
def collidingData : Value :=
  .obj [("0", .str "first"), ("items", .arr collidingItems), ("name", .str "outer")]

theorem ordered_collidingData : collidingData.Ordered := by
  decide +kernel

/-- For data in order, a section has one scope for each element, in order. Under each name the
scope has what the element has of its own, else what the section binds, and else what the
parent has of its own. The one scope of an inverted section that is shown has what the parent
has of its own, and if the parent is an object, every expression finds in it what it finds in
the parent. All these scopes are in order again. -/
theorem block_scopes_layered {parent : Value} (h : parent.Ordered) (expression : String) :
    (sectionScopes parent expression).length = (elements parent expression).length
      ∧ (∀ index element, (elements parent expression)[index]? = some element →
        ∃ members, (sectionScopes parent expression)[index]? = some (.obj members)
          ∧ (Value.obj members).Ordered
          ∧ ∀ name, get? members name = (ownValue? element name).or
            ((binding? element index (elements parent expression).length name).or
              (ownValue? parent name)))
      ∧ ∀ policy, isHidden policy (lookup parent expression false) = false →
        ∃ members, invertedScopes policy parent expression = [.obj members]
          ∧ (Value.obj members).Ordered
          ∧ (∀ name, get? members name = ownValue? parent name)
          ∧ ((∃ own, parent = .obj own) → ∀ other escape,
            lookup (.obj members) other escape = lookup parent other escape) := by
  refine ⟨?_, fun index element helement => ?_, fun policy hshown => ?_⟩
  · rw [sectionScopes, elementScopesFrom_eq, List.length_mapIdx]
  · have hordered : element.Ordered := h.of_mem_elements element (List.mem_of_getElem? helement)
    obtain ⟨members, hscope, hget⟩ :=
      get?_elementScope h hordered index (elements parent expression).length
    refine ⟨members, ?_, ?_, hget⟩
    · rw [sectionScopes, elementScopesFrom_eq, List.getElem?_mapIdx, helement, ← hscope,
        Option.map_some, Nat.zero_add]
    · rw [← hscope]
      exact h.scope hordered index _
  · -- The scope of an inverted section is the copy of its parent.
    refine ⟨overlay [] parent, ?_, h.copy, get?_copy h, ?_⟩
    · rw [invertedScopes, hshown]
      rfl
    · rintro ⟨own, rfl⟩ other escape
      rw [overlay_nil_obj h.members]

/-- The units of a string and the members of an object hide what the parent has, null too. -/
theorem block_scopes_layered_of_collisions :
    ∃ first second, sectionScopes collidingData "items" = [.obj first, .obj second]
      ∧ get? first "0" = some (.str "a") ∧ get? first "name" = some (.str "outer")
      ∧ get? second "0" = some (.str "first") ∧ get? second "name" = some .null
      ∧ get? second ".index" = some (.str "own")
      ∧ get? second ".length" = some (.num (.int 2)) := by
  obtain ⟨hlength, hscopes, -⟩ := block_scopes_layered ordered_collidingData "items"
  have helements : elements collidingData "items" = collidingItems := rfl
  obtain ⟨first, hfirst, -, hget⟩ := hscopes 0 (.str "ab") rfl
  obtain ⟨second, hsecond, -, hget'⟩ :=
    hscopes 1 (.obj [(".index", .str "own"), ("name", .null)]) rfl
  have hplaces : placeOf? "0" = some 0 ∧ placeOf? "name" = none := by decide +kernel
  rw [helements] at hlength hget hget'
  refine ⟨first, second, ?_, ?_, ?_, hget' "0", hget' "name", hget' ".index", hget' ".length"⟩
  · refine List.ext_getElem? fun index => ?_
    match index with
    | 0 => exact hfirst
    | 1 => exact hsecond
    | index + 2 => exact List.getElem?_eq_none (by simp [hlength, collidingItems])
  · -- A string has its letters under their places.
    rw [hget, ownValue?, hplaces.1]
    rfl
  · rw [hget, ownValue?, hplaces.2]
    rfl

end Mustache
