import Mustache.Proofs.Data.Layering

/-!
Sections that go down into data.

A section over a key shows what stands under the key, and the sections inside it over the same
key show what stands under the key in that. What they come to gets smaller only as long as
each element has the key of its own, for a scope hands down what an element lacks
(`block_scopes_layered`). Where each has (`Value.Descends`), the sections go no deeper than the
lists under the key nest (`Value.listDepth`); and other sections in between change nothing if
they show what has nothing under the key, or what is shown already. What a scope keeps of this
when an element is laid on top of it is `ListsWithin`, and `ListsWithin.elementScope` is the
step.
-/
set_option autoImplicit false

namespace Mustache

open Json NameMap Text

/-! ## What a section shows -/

/-- What a section shows of what is found under its expression: the items of an array, or the
value itself if it counts as true. -/
def shown : Option Value → List Value
  | none => []
  | some (.arr items) => items
  | some value => if value.truthy then [value] else []

/-- A section does not show the empty string that stands for what is missing or false. -/
theorem shown_settle (found : Option Value) : shown (settle false found) = shown found := by
  cases found with
  | none => rfl
  | some value =>
      cases value with
      | bool b => cases b <;> rfl
      | null | num _ | str _ | arr _ | obj _ => rfl

theorem elements_eq_shown (scope : Value) (expression : String) :
    elements scope expression = shown (lookup scope expression false) := by
  rw [elements]
  cases lookup scope expression false with
  | none => rfl
  | some value => cases value <;> rfl

/-! ## Values without a key -/

/-- Whether a value has nothing of its own under a key, and neither has anything in it, at any
depth. -/
inductive Json.Value.Lacks (key : String) : Value → Prop
  | null : Value.Lacks key .null
  | bool (b : Bool) : Value.Lacks key (.bool b)
  | num (n : Number) : Value.Lacks key (.num n)
  | str {s : String} (h : ownValue? (.str s) key = none) : Value.Lacks key (.str s)
  | arr {items : List Value} (h : ownValue? (.arr items) key = none)
      (hitems : ∀ item ∈ items, Value.Lacks key item) : Value.Lacks key (.arr items)
  | obj {members : Members} (h : ownValue? (.obj members) key = none)
      (hmembers : ∀ member ∈ members, Value.Lacks key member.2) : Value.Lacks key (.obj members)

theorem Json.Value.Lacks.ownValue?_eq_none {key : String} {value : Value}
    (h : value.Lacks key) : ownValue? value key = none := by
  cases h with
  | str h | arr h _ | obj h _ => exact h
  | null | bool _ | num _ => rfl

/-- A unit of a string has one unit, and so no place that the string does not have. -/
theorem lacks_unitValue {key s : String} (h : ownValue? (.str s) key = none) {unit : Char}
    (hunit : unit ∈ units s.toList) : (unitValue unit).Lacks key := by
  -- Halves of a surrogate pair read as the replacement character, so each unit is one again.
  have hbasic : unit.toNat < 0x10000 := by
    obtain ⟨c, -, hc⟩ := List.mem_flatMap.mp hunit
    rw [unitsOf] at hc
    split_ifs at hc with hlow
    · cases List.mem_singleton.mp hc
      exact hlow
    · rcases List.mem_cons.mp hc with rfl | hc
      · decide
      · cases List.mem_singleton.mp hc
        decide
  refine .str ?_
  rw [ownValue?, Option.bind_eq_none_iff] at h ⊢
  intro place hplace
  have hout : (units s.toList).length ≤ place := by
    rw [← List.getElem?_eq_none_iff]
    exact Option.map_eq_none_iff.mp (h place hplace)
  have hpos : 0 < (units s.toList).length := List.length_pos_of_mem hunit
  rw [String.toList_singleton, units, List.flatMap_singleton, unitsOf, if_pos hbasic,
    List.getElem?_eq_none (by rw [List.length_singleton]; omega)]
  rfl

theorem hereditary_lacks (key : String) : Hereditary (Value.Lacks key) := by
  refine ⟨.null, .num, fun {value} h held hheld => ?_⟩
  cases h with
  | obj _ hmembers =>
      obtain ⟨member, hmember, rfl⟩ := List.mem_map.mp hheld
      exact hmembers member hmember
  | arr _ hitems => exact hitems held hheld
  | str h =>
      obtain ⟨unit, hunit, rfl⟩ := List.mem_map.mp hheld
      exact lacks_unitValue h hunit
  | null | bool _ | num _ => cases hheld

/-- What is something's own entry passes to what it has under a name. -/
theorem Hereditary.of_ownValue? {P : Value → Prop} (hP : Hereditary P) {value : Value}
    (h : P value) {name : String} {found : Value} (hfound : ownValue? value name = some found) :
    P found := by
  rw [← get?_entries] at hfound
  exact hP.of_mem_entries h _ (mem_of_get? hfound)

theorem lacks_of_mem_shown {key : String} {found : Option Value}
    (h : ∀ value ∈ found, value.Lacks key) {element : Value} (helement : element ∈ shown found) :
    element.Lacks key := by
  cases found with
  | none => cases helement
  | some value =>
      have hvalue : value.Lacks key := h value rfl
      have hself (hmem : element ∈ (if value.truthy then [value] else [])) :
          element.Lacks key := by
        split_ifs at hmem
        · cases List.mem_singleton.mp hmem
          exact hvalue
        · cases hmem
      cases value with
      | arr items => exact (hereditary_lacks key).contents hvalue element helement
      | null | bool _ | num _ | str _ | obj _ => exact hself helement

/-! ## Lists that nest -/

/-- Whether in an object, and in all that the sections over a key come to from there, each
element that they show has the key of its own, and nothing under some other keys has it. -/
inductive Json.Value.Descends (key : String) (keys : String → Prop) : Value → Prop
  | obj {members : Members}
      (apart : ∀ k, keys k → ∀ value ∈ get? members k, value.Lacks key)
      (own : ∀ element ∈ shown (get? members key), (ownValue? element key).isSome)
      (below : ∀ element ∈ shown (get? members key), Value.Descends key keys element) :
      Value.Descends key keys (.obj members)

mutual

/-- How deep the lists under a key nest in a value. -/
def Json.Value.listDepth (key : String) : Value → Nat
  | .obj members => listDepthOfMembers key members
  | .null | .bool _ | .num _ | .str _ | .arr _ => 0

/-- How deep they nest in an object. -/
def listDepthOfMembers (key : String) : List (String × Value) → Nat
  | [] => 0
  | (name, value) :: rest =>
      if key = name then value.shownDepth key else listDepthOfMembers key rest

/-- How deep they nest in what a section shows of a value, which is one of them. -/
def Json.Value.shownDepth (key : String) : Value → Nat
  | .arr items => shownDepthOfItems key items
  | .obj members => listDepthOfMembers key members + 1
  | value => if value.truthy then 1 else 0

/-- How deep they nest in the items of an array, which is one of them. -/
def shownDepthOfItems (key : String) : List Value → Nat
  | [] => 0
  | item :: rest => max (item.listDepth key + 1) (shownDepthOfItems key rest)

end

theorem listDepthOfMembers_eq (key : String) (members : Members) :
    listDepthOfMembers key members
      = ((get? members key).map (Value.shownDepth key)).getD 0 := by
  induction members with
  | nil => rfl
  | cons member rest ih =>
      obtain ⟨name, value⟩ := member
      rw [listDepthOfMembers, get?]
      split_ifs
      · rfl
      · exact ih

/-- The lists under a key nest less deep in what a section shows than in where it shows it. -/
theorem listDepth_lt_of_mem_shown {key : String} {members : Members} {element : Value}
    (h : element ∈ shown (get? members key)) :
    element.listDepth key < (Value.obj members).listDepth key := by
  have hitems (items : List Value) (hmem : element ∈ items) :
      element.listDepth key < shownDepthOfItems key items := by
    induction items with
    | nil => cases hmem
    | cons item rest ih =>
        rw [shownDepthOfItems]
        rcases List.mem_cons.mp hmem with rfl | hrest
        · omega
        · have hless := ih hrest
          omega
  rw [Value.listDepth, listDepthOfMembers_eq]
  cases hfound : get? members key with
  | none =>
      rw [hfound] at h
      cases h
  | some value =>
      rw [hfound] at h
      rw [Option.map_some, Option.getD_some]
      -- Only an object counts for more than itself among what is no array.
      have hself (hmem : element ∈ (if value.truthy then [value] else []))
          (hdepth : value.shownDepth key = value.listDepth key + if value.truthy then 1 else 0) :
          element.listDepth key < value.shownDepth key := by
        split_ifs at hmem with htruthy
        · cases List.mem_singleton.mp hmem
          rw [hdepth, if_pos htruthy]
          omega
        · cases hmem
      cases value with
      | arr items => exact hitems items h
      | obj members => exact hself h rfl
      | null | bool _ | num _ | str _ => exact hself h (Nat.zero_add _).symm

/-! ## Scopes -/

/-- Whether the sections over a key go within a depth down from a value: into what has the key
of its own throughout, past what lacks it or, where they show the element itself again, past
what goes down as deep. -/
structure ListsWithin (key : String) (keys : String → Prop) (depth : Nat) (value : Value) :
    Prop where
  ordered : value.Ordered
  own : ∀ element ∈ shown (ownValue? value key), (ownValue? element key).isSome
    ∧ element.Descends key keys ∧ element.listDepth key < depth
  apart : ∀ k, keys k → k ≠ "." → ∀ inner ∈ ownValue? value k, inner.Lacks key
  current : keys "." → ((ownValue? value ".").getD value).Lacks key
    ∨ ((ownValue? value ".").getD value).Descends key keys
      ∧ ((ownValue? value ".").getD value).listDepth key ≤ depth

section

variable {key : String} {keys : String → Prop} {depth : Nat}

/-- From what lacks the key they go nowhere. -/
theorem listsWithin_of_lacks {value : Value} (hordered : value.Ordered) (h : value.Lacks key) :
    ListsWithin key keys depth value := by
  refine ⟨hordered, fun element helement => ?_, fun k _ _ inner hinner => ?_, fun _ => .inl ?_⟩
  · rw [h.ownValue?_eq_none] at helement
    cases helement
  · exact (hereditary_lacks key).of_ownValue? h hinner
  · cases hdot : ownValue? value "." with
    | none => exact h
    | some inner => exact (hereditary_lacks key).of_ownValue? h hdot

/-- From what has the key throughout they go as deep as its lists nest. -/
theorem listsWithin_of_descends {value : Value} (hordered : value.Ordered)
    (h : value.Descends key keys) (hdepth : value.listDepth key ≤ depth) :
    ListsWithin key keys depth value := by
  cases h with
  | @obj members apart own below =>
      have hdescends : (Value.obj members).Descends key keys := .obj apart own below
      refine ⟨hordered, fun element helement => ⟨own element helement, below element helement, ?_⟩,
        fun k hk _ inner hinner => apart k hk inner hinner, fun hdot => ?_⟩
      · exact (listDepth_lt_of_mem_shown helement).trans_le hdepth
      · cases hfound : ownValue? (.obj members) "." with
        | none => exact .inr ⟨hdescends, hdepth⟩
        | some inner => exact .inl (apart "." hdot inner hfound)

/-- From what a section shows of something of either kind they go no deeper. -/
theorem listsWithin_of_mem_shown {inner element : Value} (hordered : element.Ordered)
    (h : inner.Lacks key ∨ inner.Descends key keys ∧ inner.listDepth key ≤ depth)
    (helement : element ∈ shown (some inner)) : ListsWithin key keys depth element := by
  rcases h with hlacks | ⟨hdescends, hdepth⟩
  · refine listsWithin_of_lacks hordered (lacks_of_mem_shown ?_ helement)
    rintro value ⟨⟩
    exact hlacks
  · cases hdescends with
    | @obj members apart own below =>
        cases List.mem_singleton.mp helement
        exact listsWithin_of_descends hordered (.obj apart own below) hdepth

/-- A section binds nothing under a name without a dot. -/
theorem binding?_eq_none (element : Value) (index count : Nat) {name : String}
    (h : '.' ∉ name.toList) : binding? element index count name = none := by
  have hne (bound : String) (hbound : '.' ∈ bound.toList) : name ≠ bound := by
    rintro rfl
    exact h hbound
  rw [binding?, if_neg (hne _ (by decide)), if_neg (hne _ (by decide)),
    if_neg (hne _ (by decide))]

/-- A section binds numbers alone under names other than the dot. -/
theorem binding?_eq (element : Value) (index count : Nat) {name : String} (h : name ≠ ".") :
    binding? element index count name = none
      ∨ ∃ n, binding? element index count name = some (.num n) := by
  rw [binding?, if_neg h]
  split_ifs
  · exact .inr ⟨_, rfl⟩
  · exact .inr ⟨_, rfl⟩
  · exact .inl rfl

/-- An element laid on top of a scope leaves the sections as deep as they go from the element,
if it has the key of its own or they go no deeper from the scope. -/
theorem ListsWithin.elementScope {scope element : Value} {less : Nat}
    (h : ListsWithin key keys depth scope) (helement : ListsWithin key keys less element)
    (hkey : '.' ∉ key.toList) (hless : ownValue? element key = none → depth ≤ less)
    (index count : Nat) :
    ListsWithin key keys less (elementScope scope element index count) := by
  obtain ⟨members, hscope, hget⟩ := get?_elementScope h.ordered helement.ordered index count
  have hordered := h.ordered.scope helement.ordered index count
  rw [hscope] at hordered ⊢
  refine ⟨hordered, ?_, fun k hk hdot inner hinner => ?_, fun hdot => ?_⟩
  · -- The key is found in the element itself, or else in the scope around, and then no deeper than
    -- the element may go.
    rw [ownValue?, hget, binding?_eq_none element index count hkey, Option.none_or]
    cases hfound : ownValue? element key with
    | some found =>
        have hown := helement.own
        rw [hfound] at hown
        exact hown
    | none =>
        intro inner hinner
        obtain ⟨hsome, hdescends, hdepth⟩ := h.own inner hinner
        exact ⟨hsome, hdescends, hdepth.trans_le (hless hfound)⟩
  · rw [ownValue?, hget] at hinner
    cases hfound : ownValue? element k with
    | some found =>
        rw [hfound] at hinner
        exact helement.apart k hk hdot inner (hfound.trans hinner)
    | none =>
        rw [hfound, Option.none_or] at hinner
        rcases binding?_eq element index count hdot with hnone | ⟨n, hnum⟩
        · rw [hnone, Option.none_or] at hinner
          exact h.apart k hk hdot inner hinner
        · rw [hnum] at hinner
          cases hinner
          exact .num n
  · -- Under the dot stands what the element has there of its own, or the element.
    have hfound : ownValue? (.obj members) "." = some ((ownValue? element ".").getD element) := by
      rw [ownValue?, hget, binding?, if_pos rfl]
      cases ownValue? element "." <;> rfl
    rw [hfound]
    exact helement.current hdot

end

end Mustache
