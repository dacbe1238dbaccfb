import Mustache.Json.Reader
import Mustache.Proofs.Data.Merging

/-!
Data in order.

A value is in order if every object in it, at any depth, has its members in the order of
their names, each name once, so that the object is what stands under its names. Every value
that is read is in order (`ordered_of_read?`): the reader goes from token to token, and what it
holds is in order all the way, since a member is set at the place that the order gives it.
What is looked up in a value in order is in order, and so are the scopes that a block makes of
it (`Ordered.of_mem_blockScopes`).
-/
set_option autoImplicit false

namespace Mustache

namespace Json

/-- Whether the members of every object in a value are in the order of their names. -/
inductive Value.Ordered : Value → Prop
  | null : Value.Ordered .null
  | bool (b : Bool) : Value.Ordered (.bool b)
  | num (n : Number) : Value.Ordered (.num n)
  | str (s : String) : Value.Ordered (.str s)
  | arr {items : List Value} (h : ∀ item ∈ items, Value.Ordered item) : Value.Ordered (.arr items)
  | obj {members : Members} (h : NameMap.Ordered members)
      (hmembers : ∀ member ∈ members, Value.Ordered member.2) : Value.Ordered (.obj members)

namespace Value

theorem Ordered.of_mem {items : List Value} (h : (Value.arr items).Ordered) :
    ∀ item ∈ items, item.Ordered := by
  cases h with
  | arr h => exact h

theorem Ordered.members {members : Members} (h : (Value.obj members).Ordered) :
    NameMap.Ordered members := by
  cases h with
  | obj h _ => exact h

theorem Ordered.of_member {members : Members} (h : (Value.obj members).Ordered) :
    ∀ member ∈ members, member.2.Ordered := by
  cases h with
  | obj _ hmembers => exact hmembers

theorem ordered_empty : (Value.obj []).Ordered :=
  .obj NameMap.ordered_nil fun _ hmember => absurd hmember List.not_mem_nil

theorem Ordered.insert {members : Members} (h : (Value.obj members).Ordered) (name : String)
    {value : Value} (hvalue : value.Ordered) :
    (Value.obj (NameMap.insert name value members)).Ordered := by
  refine .obj (NameMap.ordered_insert h.members name value) fun member hmember => ?_
  rcases NameMap.mem_insert hmember with rfl | hbefore
  · exact hvalue
  · exact h.of_member member hbefore

theorem Ordered.insertAll {members : Members} (h : (Value.obj members).Ordered)
    {news : List (String × Value)} (hnews : ∀ entry ∈ news, entry.2.Ordered) :
    (Value.obj (NameMap.insertAll members news)).Ordered := by
  induction news generalizing members with
  | nil => exact h
  | cons entry rest ih =>
      exact ih (h.insert entry.1 (hnews entry List.mem_cons_self))
        fun other hother => hnews other (List.mem_cons_of_mem entry hother)

end Value

mutual

/-- Whether a value is in order, found by looking at all that is in it. -/
def Value.isOrdered : Value → Bool
  | .null | .bool _ | .num _ | .str _ => true
  | .arr items => itemsAreOrdered items
  | .obj members => decide (NameMap.Ordered members) && membersAreOrdered members

/-- Whether the items of an array are all in order. -/
def itemsAreOrdered : List Value → Bool
  | [] => true
  | item :: rest => item.isOrdered && itemsAreOrdered rest

/-- Whether the values of members are all in order. -/
def membersAreOrdered : List (String × Value) → Bool
  | [] => true
  | (_, value) :: rest => value.isOrdered && membersAreOrdered rest

end

mutual

/-- Looking finds what is in order. -/
theorem Value.isOrdered_iff (value : Value) : value.isOrdered = true ↔ value.Ordered := by
  cases value with
  | null => exact ⟨fun _ => .null, fun _ => rfl⟩
  | bool b => exact ⟨fun _ => .bool b, fun _ => rfl⟩
  | num n => exact ⟨fun _ => .num n, fun _ => rfl⟩
  | str s => exact ⟨fun _ => .str s, fun _ => rfl⟩
  | arr items =>
      rw [Value.isOrdered, itemsAreOrdered_iff]
      exact ⟨.arr, Value.Ordered.of_mem⟩
  | obj members =>
      rw [Value.isOrdered, Bool.and_eq_true, decide_eq_true_iff, membersAreOrdered_iff]
      exact ⟨fun h => .obj h.1 h.2, fun h => ⟨h.members, h.of_member⟩⟩

theorem itemsAreOrdered_iff (items : List Value) :
    itemsAreOrdered items = true ↔ ∀ item ∈ items, item.Ordered := by
  cases items with
  | nil => exact ⟨fun _ _ hitem => absurd hitem List.not_mem_nil, fun _ => rfl⟩
  | cons item rest =>
      rw [itemsAreOrdered, Bool.and_eq_true, item.isOrdered_iff, itemsAreOrdered_iff rest,
        List.forall_mem_cons]

theorem membersAreOrdered_iff (members : List (String × Value)) :
    membersAreOrdered members = true ↔ ∀ member ∈ members, member.2.Ordered := by
  cases members with
  | nil => exact ⟨fun _ _ hmember => absurd hmember List.not_mem_nil, fun _ => rfl⟩
  | cons member rest =>
      obtain ⟨name, value⟩ := member
      rw [membersAreOrdered, Bool.and_eq_true, value.isOrdered_iff, membersAreOrdered_iff rest,
        List.forall_mem_cons]

end

instance : DecidablePred Value.Ordered :=
  fun value => decidable_of_iff _ value.isOrdered_iff

/-! ## Reading -/

/-- Whether what an open container holds so far is in order. -/
def Frame.Ordered : Frame → Prop
  | .array items => ∀ item ∈ items, item.Ordered
  | .object members _ => (Value.obj members).Ordered

/-- Whether the members of the object that goes on, or the result, are in order. -/
def Expectation.Ordered : Expectation → Prop
  | .value | .firstItem | .colon | .afterItem => True
  | .firstName members | .name members | .afterMember members => (Value.obj members).Ordered
  | .nothing result => result.Ordered

/-- Whether all that a reader holds is in order. -/
structure Progress.Ordered (p : Progress) : Prop where
  frames : ∀ frame ∈ p.frames, frame.Ordered
  expectation : p.expectation.Ordered

namespace Progress

variable {frames : List Frame}

/-- A finished value in order leaves a reader in order. -/
theorem ordered_put (hframes : ∀ frame ∈ frames, frame.Ordered) {value : Value}
    (hvalue : value.Ordered) : (put frames value).Ordered := by
  cases frames with
  | nil => exact ⟨hframes, hvalue⟩
  | cons frame rest =>
      obtain ⟨hframe, hrest⟩ := List.forall_mem_cons.mp hframes
      cases frame with
      | array items =>
          have hitems : ∀ item ∈ value :: items, item.Ordered :=
            List.forall_mem_cons.mpr ⟨hvalue, hframe⟩
          exact ⟨List.forall_mem_cons.mpr ⟨hitems, hrest⟩, trivial⟩
      | object members name => exact ⟨hrest, Value.Ordered.insert hframe name hvalue⟩

/-- The start of a value leaves a reader in order. -/
theorem ordered_begin (hframes : ∀ frame ∈ frames, frame.Ordered) {token : Token} {p : Progress}
    (h : begin frames token = some p) : p.Ordered := by
  cases token with
  -- A scalar fills the place that waits for it; an opened container waits on top of the frames.
  | null =>
      cases h
      exact ordered_put hframes .null
  | bool b =>
      cases h
      exact ordered_put hframes (.bool b)
  | number negative whole numeral =>
      obtain ⟨n, -, rfl⟩ := Option.map_eq_some_iff.mp h
      exact ordered_put hframes (.num n)
  | string units =>
      obtain ⟨s, -, rfl⟩ := Option.map_eq_some_iff.mp h
      exact ordered_put hframes (.str s)
  | openArray =>
      cases h
      have hitems : (Frame.array []).Ordered := fun _ hitem => absurd hitem List.not_mem_nil
      exact ⟨List.forall_mem_cons.mpr ⟨hitems, hframes⟩, trivial⟩
  | openObject =>
      cases h
      exact ⟨hframes, Value.ordered_empty⟩
  | closeArray | closeObject | comma | colon | brokenString _ _ | brokenNumber _ | fault _ =>
      cases h

theorem ordered_endArray (hframes : ∀ frame ∈ frames, frame.Ordered) {p : Progress}
    (h : endArray frames = some p) : p.Ordered := by
  cases frames with
  | nil => cases h
  | cons frame rest =>
      obtain ⟨hframe, hrest⟩ := List.forall_mem_cons.mp hframes
      cases frame with
      | array items =>
          -- The items were kept the latest first.
          cases h
          exact ordered_put hrest (.arr fun item hitem => hframe item (List.mem_reverse.mp hitem))
      | object members name => cases h

/-- A token leaves a reader in order. -/
theorem Ordered.step {p p' : Progress} (hp : p.Ordered) {token : Token}
    (h : p.step token = some p') : p'.Ordered := by
  obtain ⟨frames, expectation⟩ := p
  obtain ⟨hframes, hexpectation⟩ := hp
  -- The name of a member opens a frame with the members before it.
  have hname {members : Members} (hmembers : (Value.obj members).Ordered) {units : List Nat}
      (h : (stringText units).toOption.map (fun s => Progress.mk (.object members s :: frames)
        .colon) = some p') : p'.Ordered := by
    obtain ⟨s, -, rfl⟩ := Option.map_eq_some_iff.mp h
    exact ⟨List.forall_mem_cons.mpr ⟨hmembers, hframes⟩, trivial⟩
  cases expectation with
  | value => exact ordered_begin hframes h
  | firstItem =>
      have hnext : endArray frames = some p' ∨ begin frames token = some p' := by
        cases token with
        | closeArray => exact .inl h
        | _ => exact .inr h
      exact hnext.elim (ordered_endArray hframes) (ordered_begin hframes)
  | firstName members =>
      cases token with
      | string units => exact hname hexpectation h
      | closeObject =>
          cases h
          exact ordered_put hframes hexpectation
      | _ => cases h
  | name members =>
      cases token with
      | string units => exact hname hexpectation h
      | _ => cases h
  | colon =>
      cases token with
      | colon =>
          cases h
          exact ⟨hframes, trivial⟩
      | _ => cases h
  | afterItem =>
      cases token with
      | comma =>
          cases h
          exact ⟨hframes, trivial⟩
      | closeArray => exact ordered_endArray hframes h
      | _ => cases h
  | afterMember members =>
      cases token with
      | comma =>
          cases h
          exact ⟨hframes, hexpectation⟩
      | closeObject =>
          cases h
          exact ordered_put hframes hexpectation
      | _ => cases h
  | nothing result => cases token <;> cases h

/-- A row of tokens leaves a reader in order. -/
theorem Ordered.run {p p' : Progress} (hp : p.Ordered) {ts : List Token}
    (h : ts.foldlM Progress.step p = some p') : p'.Ordered := by
  induction ts generalizing p with
  | nil =>
      cases h
      exact hp
  | cons token rest ih =>
      obtain ⟨next, hstep, hrest⟩ := Option.bind_eq_some_iff.mp h
      exact ih (hp.step hstep) hrest

end Progress

theorem ordered_of_read? {s : List Char} {value : Value} (h : read? s = some value) :
    value.Ordered := by
  rw [read?] at h
  split at h
  · rename_i frames result hresult
    cases h
    have hstart : Progress.Ordered ⟨[], .value⟩ :=
      ⟨fun _ hframe => absurd hframe List.not_mem_nil, trivial⟩
    exact (hstart.run hresult).expectation
  · cases h

end Json

open Json NameMap Text

/-! ## Looking up -/

/-- What a value holds: its members, its items, or its UTF-16 units. -/
def Json.Value.contents : Value → List Value
  | .obj members => members.map Prod.snd
  | .arr items => items
  | .str s => (units s.toList).map unitValue
  | .null | .bool _ | .num _ => []

/-- Whether something that is true of null and of the numbers passes from a value to what the
value holds. -/
structure Hereditary (P : Value → Prop) : Prop where
  null : P .null
  num : ∀ n, P (.num n)
  contents : ∀ {value}, P value → ∀ held ∈ value.contents, P held

namespace Hereditary

variable {P : Value → Prop}

theorem of_property? (hP : Hereditary P) {value : Value} (h : P value) (key : String)
    {found : Value} (hfound : property? value key = some found) : P found := by
  -- What has a place is held, or else is the length, which is a number.
  have hindexed {things : List Value} (hthings : ∀ thing ∈ things, P thing)
      (hfound : indexed? things key = some found) : P found := by
    rw [indexed?] at hfound
    split_ifs at hfound
    · cases hfound
      exact hP.num _
    · obtain ⟨i, -, hitem⟩ := Option.bind_eq_some_iff.mp hfound
      exact hthings found (List.mem_of_getElem? hitem)
  cases value with
  | obj members =>
      exact hP.contents h found (List.mem_map_of_mem (mem_of_get? hfound))
  | arr items => exact hindexed (hP.contents h) hfound
  | str s => exact hindexed (hP.contents h) hfound
  | null | bool _ | num _ => cases hfound

/-- It passes to where the steps of a walk lead. -/
theorem of_steps (hP : Hereditary P) {current : Option Value} (h : ∀ value ∈ current, P value)
    (keys : List String) : ∀ found ∈ keys.foldl walkStep current, P found := by
  induction keys generalizing current with
  | nil => exact h
  | cons key rest ih =>
      refine ih fun found hfound => ?_
      cases current with
      | none => cases hfound
      | some value =>
          cases value with
          | null =>
              cases hfound
              exact hP.null
          | bool _ | num _ | str _ | arr _ | obj _ => exact hP.of_property? (h _ rfl) key hfound

/-- It passes to entries. -/
theorem of_mem_entries (hP : Hereditary P) {value : Value} (h : P value) :
    ∀ entry ∈ entries value, P entry.2 := by
  have hnumbered (first : Nat) (things : List Value) (hthings : ∀ thing ∈ things, P thing) :
      ∀ entry ∈ numbered first things, P entry.2 := by
    induction things generalizing first with
    | nil => exact fun _ hentry => absurd hentry List.not_mem_nil
    | cons thing rest ih =>
        obtain ⟨hthing, hrest⟩ := List.forall_mem_cons.mp hthings
        exact List.forall_mem_cons.mpr ⟨hthing, ih (first + 1) hrest⟩
  cases value with
  | obj members =>
      exact fun entry hentry => hP.contents h entry.2 (List.mem_map_of_mem hentry)
  | arr items => exact hnumbered 0 items (hP.contents h)
  | str s => exact hnumbered 0 _ (hP.contents h)
  | null | bool _ | num _ => exact fun _ hentry => absurd hentry List.not_mem_nil

end Hereditary

theorem hereditary_ordered : Hereditary Value.Ordered := by
  refine ⟨.null, .num, fun {value} h held hheld => ?_⟩
  cases value with
  | obj members =>
      obtain ⟨member, hmember, rfl⟩ := List.mem_map.mp hheld
      exact h.of_member member hmember
  | arr items => exact h.of_mem held hheld
  | str s =>
      obtain ⟨unit, -, rfl⟩ := List.mem_map.mp hheld
      exact .str _
  | null | bool _ | num _ => cases hheld

/-- A path leads to a value in order. -/
theorem Json.Value.Ordered.of_walk {scope : Value} (h : scope.Ordered) {keys : List String}
    {found : Value} (hfound : walk scope keys = some found) : found.Ordered := by
  have hstart : ∀ value ∈ some scope, value.Ordered := by
    rintro value ⟨⟩
    exact h
  exact hereditary_ordered.of_steps hstart keys found hfound

theorem Json.Value.Ordered.of_lookup {scope : Value} (h : scope.Ordered) {expression : String}
    {escape : Bool} {found : Value} (hfound : lookup scope expression escape = some found) :
    found.Ordered := by
  rw [lookup] at hfound
  split at hfound
  · cases hfound
    exact h
  · exact hereditary_ordered.of_property? h expression hfound
  · -- What a path leads to is part of the scope; settling replaces it by a string or keeps it.
    cases hwalk : walk scope (pathKeys expression) with
    | none =>
        rw [hwalk] at hfound
        cases hfound
        exact .str _
    | some value =>
        rw [hwalk] at hfound
        have hvalue := h.of_walk hwalk
        cases value with
        | str s =>
            cases hfound
            exact .str _
        | num n =>
            cases hfound
            exact hvalue
        | null =>
            cases hfound
            exact .str _
        | bool b =>
            cases b <;> cases hfound
            · exact .str _
            · exact hvalue
        | arr items | obj members =>
            cases hfound
            exact hvalue

theorem Json.Value.Ordered.of_mem_elements {scope : Value} (h : scope.Ordered)
    {expression : String} :
    ∀ element ∈ elements scope expression, element.Ordered := by
  intro element helement
  rw [elements] at helement
  cases hlookup : lookup scope expression false with
  | none =>
      rw [hlookup] at helement
      cases helement
  | some value =>
      have hvalue := h.of_lookup hlookup
      rw [hlookup] at helement
      simp only at helement
      split_ifs at helement
      · cases value with
        | arr items => exact hvalue.of_mem element helement
        | null | bool _ | num _ | str _ | obj _ =>
            cases List.mem_singleton.mp helement
            exact hvalue
      · cases helement

/-! ## Scopes -/

theorem Json.Value.Ordered.copy {value : Value} (h : value.Ordered) :
    (Value.obj (overlay [] value)).Ordered :=
  Value.ordered_empty.insertAll (hereditary_ordered.of_mem_entries h)

theorem Json.Value.Ordered.scope {parent element : Value} (h : parent.Ordered)
    (helement : element.Ordered) (index count : Nat) :
    (elementScope parent element index count).Ordered := by
  have hbindings : ∀ entry ∈ elementBindings element index count, entry.2.Ordered := by
    rw [elementBindings]
    simp only [List.forall_mem_cons]
    exact ⟨helement, .num _, .num _, fun _ hentry => absurd hentry List.not_mem_nil⟩
  exact (h.copy.insertAll hbindings).insertAll (hereditary_ordered.of_mem_entries helement)

theorem Json.Value.Ordered.of_mem_blockScopes {parent : Value} (h : parent.Ordered)
    {policy : InvertedPolicy} {kind : BlockKind} {expression : String} :
    ∀ scope ∈ blockScopes policy kind parent expression, scope.Ordered := by
  intro scope hscope
  cases kind with
  | normal =>
      rw [blockScopes, sectionScopes, elementScopesFrom_eq] at hscope
      obtain ⟨i, hi, rfl⟩ := List.mem_mapIdx.mp hscope
      exact h.scope (h.of_mem_elements _ (List.getElem_mem hi)) _ _
  | inverted =>
      rw [blockScopes, invertedScopes] at hscope
      split_ifs at hscope
      · cases hscope
      · cases List.mem_singleton.mp hscope
        exact h.copy

end Mustache
