import Mustache.Proofs.Template.Form

/-!
Which documents are read as templates.

Blocks stay inside units: the children of the document, those of an element, and a value
that holds a placeholder are units of their own, while the children of an element that
gives way to them belong to the unit around it. A walk over a document visits the tags of
the units and their ends in one order. A visit is wrong if it is a close tag where the unit
has no open block, or the end of a unit in which one is open. The walk reads the document
if no visit is wrong, that is, if in each unit the tags balance, and otherwise fails with
the error of the first wrong one. What it reads is the document: with the bodies of blocks
in place of the blocks, and without interpolations and inclusions, the tree has the
elements, attributes and texts of the document in their order.
-/
set_option autoImplicit false

namespace Mustache

open Markup

/-! ## Units -/

/-- Whether the tags of a unit open and close blocks so that none is closed that is not open,
and none is left open. -/
structure Balanced (unit : List Tag) : Prop where
  neverBelow : NeverBelow unit
  closed : balance unit = 0

instance (unit : List Tag) : Decidable (Balanced unit) :=
  decidable_of_iff ((∀ front ∈ unit.inits, 0 ≤ balance front) ∧ balance unit = 0)
    ⟨fun h => ⟨fun front hfront => h.1 front (List.mem_inits front unit |>.mpr hfront), h.2⟩,
      fun h => ⟨fun front hfront => h.neverBelow front (List.mem_inits front unit |>.mp hfront),
        h.closed⟩⟩

namespace DocumentWalk

variable (w : DocumentWalk)

def contentTags (chars : List Char) : List Tag :=
  tagsOf (w.placeholders.reveal chars)

/-- The values that are units of their own. -/
def valueUnits (attributes : List (String × List Char)) : List (List Tag) :=
  (attributes.filter fun attr => w.placeholders.occurIn attr.2).map fun attr =>
    w.contentTags attr.2

mutual

/-- The tags of a node that belong to the unit around it. -/
def unitTagsOfDom : Dom → List Tag
  | .text chars => w.contentTags chars
  | .element name _ children => if w.isTransparent name then unitTags children else []
  | .other => []

/-- The tags of nodes that belong to the unit around them. -/
def unitTags : List Dom → List Tag
  | [] => []
  | dom :: rest => unitTagsOfDom dom ++ unitTags rest

end

mutual

/-- The units within a node. -/
def innerUnitsOfDom : Dom → List (List Tag)
  | .text _ => []
  | .element name attributes children =>
      if w.isTransparent name then innerUnits children
      else w.valueUnits attributes ++ w.unitTags children :: innerUnits children
  | .other => []

/-- The units within nodes. -/
def innerUnits : List Dom → List (List Tag)
  | [] => []
  | dom :: rest => innerUnitsOfDom dom ++ innerUnits rest

end

/-- All units of a document. -/
def units (trees : List Dom) : List (List Tag) :=
  w.unitTags trees :: w.innerUnits trees

end DocumentWalk

/-! ## Visits -/

/-- What a walk comes by. -/
inductive Visit where
  /-- The start of a unit. -/
  | enter
  | tag (tag : Tag)
  /-- The end of the innermost unit that was entered. -/
  | leave

namespace Visit

/-- The tags so far of the units that were entered and not left, the innermost first, once a
visit is made. -/
def behind (entered : List (List Tag)) : Visit → List (List Tag)
  | .enter => [] :: entered
  | .tag t => (entered.headD [] ++ [t]) :: entered.tail
  | .leave => entered.tail

/-- What is wrong with a visit, if anything is. -/
def error? (source : List Char) (file : String) (entered : List (List Tag)) :
    Visit → Option TemplateError
  | .enter => none
  | .tag t =>
      if balance (entered.headD [] ++ [t]) < 0 then
        some (.unexpectedClose (String.ofList t.expression) file (t.location source))
      else none
  | .leave => if 0 < balance (entered.headD []) then some (.missingEnd file) else none

end Visit

/-- Whether no visit is wrong, with units entered before. -/
def NoneWrong (source : List Char) (file : String) (entered : List (List Tag))
    (visits : List Visit) : Prop :=
  ∀ front visit, front ++ [visit] <+: visits →
    visit.error? source file (front.foldl Visit.behind entered) = none

/-- Whether an error is that of the first visit that is wrong, with units entered before. -/
def FirstWrong (source : List Char) (file : String) (entered : List (List Tag))
    (visits : List Visit) (error : TemplateError) : Prop :=
  ∃ front visit, front ++ [visit] <+: visits ∧ NoneWrong source file entered front
    ∧ visit.error? source file (front.foldl Visit.behind entered) = some error

namespace DocumentWalk

variable (w : DocumentWalk)

/-- The visits to a value: it is a unit if it holds a placeholder. -/
def valueVisits (chars : List Char) : List Visit :=
  if w.placeholders.occurIn chars then
    .enter :: ((w.contentTags chars).map .tag ++ [.leave])
  else []

mutual

/-- The visits to a node: to the values of an element, and then to its children. -/
def visitsToDom : Dom → List Visit
  | .text chars => (w.contentTags chars).map .tag
  | .element name attributes children =>
      if w.isTransparent name then visitsTo children
      else attributes.flatMap (fun attr => w.valueVisits attr.2)
        ++ .enter :: (visitsTo children ++ [.leave])
  | .other => []

/-- The visits to nodes in order. -/
def visitsTo : List Dom → List Visit
  | [] => []
  | dom :: rest => visitsToDom dom ++ visitsTo rest

end

/-- The visits to a document. -/
def visits (trees : List Dom) : List Visit :=
  .enter :: (w.visitsTo trees ++ [.leave])

end DocumentWalk

/-! ## Making visits -/

section

variable (source : List Char) (file : String)

/-- Makes a visit, unless it is wrong. -/
def Visit.make (entered : List (List Tag)) (visit : Visit) :
    Except TemplateError (List (List Tag)) :=
  match visit.error? source file entered with
  | some error => .error error
  | none => .ok (visit.behind entered)

/-- Makes visits in order, up to the first wrong one. -/
def makeVisits (entered : List (List Tag)) (visits : List Visit) :
    Except TemplateError (List (List Tag)) :=
  visits.foldlM (Visit.make source file) entered

theorem makeVisits_nil (entered : List (List Tag)) :
    makeVisits source file entered [] = .ok entered :=
  rfl

theorem makeVisits_cons (entered : List (List Tag)) (visit : Visit) (rest : List Visit) :
    makeVisits source file entered (visit :: rest)
      = (visit.make source file entered).bind fun next => makeVisits source file next rest :=
  List.foldlM_cons ..

theorem makeVisits_append (entered : List (List Tag)) (first rest : List Visit) :
    makeVisits source file entered (first ++ rest)
      = (makeVisits source file entered first).bind fun next => makeVisits source file next rest :=
  List.foldlM_append ..

/-- A unit is entered, and left behind what is within it. -/
theorem makeVisits_enter (outer : List (List Tag)) (inside : List Visit) :
    makeVisits source file outer (.enter :: (inside ++ [.leave]))
      = (makeVisits source file ([] :: outer) inside).bind fun next =>
          makeVisits source file next [.leave] := by
  rw [makeVisits_cons, ← makeVisits_append]
  rfl

theorem Visit.make_tag (unit : List Tag) (outer : List (List Tag)) (t : Tag) :
    (Visit.tag t).make source file (unit :: outer)
      = if balance (unit ++ [t]) < 0 then
          .error (.unexpectedClose (String.ofList t.expression) file (t.location source))
        else .ok ((unit ++ [t]) :: outer) := by
  rw [make, error?, List.headD_cons]
  by_cases h : balance (unit ++ [t]) < 0
  · rw [if_pos h, if_pos h]
  · rw [if_neg h, if_neg h]
    rfl

theorem Visit.make_leave (unit : List Tag) (outer : List (List Tag)) :
    Visit.leave.make source file (unit :: outer)
      = if 0 < balance unit then .error (.missingEnd file) else .ok outer := by
  rw [make, error?, List.headD_cons]
  by_cases h : 0 < balance unit
  · rw [if_pos h, if_pos h]
  · rw [if_neg h, if_neg h]
    rfl

variable {source file} {entered after : List (List Tag)} {visits : List Visit}

theorem noneWrong_cons {visit : Visit} :
    NoneWrong source file entered (visit :: visits)
      ↔ visit.error? source file entered = none
        ∧ NoneWrong source file (visit.behind entered) visits := by
  constructor
  · intro h
    refine ⟨h [] visit (List.prefix_append [visit] visits), fun front other hfront => ?_⟩
    exact h (visit :: front) other ((List.prefix_cons_inj visit).mpr hfront)
  · rintro ⟨hvisit, hrest⟩ front other hfront
    cases front with
    | nil =>
        obtain ⟨rfl, -⟩ := List.cons_prefix_cons.mp hfront
        exact hvisit
    | cons first front =>
        rw [List.cons_append] at hfront
        obtain ⟨rfl, hmore⟩ := List.cons_prefix_cons.mp hfront
        exact hrest front other hmore

theorem firstWrong_cons {visit : Visit} {error : TemplateError}
    (h : visit.error? source file entered = none) :
    FirstWrong source file entered (visit :: visits) error
      ↔ FirstWrong source file (visit.behind entered) visits error := by
  constructor
  · rintro ⟨front, other, hfront, hnone, herror⟩
    cases front with
    | nil =>
        obtain ⟨rfl, -⟩ := List.cons_prefix_cons.mp hfront
        rw [List.foldl_nil, h] at herror
        cases herror
    | cons first front =>
        rw [List.cons_append] at hfront
        obtain ⟨rfl, hmore⟩ := List.cons_prefix_cons.mp hfront
        exact ⟨front, other, hmore, (noneWrong_cons.mp hnone).2, herror⟩
  · rintro ⟨front, other, hfront, hnone, herror⟩
    exact ⟨visit :: front, other, (List.prefix_cons_inj visit).mpr hfront,
      noneWrong_cons.mpr ⟨h, hnone⟩, herror⟩

theorem makeVisits_eq_error_iff {error : TemplateError} :
    makeVisits source file entered visits = .error error
      ↔ FirstWrong source file entered visits error := by
  induction visits generalizing entered with
  | nil =>
      refine iff_of_false (fun h => ?_) ?_
      · cases h
      · rintro ⟨front, visit, hfront, -⟩
        simp at hfront
  | cons visit rest ih =>
      -- If the first visit is right, the first wrong one is that of the rest.
      rw [makeVisits_cons, Visit.make]
      cases hvisit : visit.error? source file entered with
      | none =>
          rw [firstWrong_cons hvisit]
          exact ih
      | some first =>
          constructor
          · intro h
            cases h
            refine ⟨[], visit, List.prefix_append [visit] rest, fun front other hfront => ?_,
              hvisit⟩
            simp at hfront
          · rintro ⟨front, other, hfront, hnone, herror⟩
            cases front with
            | nil =>
                obtain ⟨rfl, -⟩ := List.cons_prefix_cons.mp hfront
                rw [List.foldl_nil, hvisit] at herror
                cases herror
                rfl
            | cons next front =>
                rw [List.cons_append] at hfront
                obtain ⟨rfl, -⟩ := List.cons_prefix_cons.mp hfront
                rw [(noneWrong_cons.mp hnone).1] at hvisit
                cases hvisit

/-! ## Visits to balanced units -/

/-- Whether the count of a unit is nowhere below zero while further tags are counted. -/
def StaysAbove (unit tags : List Tag) : Prop :=
  ∀ front, front <+: tags → 0 ≤ balance (unit ++ front)

theorem staysAbove_append {unit first rest : List Tag} :
    StaysAbove unit (first ++ rest) ↔ StaysAbove unit first ∧ StaysAbove (unit ++ first) rest := by
  constructor
  · intro h
    refine ⟨fun front hfront => h front (hfront.trans (List.prefix_append first rest)),
      fun front hfront => ?_⟩
    rw [List.append_assoc]
    exact h (first ++ front) ((List.prefix_append_right_inj first).mpr hfront)
  · rintro ⟨hfirst, hrest⟩ front hfront
    rcases List.prefix_or_prefix_of_prefix hfront (List.prefix_append first rest)
      with hshort | ⟨more, rfl⟩
    · exact hfirst front hshort
    · rw [← List.append_assoc]
      exact hrest more ((List.prefix_append_right_inj first).mp hfront)

/-- The count ends where it is nowhere below zero. -/
theorem StaysAbove.nonneg {unit tags : List Tag} (h : StaysAbove unit tags) :
    0 ≤ balance (unit ++ tags) :=
  h tags List.prefix_rfl

theorem staysAbove_nil {unit : List Tag} : StaysAbove unit [] ↔ 0 ≤ balance unit := by
  constructor
  · intro h
    have hnonneg := h.nonneg
    rwa [List.append_nil] at hnonneg
  · intro h front hfront
    rwa [List.prefix_nil.mp hfront, List.append_nil]

variable {unit : List Tag} {outer : List (List Tag)}

/-- Tags are visited as long as the count of their unit is not below zero. -/
theorem makeVisits_tags {tags : List Tag} (h : 0 ≤ balance unit) :
    makeVisits source file (unit :: outer) (tags.map .tag) = .ok after
      ↔ StaysAbove unit tags ∧ after = (unit ++ tags) :: outer := by
  induction tags generalizing unit with
  | nil =>
      rw [List.map_nil, makeVisits_nil, staysAbove_nil, List.append_nil, Except.ok.injEq]
      exact ⟨fun hafter => ⟨h, hafter.symm⟩, fun hafter => hafter.2.symm⟩
  | cons tag rest ih =>
      -- The unit grows by a tag at a time, and must not fall below zero at any of them.
      have happend : StaysAbove unit (tag :: rest)
          ↔ StaysAbove unit [tag] ∧ StaysAbove (unit ++ [tag]) rest := by
        rw [← staysAbove_append, List.singleton_append]
      have hafter : unit ++ tag :: rest = unit ++ [tag] ++ rest := by simp
      rw [List.map_cons, makeVisits_cons, Visit.make_tag, happend, hafter]
      split_ifs with hbelow
      · refine iff_of_false (fun hok => by cases hok) fun hstays => ?_
        exact absurd hstays.1.1.nonneg (by omega)
      · have hone : StaysAbove unit [tag] := by
          intro front hfront
          rcases List.prefix_cons_iff.mp hfront with rfl | ⟨front, rfl, hmore⟩
          · rwa [List.append_nil]
          · rw [List.prefix_nil.mp hmore]
            omega
        refine (ih (by omega)).trans ?_
        rw [and_assoc, and_iff_right hone]

/-- A unit is visited if its tags balance and what is within it is visited. -/
theorem makeVisits_unit {inside : List Visit} {tags : List Tag} {within : Prop}
    (h : ∀ after, makeVisits source file ([] :: outer) inside = .ok after
      ↔ StaysAbove [] tags ∧ within ∧ after = tags :: outer) :
    makeVisits source file outer (.enter :: (inside ++ [.leave])) = .ok after
      ↔ (Balanced tags ∧ within) ∧ after = outer := by
  rw [makeVisits_enter]
  constructor
  · -- Leaving is right only if no block is open, so the unit is balanced; it is dropped then.
    intro hok
    obtain ⟨next, hnext, hleave⟩ := bind_eq_ok_iff.mp hok
    obtain ⟨habove, hwithin, rfl⟩ := (h next).mp hnext
    rw [makeVisits_cons, Visit.make_leave] at hleave
    split_ifs at hleave with hopen
    · cases hleave
    · cases hleave
      have hnonneg := habove.nonneg
      rw [List.nil_append] at hnonneg
      exact ⟨⟨⟨habove, by omega⟩, hwithin⟩, rfl⟩
  · rintro ⟨⟨⟨habove, hclosed⟩, hwithin⟩, rfl⟩
    have hopen : ¬ 0 < balance tags := by omega
    rw [(h _).mpr ⟨habove, hwithin, rfl⟩]
    change makeVisits source file (tags :: after) [.leave] = .ok after
    rw [makeVisits_cons, Visit.make_leave, if_neg hopen]
    rfl

end

namespace DocumentWalk

variable (w : DocumentWalk) (source : List Char) (file : String)

theorem makeVisits_values (outer : List (List Tag)) (attributes : List (String × List Char))
    (after : List (List Tag)) :
    makeVisits source file outer (attributes.flatMap fun attr => w.valueVisits attr.2) = .ok after
      ↔ (∀ unit ∈ w.valueUnits attributes, Balanced unit) ∧ after = outer := by
  induction attributes with
  | nil =>
      rw [List.flatMap_nil, makeVisits_nil, valueUnits, List.filter_nil, List.map_nil,
        Except.ok.injEq, eq_comm]
      exact (and_iff_right fun unit hunit => absurd hunit List.not_mem_nil).symm
  | cons attr rest ih =>
      -- A value is visited only if it holds a placeholder, and then as a unit of its own.
      have hvalue (next : List (List Tag)) :
          makeVisits source file outer (w.valueVisits attr.2) = .ok next
            ↔ (w.placeholders.occurIn attr.2 = true → Balanced (w.contentTags attr.2))
              ∧ next = outer := by
        rw [valueVisits]
        split_ifs with hoccur
        · have htags (after : List (List Tag)) :
              makeVisits source file ([] :: outer) ((w.contentTags attr.2).map .tag) = .ok after
                ↔ StaysAbove [] (w.contentTags attr.2) ∧ True
                  ∧ after = w.contentTags attr.2 :: outer := by
            rw [true_and]
            exact makeVisits_tags balance_nil.ge
          rw [makeVisits_unit htags]
          simp [hoccur]
        · rw [makeVisits_nil, Except.ok.injEq, eq_comm]
          exact (and_iff_right fun h => absurd h hoccur).symm
      have hunits : (∀ unit ∈ w.valueUnits (attr :: rest), Balanced unit)
          ↔ (w.placeholders.occurIn attr.2 = true → Balanced (w.contentTags attr.2))
            ∧ ∀ unit ∈ w.valueUnits rest, Balanced unit := by
        rw [valueUnits, List.filter_cons]
        split_ifs with hoccur <;> simp [hoccur, valueUnits]
      rw [List.flatMap_cons, makeVisits_append, bind_eq_ok_iff, hunits]
      constructor
      · rintro ⟨next, hnext, hrest⟩
        obtain ⟨hbalanced, rfl⟩ := (hvalue next).mp hnext
        obtain ⟨hothers, rfl⟩ := ih.mp hrest
        exact ⟨⟨hbalanced, hothers⟩, rfl⟩
      · rintro ⟨⟨hbalanced, hothers⟩, rfl⟩
        exact ⟨after, (hvalue after).mpr ⟨hbalanced, rfl⟩, ih.mpr ⟨hothers, rfl⟩⟩

mutual

/-- A node is visited if its tags stay above zero in the unit around it and the units within
it balance. -/
theorem makeVisits_dom {unit : List Tag} (outer after : List (List Tag)) (h : 0 ≤ balance unit) :
    (dom : Dom) → (makeVisits source file (unit :: outer) (w.visitsToDom dom) = .ok after
      ↔ StaysAbove unit (w.unitTagsOfDom dom)
        ∧ (∀ inner ∈ w.innerUnitsOfDom dom, Balanced inner)
        ∧ after = (unit ++ w.unitTagsOfDom dom) :: outer)
  | .text chars => by
      rw [visitsToDom, unitTagsOfDom, innerUnitsOfDom, makeVisits_tags h]
      simp
  | .element name attributes children => by
      rw [visitsToDom, unitTagsOfDom, innerUnitsOfDom]
      split_ifs with htransparent
      · exact makeVisits_doms outer after h children
      · -- The values come first, then the children as a unit of their own; neither changes the
        -- unit that the element is in.
        have hchildren (after : List (List Tag)) :=
          makeVisits_doms (unit :: outer) after balance_nil.ge children
        rw [makeVisits_append, bind_eq_ok_iff, staysAbove_nil, List.append_nil, and_iff_right h,
          List.forall_mem_append, List.forall_mem_cons, and_assoc]
        constructor
        · rintro ⟨next, hnext, hrest⟩
          obtain ⟨hvalues, rfl⟩ := (makeVisits_values w source file _ _ _).mp hnext
          exact ⟨hvalues, (makeVisits_unit hchildren).mp hrest⟩
        · rintro ⟨hvalues, hrest⟩
          exact ⟨unit :: outer, (makeVisits_values w source file _ _ _).mpr ⟨hvalues, rfl⟩,
            (makeVisits_unit hchildren).mpr hrest⟩
  | .other => by
      rw [visitsToDom, unitTagsOfDom, innerUnitsOfDom, makeVisits_nil, staysAbove_nil,
        List.append_nil, and_iff_right h, Except.ok.injEq, eq_comm]
      exact (and_iff_right fun inner hinner => absurd hinner List.not_mem_nil).symm

theorem makeVisits_doms {unit : List Tag} (outer after : List (List Tag)) (h : 0 ≤ balance unit) :
    (doms : List Dom) → (makeVisits source file (unit :: outer) (w.visitsTo doms) = .ok after
      ↔ StaysAbove unit (w.unitTags doms)
        ∧ (∀ inner ∈ w.innerUnits doms, Balanced inner)
        ∧ after = (unit ++ w.unitTags doms) :: outer)
  | [] => by
      rw [visitsTo, unitTags, innerUnits, makeVisits_nil, staysAbove_nil, List.append_nil,
        and_iff_right h, Except.ok.injEq, eq_comm]
      exact (and_iff_right fun inner hinner => absurd hinner List.not_mem_nil).symm
  | dom :: rest => by
      rw [visitsTo, unitTags, innerUnits, makeVisits_append, bind_eq_ok_iff, staysAbove_append,
        List.forall_mem_append]
      constructor
      · rintro ⟨next, hnext, hrest⟩
        obtain ⟨habove, hinner, rfl⟩ := (makeVisits_dom outer next h dom).mp hnext
        obtain ⟨hmore, hothers, rfl⟩ := (makeVisits_doms outer after habove.nonneg rest).mp hrest
        exact ⟨⟨habove, hmore⟩, ⟨hinner, hothers⟩, by rw [List.append_assoc]⟩
      · rintro ⟨⟨habove, hmore⟩, ⟨hinner, hothers⟩, rfl⟩
        refine ⟨_, (makeVisits_dom outer _ h dom).mpr ⟨habove, hinner, rfl⟩, ?_⟩
        exact (makeVisits_doms outer _ habove.nonneg rest).mpr
          ⟨hmore, hothers, by rw [List.append_assoc]⟩

end

theorem makeVisits_visits (trees : List Dom) :
    (∃ after, makeVisits source file [] (w.visits trees) = .ok after)
      ↔ ∀ unit ∈ w.units trees, Balanced unit := by
  have hunit (after : List (List Tag)) :
      makeVisits source file [] (w.visits trees) = .ok after ↔ _ :=
    makeVisits_unit fun after =>
      makeVisits_doms w source file [] after balance_nil.ge trees
  rw [units, List.forall_mem_cons]
  exact ⟨fun ⟨after, hafter⟩ => ((hunit after).mp hafter).1, fun h => ⟨[], (hunit []).mpr ⟨h, rfl⟩⟩⟩

end DocumentWalk

/-! ## Builders and visits -/

/-- Whether two computations fail with the same error, or both have a result and their results
are related. -/
inductive Parallel {β γ : Type} (related : β → γ → Prop) :
    Except TemplateError β → Except TemplateError γ → Prop
  | ok {b : β} {c : γ} (h : related b c) : Parallel related (.ok b) (.ok c)
  | error (error : TemplateError) : Parallel related (.error error) (.error error)

theorem Parallel.bind {β β' γ γ' : Type} {related : β → γ → Prop} {related' : β' → γ' → Prop}
    {first : Except TemplateError β} {first' : Except TemplateError γ}
    {second : β → Except TemplateError β'} {second' : γ → Except TemplateError γ'}
    (h : Parallel related first first')
    (hnext : ∀ b c, related b c → Parallel related' (second b) (second' c)) :
    Parallel related' (first.bind second) (first'.bind second') := by
  cases h with
  | ok h => exact hnext _ _ h
  | error e => exact .error e

/-- A result that is made into another one stays related. -/
theorem Parallel.map {β β' γ : Type} {related : β → γ → Prop} {related' : β' → γ → Prop}
    {first : Except TemplateError β} {first' : Except TemplateError γ} {result : β → β'}
    (h : Parallel related first first') (hresult : ∀ b c, related b c → related' (result b) c) :
    Parallel related' (first.bind fun b => .ok (result b)) first' := by
  cases h with
  | ok h => exact .ok (hresult _ _ h)
  | error e => exact .error e

theorem Parallel.exists_ok_iff {β γ : Type} {related : β → γ → Prop}
    {first : Except TemplateError β} {first' : Except TemplateError γ}
    (h : Parallel related first first') : (∃ b, first = .ok b) ↔ ∃ c, first' = .ok c := by
  cases h with
  | ok h => exact iff_of_true ⟨_, rfl⟩ ⟨_, rfl⟩
  | error e => exact iff_of_false (fun ⟨_, h⟩ => by cases h) (fun ⟨_, h⟩ => by cases h)

theorem Parallel.error_iff {β γ : Type} {related : β → γ → Prop}
    {first : Except TemplateError β} {first' : Except TemplateError γ} {error : TemplateError}
    (h : Parallel related first first') : first = .error error ↔ first' = .error error := by
  cases h with
  | ok h => exact iff_of_false (fun h => by cases h) (fun h => by cases h)
  | error e => rw [Except.error.injEq, Except.error.injEq]

/-- Whether a builder is in a unit as visits are: as deep as the count of its tags says. -/
structure InUnit (unit : List Tag) (outer : List (List Tag)) (b : Builder)
    (entered : List (List Tag)) : Prop where
  entered : entered = unit :: outer
  depth : (b.depth : Int) = balance unit

namespace Builder

variable {b : Builder} {unit : List Tag} (source : List Char) (file : String)
  (outer : List (List Tag))

theorem depth_empty_eq_balance : (empty.depth : Int) = balance [] := rfl

theorem parallel_addTag (tag : Tag) (h : (b.depth : Int) = balance unit) :
    Parallel (InUnit (unit ++ [tag]) outer) (b.addTag source file tag)
      ((Visit.tag tag).make source file (unit :: outer)) := by
  have hcount := balance_append unit [tag]
  rw [Visit.make_tag]
  split_ifs with hbelow
  · have hstray : b.depth + balance [tag] < 0 := by omega
    rw [addTag_of_stray source file hstray]
    exact .error _
  · have hstays : 0 ≤ b.depth + balance [tag] := by omega
    obtain ⟨next, hnext, hdepth⟩ := addTag_of_balance source file hstays
    rw [hnext]
    exact .ok ⟨rfl, by omega⟩

theorem parallel_addSegments (segments : List Segment) (h : (b.depth : Int) = balance unit) :
    Parallel (InUnit (unit ++ tagsOf segments) outer) (b.addSegments source file segments)
      (makeVisits source file (unit :: outer) ((tagsOf segments).map .tag)) := by
  induction segments generalizing b unit with
  | nil => exact .ok ⟨by rw [tagsOf, List.filterMap_nil, List.append_nil], by
      rwa [tagsOf, List.filterMap_nil, List.append_nil]⟩
  | cons segment rest ih =>
      cases segment with
      | literal text =>
          rw [addSegments_literal]
          exact ih (by rwa [depth_addLiteral])
      | tag tag =>
          have htags : tagsOf (.tag tag :: rest) = tag :: tagsOf rest := rfl
          have happend : unit ++ tag :: tagsOf rest = unit ++ [tag] ++ tagsOf rest := by simp
          rw [addSegments_tag, htags, List.map_cons, makeVisits_cons, happend]
          refine (parallel_addTag source file outer tag h).bind fun next entered hin => ?_
          rw [hin.entered]
          exact ih hin.depth

/-- A builder is finished as its unit is left. -/
theorem parallel_finish (h : (b.depth : Int) = balance unit) :
    Parallel (fun _ entered => entered = outer) (b.finish file)
      (makeVisits source file (unit :: outer) [.leave]) := by
  have hdepth : b.depth = b.enclosing.length := List.length_map ..
  rw [makeVisits_cons, Visit.make_leave, finish]
  cases henclosing : b.enclosing with
  | nil =>
      rw [henclosing, List.length_nil] at hdepth
      rw [List.isEmpty_nil, if_pos rfl, if_neg (by omega)]
      exact .ok rfl
  | cons block rest =>
      rw [henclosing, List.length_cons] at hdepth
      rw [List.isEmpty_cons, if_neg (by simp), if_pos (by omega)]
      exact .error _

/-- What is built from an empty builder and finished is a unit of its own. -/
theorem parallel_unit {β : Type} {related : β → List (List Tag) → Prop}
    {built : Except TemplateError Builder} {inside : List Visit} {result : List Node → β}
    (h : Parallel (InUnit unit outer) built (makeVisits source file ([] :: outer) inside))
    (hresult : ∀ nodes, related (result nodes) outer) :
    Parallel related (built.bind fun b => (b.finish file).bind fun nodes => .ok (result nodes))
      (makeVisits source file outer (.enter :: (inside ++ [.leave]))) := by
  rw [makeVisits_enter]
  refine h.bind fun b entered hin => ?_
  rw [hin.entered]
  refine (parallel_finish source file outer hin.depth).map fun nodes left hleft => ?_
  rw [hleft]
  exact hresult nodes

end Builder

namespace DocumentWalk

variable (w : DocumentWalk) (outer : List (List Tag))

theorem parallel_addText {b : Builder} {unit : List Tag} (chars : List Char)
    (h : (b.depth : Int) = balance unit) :
    Parallel (InUnit (unit ++ w.contentTags chars) outer) (w.addText b chars)
      (makeVisits w.source w.file (unit :: outer) ((w.contentTags chars).map .tag)) :=
  Builder.parallel_addSegments w.source w.file outer _ h

theorem parallel_readAttribute (element : String) (attr : String × List Char) :
    Parallel (fun _ entered => entered = outer) (w.readAttribute element attr)
      (makeVisits w.source w.file outer (w.valueVisits attr.2)) := by
  rw [readAttribute, valueVisits]
  split_ifs with hoccur
  · exact Builder.parallel_unit w.source w.file outer
      (w.parallel_addText outer attr.2 Builder.depth_empty_eq_balance) fun _ => rfl
  · exact .ok rfl

theorem parallel_readAttributes (element : String) (attributes : List (String × List Char)) :
    Parallel (fun _ entered => entered = outer) (attributes.mapM (w.readAttribute element))
      (makeVisits w.source w.file outer (attributes.flatMap fun attr => w.valueVisits attr.2)) := by
  induction attributes with
  | nil => exact .ok rfl
  | cons attr rest ih =>
      rw [List.mapM_cons, List.flatMap_cons, makeVisits_append]
      refine (w.parallel_readAttribute outer element attr).bind fun first entered hentered => ?_
      rw [hentered]
      exact ih.map fun others left hleft => hleft

mutual

theorem parallel_addDom {b : Builder} {unit : List Tag} (outer : List (List Tag))
    (h : (b.depth : Int) = balance unit) :
    (dom : Dom) → Parallel (InUnit (unit ++ w.unitTagsOfDom dom) outer) (w.addDom b dom)
      (makeVisits w.source w.file (unit :: outer) (w.visitsToDom dom))
  | .text chars => by
      rw [addDom, visitsToDom, unitTagsOfDom]
      exact w.parallel_addText outer chars h
  | .element name attributes children => by
      rw [addDom, visitsToDom, unitTagsOfDom]
      split_ifs with htransparent
      · exact parallel_addDoms outer h children
      · rw [List.append_nil, makeVisits_append]
        refine (w.parallel_readAttributes (unit :: outer) name attributes).bind
          fun read entered hentered => ?_
        rw [hentered]
        exact Builder.parallel_unit w.source w.file (unit :: outer)
          (parallel_addDoms (unit :: outer) Builder.depth_empty_eq_balance children)
          fun nodes => ⟨rfl, h⟩
  | .other => by
      rw [addDom, visitsToDom, unitTagsOfDom, List.append_nil]
      exact .ok ⟨rfl, h⟩

theorem parallel_addDoms {b : Builder} {unit : List Tag} (outer : List (List Tag))
    (h : (b.depth : Int) = balance unit) :
    (doms : List Dom) → Parallel (InUnit (unit ++ w.unitTags doms) outer) (w.addDoms b doms)
      (makeVisits w.source w.file (unit :: outer) (w.visitsTo doms))
  | [] => by
      rw [addDoms, visitsTo, unitTags, List.append_nil]
      exact .ok ⟨rfl, h⟩
  | dom :: rest => by
      rw [addDoms, visitsTo, unitTags, makeVisits_append, ← List.append_assoc]
      refine (parallel_addDom outer h dom).bind fun next entered hin => ?_
      rw [hin.entered]
      exact parallel_addDoms outer hin.depth rest

end

theorem parallel_read (trees : List Dom) :
    Parallel (fun _ entered => entered = []) (w.read trees)
      (makeVisits w.source w.file [] (w.visits trees)) := by
  have hread : w.read trees = (w.addDoms .empty trees).bind fun b =>
      (b.finish w.file).bind fun nodes => .ok nodes := by
    rw [read]
    cases w.addDoms .empty trees with
    | error e => rfl
    | ok b => cases hb : b.finish w.file <;> simp [bind, Except.bind, hb]
  rw [hread]
  exact Builder.parallel_unit w.source w.file []
    (w.parallel_addDoms [] Builder.depth_empty_eq_balance trees) fun _ => rfl

end DocumentWalk

/-! ## Documents without tags -/

/-- The text of a node that is one. -/
def Markup.Dom.chars : Dom → List Char
  | .text chars => chars
  | .element .. | .other => []

/-- Templates and documents as documents again: texts and elements, and no tags. -/
def Form.bare : Form Dom where
  literal value := [.text value.toList]
  tag _ _ _ := []
  close := []
  element name attributes children :=
    [.element name (attributes.map fun attr => (attr.1, attr.2.flatMap Dom.chars)) children]

/-- A document is read as a template if and only if the tags balance in each of its units.
Otherwise the error is that of the first visit that is wrong, in the order of the walk: a
close tag where its unit has no open block, or the end of a unit in which one is open. What
is read keeps the document: with the bodies of blocks in place of the blocks, and without
interpolations and inclusions, it has the same elements, attributes and texts. -/
theorem structural_units (source : List Char) (file : String) (trees : List Dom) :
    let w := walkOf source file
    ((∃ nodes, w.read trees = .ok nodes) ↔ ∀ unit ∈ w.units trees, Balanced unit)
      ∧ (∀ error, w.read trees = .error error ↔ FirstWrong source file [] (w.visits trees) error)
      ∧ ∀ nodes, w.read trees = .ok nodes →
        writtenOf Form.bare nodes = w.writtenDoms Form.bare trees := by
  intro w
  have hparallel := w.parallel_read trees
  exact ⟨hparallel.exists_ok_iff.trans (w.makeVisits_visits source file trees),
    fun error => hparallel.error_iff.trans makeVisits_eq_error_iff,
    fun nodes => DocumentWalk.written_of_read Form.bare⟩

/-- A block that is open across an element and the value of its attribute, in elements of the
document that give way to their children. -/
theorem structural_units_of_wrapper :
    let source := "{{#a}}<p id='{{b}}'>x</p>{{/a}}".toList
    let trees : List Dom :=
      [.element "html" [] [.element "head" [] [], .element "body" []
        [.text "__stache_tag_0__".toList,
          .element "p" [("id", "__stache_tag_1__".toList)] [.text ['x']],
          .text "__stache_tag_2__".toList]]]
    ∃ nodes, (walkOf source "t").read trees = .ok nodes
      ∧ writtenOf Form.bare nodes = [.element "p" [("id", [])] [.text ['x']]] := by
  intro source trees
  obtain ⟨hiff, -, hkept⟩ := structural_units source "t" trees
  have hbalanced : ∀ unit ∈ (walkOf source "t").units trees, Balanced unit := by decide +kernel
  obtain ⟨nodes, hread⟩ := hiff.mpr hbalanced
  refine ⟨nodes, hread, ?_⟩
  have hdocument : (walkOf source "t").isTransparent "html" = true
      ∧ (walkOf source "t").isTransparent "head" = true
      ∧ (walkOf source "t").isTransparent "body" = true
      ∧ (walkOf source "t").isTransparent "p" = false := by decide +kernel
  have hreveal : (walkOf source "t").placeholders.reveal "__stache_tag_0__".toList
        = [.tag ⟨0, "{{#a}}".toList, "#a".toList⟩]
      ∧ (walkOf source "t").placeholders.reveal "__stache_tag_1__".toList
        = [.tag ⟨13, "{{b}}".toList, "b".toList⟩]
      ∧ (walkOf source "t").placeholders.reveal "__stache_tag_2__".toList
        = [.tag ⟨25, "{{/a}}".toList, "/a".toList⟩]
      ∧ (walkOf source "t").placeholders.reveal ['x'] = [.literal ['x']] := by decide +kernel
  have hname : (walkOf source "t").attributeName "p" "id" = "id" := by decide +kernel
  rw [hkept nodes hread]
  obtain ⟨hhtml, hhead, hbody, hp⟩ := hdocument
  obtain ⟨hopen, hvalue, hclose, htext⟩ := hreveal
  simp only [trees, DocumentWalk.writtenDoms, DocumentWalk.writtenDom,
    DocumentWalk.writtenAttributes, DocumentWalk.writtenContent, hhtml, hhead, hbody, hp, hopen,
    hvalue, hclose, htext, hname, List.map_cons, List.map_nil, if_true, Bool.false_eq_true,
    if_false]
  rfl

end Mustache
