import Mathlib.Data.List.Forall2
import Mustache.Proofs.Script.Cutting
import Mustache.Proofs.Script.Term

/-!
Reading back the text of an expression.

The main statement is `read?_text`: the text of an expression whose parts stand
where they may is read as that expression. The induction is over the expression. What
it carries is how loosely the operators among its items hold their operands, so that
no operator of the surroundings takes the expression apart, and for what nothing can
come between also that it may be followed by accessors.
-/
set_option autoImplicit false

namespace Mustache.Script

/-! ## How loosely items hold together -/

/-- How loosely an item that is an operator holds what is around it; 0 for any other
item. -/
def Item.looseness (item : Item) : Nat :=
  match item.operator? with
  | some op => op.looseness
  | none =>
      if item.isMark "?" || item.isMark ":" then 7
      else if item.isMark "," || item.isMark ";" || item.isMark "=" then 8
      else 0

/-- Whether no operator among items holds what is around it more loosely than
given. -/
def Tight (looseness : Nat) (items : List Item) : Prop :=
  ∀ item ∈ items, item.looseness ≤ looseness

theorem Tight.mono {m n : Nat} {items : List Item} (h : Tight m items) (hmn : m ≤ n) :
    Tight n items :=
  fun item hitem => Nat.le_trans (h item hitem) hmn

theorem tight_append {n : Nat} {first rest : List Item} (hfirst : Tight n first)
    (hrest : Tight n rest) : Tight n (first ++ rest) := by
  intro item hitem
  rcases List.mem_append.mp hitem with hitem | hitem
  · exact hfirst item hitem
  · exact hrest item hitem

theorem tight_cons {n : Nat} {item : Item} {rest : List Item} (hitem : item.looseness ≤ n)
    (hrest : Tight n rest) : Tight n (item :: rest) := by
  intro other hother
  rcases List.mem_cons.mp hother with rfl | hother
  · exact hitem
  · exact hrest other hother

theorem tight_nil (n : Nat) : Tight n [] := by
  intro item hitem
  simp at hitem

theorem eq_of_isMark {item : Item} {spelling : String} (h : item.isMark spelling = true) :
    item = .token (.mark spelling) := by
  cases item <;> simp_all [Item.isMark]

theorem Tight.not_isMark {n : Nat} {items : List Item} (h : Tight n items) {spelling : String}
    (hmark : n < (Item.token (.mark spelling)).looseness) :
    ∀ item ∈ items, item.isMark spelling = false := by
  intro item hitem
  by_contra his
  rw [Bool.not_eq_false] at his
  have hle := h item hitem
  rw [eq_of_isMark his] at hle
  omega

/-! ## Splitting -/

theorem splitAtMark_of_not_isMark {spelling : String} {items : List Item}
    (h : ∀ item ∈ items, item.isMark spelling = false) :
    splitAtMark spelling items = [items] := by
  induction items with
  | nil => rfl
  | cons item items ih =>
      have hrest := ih fun other hother => h other (List.mem_cons_of_mem item hother)
      simp [splitAtMark, h item List.mem_cons_self, hrest]

theorem splitAtMark_append {spelling : String} {first : List Item}
    (h : ∀ item ∈ first, item.isMark spelling = false) (rest : List Item) :
    splitAtMark spelling (first ++ .token (.mark spelling) :: rest)
      = first :: splitAtMark spelling rest := by
  induction first with
  | nil => simp [splitAtMark, Item.isMark]
  | cons item first ih =>
      have hmore := ih fun other hother => h other (List.mem_cons_of_mem item hother)
      simp [splitAtMark, h item List.mem_cons_self, hmore]

/-- Items without an operator that holds as loosely are not split. -/
theorem splitAtOperators_of_tight {n : Nat} {items : List Item} (h : Tight n items) :
    splitAtOperators (n + 1) items = (items, []) := by
  induction items with
  | nil => rfl
  | cons item items ih =>
      have hrest := ih fun other hother => h other (List.mem_cons_of_mem item hother)
      have hitem := h item List.mem_cons_self
      rw [splitAtOperators, hrest]
      cases hop : item.operator? with
      | none => simp
      | some op =>
          simp only [Item.looseness, hop] at hitem
          have hne : op.looseness ≠ n + 1 := by omega
          simp [hne]

theorem operator?_mark (op : BinaryOperator) :
    (Item.token (.mark op.mark)).operator? = some op := by
  cases op <;> rfl

/-- Items are split at the last of the operators that hold as loosely as given. -/
theorem splitAtOperators_append {n : Nat} (left : List Item) {op : BinaryOperator}
    {right : List Item} (hop : op.looseness = n + 1) (hright : Tight n right) :
    splitAtOperators (n + 1) (left ++ .token (.mark op.mark) :: right)
      = ((splitAtOperators (n + 1) left).1,
        (splitAtOperators (n + 1) left).2 ++ [(op, right)]) := by
  induction left with
  | nil =>
      simp [splitAtOperators, splitAtOperators_of_tight hright, operator?_mark, hop]
  | cons item left ih =>
      rw [List.cons_append, splitAtOperators, ih, splitAtOperators]
      cases hitem : item.operator? with
      | none => simp
      | some op' =>
          by_cases hloose : op'.looseness = n + 1 <;> simp [hloose]

/-! ## Operators -/

/-- The last operand is put to what the others amount to. -/
theorem readChain_append (read : List Item → Option Term) (left : Term)
    (rest : List (BinaryOperator × List Item)) (op : BinaryOperator) (part : List Item) :
    readChain read left (rest ++ [(op, part)])
      = (readChain read left rest).bind fun t => (read part).map (.binary op t) := by
  induction rest generalizing left with
  | nil =>
      simp only [List.nil_append, readChain, Option.bind_eq_bind, Option.bind_some]
      cases read part <;> rfl
  | cons summand rest ih =>
      obtain ⟨op', part'⟩ := summand
      simp only [List.cons_append, readChain, Option.bind_eq_bind]
      cases read part' with
      | none => rfl
      | some right => exact ih (.binary op' left right)

/-- An operator is read with what stands on its two sides. -/
theorem readUpTo_operator (op : BinaryOperator) {n : Nat} {left right : List Item} {l r : Term}
    (hop : op.looseness = n + 2) (hright : Tight (n + 1) right)
    (hl : readUpTo (n + 2) left = some l) (hr : readUpTo (n + 1) right = some r) :
    readUpTo (n + 2) (left ++ .token (.mark op.mark) :: right) = some (.binary op l r) := by
  rw [readUpTo, splitAtOperators_append left hop hright]
  rw [readUpTo] at hl
  cases hfirst : readUpTo (n + 1) (splitAtOperators (n + 2) left).1 with
  | none => simp [hfirst] at hl
  | some first =>
      simp only [hfirst, Option.bind_eq_bind, Option.bind_some] at hl ⊢
      rw [readChain_append, hl, hr]
      rfl

/-- What is read as an operand is read as one without operators in front of it. -/
theorem readSigned_of_readAccess {items : List Item} {t : Term}
    (h : readAccess items = some t) : readSigned items = some t := by
  have htypeof : isName "typeof" = false := by decide
  unfold readSigned
  split
  · simp [readAccess, readPrimary] at h
  · simp [readAccess, readPrimary, htypeof] at h
  · exact h

/-- What is read with tight operators is read where looser ones may stand. -/
theorem readUpTo_mono {m n : Nat} {items : List Item} {t : Term} (htight : Tight m items)
    (h : readUpTo m items = some t) (hmn : m ≤ n) : readUpTo n items = some t := by
  induction n with
  | zero =>
      rw [Nat.le_zero.mp hmn] at h
      exact h
  | succ n ih =>
      by_cases heq : m = n + 1
      · rwa [heq] at h
      -- The items hold no operator of the next level, which therefore splits nothing off.
      · have hle : m ≤ n := by omega
        have hread := ih hle
        cases n with
        | zero => exact readSigned_of_readAccess hread
        | succ n =>
            simp only [readUpTo, splitAtOperators_of_tight (htight.mono hle), hread, readChain,
              Option.bind_eq_bind, Option.bind_some]

/-- What holds no choice is read as a whole term. -/
theorem readTerm_of_readUpTo {n : Nat} {items : List Item} {t : Term} (htight : Tight n items)
    (h : readUpTo n items = some t) (hn : n ≤ 6) : readTerm items = some t := by
  have hmark : n < (Item.token (.mark "?")).looseness := Nat.lt_of_le_of_lt hn (by decide)
  rw [readTerm, splitAtMark_of_not_isMark (htight.not_isMark hmark)]
  exact readUpTo_mono htight h hn

/-! ## Lists -/

theorem itemsOf_append {ms ns : List Nest} {first rest : List Item}
    (hfirst : itemsOf ms = some first) (hrest : itemsOf ns = some rest) :
    itemsOf (ms ++ ns) = some (first ++ rest) := by
  induction ms generalizing first with
  | nil =>
      cases hfirst
      exact hrest
  | cons m ms ih =>
      simp only [itemsOf, Option.bind_eq_bind, Option.bind_eq_some_iff, Option.some.injEq] at hfirst
      obtain ⟨item, hitem, items, hitems, rfl⟩ := hfirst
      simp only [List.cons_append, itemsOf, hitem, ih hitems, Option.bind_eq_bind, Option.bind_some]

theorem itemsOf_token {t : Token} {ns : List Nest} {items : List Item}
    (h : itemsOf ns = some items) : itemsOf (.token t :: ns) = some (.token t :: items) := by
  rw [itemsOf, h]
  rfl

theorem itemsOf_group {b : Bracket} {content : List Nest} {items : List Item} {item : Item}
    (hcontent : itemsOf content = some items) (hitem : readGroup b items = some item) :
    itemsOf [.group b content] = some [item] := by
  simp only [itemsOf, Nest.item?, hcontent, hitem, Option.bind_eq_bind, Option.bind_some]

/-- Items with a comma between them. -/
def commaItems : List (List Item) → List Item
  | [] => []
  | [first] => first
  | first :: next :: rest => first ++ .token (.mark ",") :: commaItems (next :: rest)

theorem itemsOf_commaNests {nss : List (List Nest)} {parts : List (List Item)}
    (h : List.Forall₂ (fun ns items => itemsOf ns = some items) nss parts) :
    itemsOf (commaNests nss) = some (commaItems parts) := by
  induction h with
  | nil => rfl
  | @cons ns items nss parts hfirst hrest ih =>
      cases hrest with
      | nil => exact hfirst
      | cons hnext hrest => exact itemsOf_append hfirst (itemsOf_token ih)

/-- Parts without commas are found between the commas. -/
theorem splitAtMark_commaItems {first : List Item} {rest : List (List Item)}
    (h : ∀ part ∈ first :: rest, Tight 7 part) :
    splitAtMark "," (commaItems (first :: rest)) = first :: rest := by
  have hcomma : 7 < (Item.token (.mark ",")).looseness := by decide
  induction rest generalizing first with
  | nil =>
      exact splitAtMark_of_not_isMark ((h first List.mem_cons_self).not_isMark hcomma)
  | cons next rest ih =>
      have hfirst := (h first List.mem_cons_self).not_isMark hcomma
      rw [commaItems, splitAtMark_append hfirst,
        ih fun part hpart => h part (List.mem_cons_of_mem first hpart)]

/-! ## Expressions -/

structure Expr.IsReadFrom (e : Expr) (items : List Item) : Prop where
  nests : itemsOf e.nests = some items
  tight : Tight e.looseness items
  /-- What nothing can come between may be followed by accessors. -/
  access : e.looseness = 0 → ∀ more, readAccess (items ++ more) = readAccessors e.term more
  loose : e.looseness ≤ 6 → readUpTo e.looseness items = some e.term
  whole : readTerm items = some e.term

/-- An expression that nothing can come between is read if it is read in front of
accessors. -/
theorem Expr.isReadFrom_of_access {e : Expr} {items : List Item} (hloose : e.looseness = 0)
    (hnests : itemsOf e.nests = some items) (htight : Tight 0 items)
    (haccess : ∀ more, readAccess (items ++ more) = readAccessors e.term more) :
    e.IsReadFrom items := by
  have hread : readUpTo 0 items = some e.term := by
    have hend := haccess []
    rw [List.append_nil] at hend
    rw [readUpTo, hend, readAccessors]
  refine ⟨hnests, hloose ▸ htight, fun _ => haccess, fun _ => hloose ▸ hread, ?_⟩
  exact readTerm_of_readUpTo htight hread (Nat.zero_le 6)

theorem Expr.isReadFrom_of_loose {e : Expr} {items : List Item} {n : Nat}
    (hloose : e.looseness = n + 1) (hn : n + 1 ≤ 6) (hnests : itemsOf e.nests = some items)
    (htight : Tight (n + 1) items) (hread : readUpTo (n + 1) items = some e.term) :
    e.IsReadFrom items := by
  refine ⟨hnests, hloose ▸ htight, fun hzero => ?_, fun _ => hloose ▸ hread, ?_⟩
  · omega
  · exact readTerm_of_readUpTo htight hread hn

theorem Expr.IsReadFrom.operand {e : Expr} {items : List Item} (h : e.IsReadFrom items) {n : Nat}
    (hle : e.looseness ≤ n) (hn : n ≤ 6) : readUpTo n items = some e.term ∧ Tight n items :=
  ⟨readUpTo_mono h.tight (h.loose (Nat.le_trans hle hn)) hle, h.tight.mono hle⟩

/-- Items of an expression are never looser than a choice. -/
theorem Expr.IsReadFrom.tight_seven {e : Expr} {items : List Item} (h : e.IsReadFrom items) :
    Tight 7 items := by
  refine h.tight.mono ?_
  cases e with
  | binary operator => cases operator <;> simp [Expr.looseness, BinaryOperator.looseness]
  | _ => simp [Expr.looseness]

theorem Expr.IsReadFrom.ne_nil {e : Expr} {items : List Item} (h : e.IsReadFrom items) :
    items ≠ [] := by
  rintro rfl
  have hwhole := h.whole
  cases hwhole

theorem isReadFrom_binary (op : BinaryOperator) {left right : Expr} {l r : List Item}
    (hl : left.IsReadFrom l) (hr : right.IsReadFrom r)
    (hleft : left.looseness ≤ op.looseness) (hright : right.looseness < op.looseness) :
    (Expr.binary op left right).IsReadFrom (l ++ .token (.mark op.mark) :: r) := by
  obtain ⟨n, hop, hn⟩ : ∃ n, op.looseness = n + 2 ∧ n + 2 ≤ 6 := by
    cases op <;> exact ⟨_, rfl, by decide⟩
  rw [hop] at hleft hright
  obtain ⟨hlread, hltight⟩ := hl.operand hleft hn
  obtain ⟨hrread, hrtight⟩ := hr.operand (Nat.le_of_lt_succ hright) (by omega)
  have hmark : (Item.token (.mark op.mark)).looseness = n + 2 := by
    rw [Item.looseness, operator?_mark, ← hop]
  refine Expr.isReadFrom_of_loose hop hn ?_ ?_ ?_
  · exact itemsOf_append hl.nests (itemsOf_token hr.nests)
  · exact tight_append hltight (tight_cons (Nat.le_of_eq hmark) (hrtight.mono (by omega)))
  · exact readUpTo_operator op hop hrtight hlread hrread

theorem readAccess_primary {item : Item} (hitem : item ≠ .token (.word "function"))
    {t : Term} (hread : readPrimary item = some t) (more : List Item) :
    readAccess (item :: more) = readAccessors t more := by
  rw [readAccess, hread]
  · rfl
  · exact hitem

theorem Expr.isReadFrom_of_primary {e : Expr} {item : Item} (hloose : e.looseness = 0)
    (hnests : itemsOf e.nests = some [item]) (hitem : item.looseness = 0)
    (hkeyword : item ≠ .token (.word "function")) (hread : readPrimary item = some e.term) :
    e.IsReadFrom [item] := by
  refine Expr.isReadFrom_of_access hloose hnests ?_ fun more => ?_
  · exact tight_cons (Nat.le_of_eq hitem) (tight_nil 0)
  · exact readAccess_primary hkeyword hread more

/-- A choice is read with what stands around its two marks. -/
theorem isReadFrom_choose {test t f : Expr} {c l r : List Item} (hc : test.IsReadFrom c)
    (hl : t.IsReadFrom l) (hr : f.IsReadFrom r) (htest : test.looseness ≤ 6)
    (ht : t.looseness ≤ 6) (hf : f.looseness ≤ 6) :
    (Expr.choose test t f).IsReadFrom
      (c ++ .token (.mark "?") :: (l ++ .token (.mark ":") :: r)) := by
  obtain ⟨hcread, hctight⟩ := hc.operand htest (Nat.le_refl 6)
  obtain ⟨hlread, hltight⟩ := hl.operand ht (Nat.le_refl 6)
  obtain ⟨hrread, hrtight⟩ := hr.operand hf (Nat.le_refl 6)
  -- The three operands hold no choice of their own, so that each mark stands there once.
  have hbranches : ∀ item ∈ l ++ .token (.mark ":") :: r, item.isMark "?" = false := by
    intro item hitem
    rcases List.mem_append.mp hitem with hitem | hitem
    · exact hltight.not_isMark (by decide) item hitem
    · rcases List.mem_cons.mp hitem with rfl | hitem
      · rfl
      · exact hrtight.not_isMark (by decide) item hitem
  refine ⟨?_, ?_, fun hzero => ?_, fun hle => ?_, ?_⟩
  · exact itemsOf_append hc.nests (itemsOf_token (itemsOf_append hl.nests (itemsOf_token hr.nests)))
  · have hquestion : (Item.token (.mark "?")).looseness ≤ 7 := by decide
    have hcolon : (Item.token (.mark ":")).looseness ≤ 7 := by decide
    refine tight_append hc.tight_seven (tight_cons hquestion ?_)
    exact tight_append hl.tight_seven (tight_cons hcolon hr.tight_seven)
  · simp [Expr.looseness] at hzero
  · simp [Expr.looseness] at hle
  · have hquestion : 6 < (Item.token (.mark "?")).looseness := by decide
    have hcolon : 6 < (Item.token (.mark ":")).looseness := by decide
    have hfirst := splitAtMark_append (hctight.not_isMark hquestion) (l ++ .token (.mark ":") :: r)
    have hsecond := splitAtMark_append (hltight.not_isMark hcolon) r
    rw [splitAtMark_of_not_isMark hbranches] at hfirst
    rw [splitAtMark_of_not_isMark (hrtight.not_isMark (by decide))] at hsecond
    simp only [readTerm, hfirst, hsecond, hcread, hlread, hrread, Option.bind_eq_bind,
      Option.bind_some, Expr.term]

theorem isReadFrom_var {name : String} (h : isName name = true) :
    (Expr.var name).IsReadFrom [.token (.word name)] := by
  have hfunction : Item.token (.word name) ≠ .token (.word "function") := by
    intro heq
    cases heq
    revert h
    decide
  have htrue : name ≠ "true" := by rintro rfl; revert h; decide
  have hread : readPrimary (.token (.word name)) = some (.name name) := by
    simp [readPrimary, htrue, h]
  exact Expr.isReadFrom_of_primary rfl rfl rfl hfunction hread

/-! ## Groups -/

theorem tight_of_forall₂ {α : Type} {R : α → List Item → Prop} {n : Nat}
    (hpart : ∀ x part, R x part → Tight n part) {xs : List α} {parts : List (List Item)}
    (h : List.Forall₂ R xs parts) : ∀ part ∈ parts, Tight n part := by
  induction h with
  | nil => simp
  | cons hfirst hrest ih =>
      intro part hmem
      rcases List.mem_cons.mp hmem with rfl | hmem
      · exact hpart _ _ hfirst
      · exact ih part hmem

/-- Whether the expressions of a list are read from the parts of a list of items. -/
abbrev AreReadFrom (es : List Expr) (parts : List (List Item)) : Prop :=
  List.Forall₂ Expr.IsReadFrom es parts

theorem AreReadFrom.nests {es : List Expr} {parts : List (List Item)} (h : AreReadFrom es parts) :
    itemsOf (commaNests (nestsOfList es)) = some (commaItems parts) := by
  refine itemsOf_commaNests ?_
  induction h with
  | nil => exact .nil
  | cons hfirst hrest ih => exact .cons hfirst.nests ih

theorem AreReadFrom.readList {es : List Expr} {parts : List (List Item)}
    (h : AreReadFrom es parts) : readList (commaItems parts) = some (termsOfList es) := by
  have hmap : parts.mapM readTerm = some (termsOfList es) := by
    induction h with
    | nil => rfl
    | cons hfirst hrest ih =>
        rw [List.mapM_cons, hfirst.whole, ih]
        rfl
  have htight := tight_of_forall₂ (fun _ _ hread => hread.tight_seven) h
  cases h with
  | nil => rfl
  | @cons e first es rest hfirst hrest =>
      have hne : commaItems (first :: rest) ≠ [] := by
        cases rest <;> simp [commaItems, hfirst.ne_nil]
      rw [Script.readList, splitAtMark_commaItems htight, hmap]
      exact fun hnil => hne hnil

/-! ## Fields and bodies -/

/-- The token that the name of a field is. -/
def FieldName.item : FieldName → Item
  | .bare name => .token (.word name)
  | .quoted name => .token (.text name)

/-- How a field of an object is read from items. -/
def IsFieldReadFrom (field : FieldName × Expr) (part : List Item) : Prop :=
  ∃ items, field.2.IsReadFrom items ∧ part = field.1.item :: .token (.mark ":") :: items

theorem IsFieldReadFrom.tight {field : FieldName × Expr} {part : List Item}
    (h : IsFieldReadFrom field part) : Tight 7 part := by
  obtain ⟨items, hread, rfl⟩ := h
  have hname : field.1.item.looseness ≤ 7 := by
    cases field.1 <;> exact Nat.zero_le 7
  exact tight_cons hname (tight_cons (by decide) hread.tight_seven)

theorem not_isMark_commaItems {spelling : String} (hcomma : spelling ≠ ",")
    {parts : List (List Item)} (h : ∀ part ∈ parts, ∀ item ∈ part, item.isMark spelling = false) :
    ∀ item ∈ commaItems parts, item.isMark spelling = false := by
  induction parts with
  | nil => simp [commaItems]
  | cons first rest ih =>
      have hfirst := h first List.mem_cons_self
      have hrest := ih fun part hpart => h part (List.mem_cons_of_mem first hpart)
      cases rest with
      | nil => exact hfirst
      | cons next rest =>
          intro item hitem
          rcases List.mem_append.mp hitem with hitem | hitem
          · exact hfirst item hitem
          · rcases List.mem_cons.mp hitem with rfl | hitem
            · simpa [Item.isMark] using hcomma.symm
            · exact hrest item hitem

/-- The fields of an object are read between its brackets. -/
theorem readCurly_fields {fields : List (FieldName × Expr)} {parts : List (List Item)}
    (h : List.Forall₂ IsFieldReadFrom fields parts) :
    readCurly (commaItems parts) = some (.fields (termsOfFields fields)) := by
  have htight := tight_of_forall₂ (fun _ _ hread => hread.tight) h
  have hmap : parts.mapM readField = some (termsOfFields fields) := by
    clear htight
    induction h with
    | nil => rfl
    | @cons field part fields parts hfirst hrest ih =>
        obtain ⟨items, hread, rfl⟩ := hfirst
        have hfield : readField (field.1.item :: .token (.mark ":") :: items)
            = some (field.1.name, field.2.term) := by
          cases hname : field.1 <;>
            simp [FieldName.item, readField, Item.isMark, hread.whole, FieldName.name]
        rw [List.mapM_cons, hfield, ih]
        rfl
  cases h with
  | nil => rfl
  | @cons field first fields rest hfirst hrest =>
      have hsemicolon : splitAtMark ";" (commaItems (first :: rest))
          = [commaItems (first :: rest)] :=
        splitAtMark_of_not_isMark <| not_isMark_commaItems (by decide) fun part hpart =>
          (htight part hpart).not_isMark (by decide)
      obtain ⟨items, -, rfl⟩ := hfirst
      -- The name of the first field comes first, so that this is no empty object.
      have hcons : ∃ item items', commaItems ((field.1.item :: .token (.mark ":") :: items) :: rest)
          = item :: items' := by
        cases rest <;> exact ⟨_, _, rfl⟩
      obtain ⟨item, items', hcons⟩ := hcons
      have hparts := splitAtMark_commaItems htight
      rw [hcons] at hsemicolon hparts ⊢
      simp only [readCurly, hsemicolon, hparts, hmap, Option.map_some]

/-- No semicolon stands in a statement that returns a value. -/
theorem Expr.IsReadFrom.not_isMark_return {e : Expr} {items : List Item}
    (h : e.IsReadFrom items) :
    ∀ item ∈ Item.token (.word "return") :: items, item.isMark ";" = false := by
  intro item hitem
  rcases List.mem_cons.mp hitem with rfl | hitem
  · rfl
  · exact h.tight_seven.not_isMark (by decide) item hitem

/-- The body of a function that returns a value is read between its brackets. -/
theorem readCurly_body {e : Expr} {items : List Item} (h : e.IsReadFrom items) :
    readCurly (.token (.word "return") :: (items ++ [.token (.mark ";")]))
      = some (.body e.term) := by
  have hend : splitAtMark ";" [] = [[]] := rfl
  have hsplit := splitAtMark_append h.not_isMark_return []
  rw [List.cons_append, hend] at hsplit
  simp only [readCurly, hsplit, readReturn, h.whole, Option.map_some]

/-- The body of a function that binds a variable first is read between its
brackets. -/
theorem readCurly_boundBody {name : String} (hname : isName name = true) {value result : Expr}
    {v r : List Item} (hv : value.IsReadFrom v) (hr : result.IsReadFrom r) :
    readCurly (.token (.word "var") :: .token (.word name) :: .token (.mark "=") ::
        (v ++ .token (.mark ";") :: .token (.word "return") :: (r ++ [.token (.mark ";")])))
      = some (.boundBody name value.term result.term) := by
  have hvalue : ∀ item ∈ Item.token (.word "var") :: .token (.word name) :: .token (.mark "=") :: v,
      item.isMark ";" = false := by
    intro item hitem
    simp only [List.mem_cons] at hitem
    rcases hitem with rfl | rfl | rfl | hitem
    · rfl
    · rfl
    · rfl
    · exact hv.tight_seven.not_isMark (by decide) item hitem
  -- The only semicolons outside of brackets are the two that end the statements.
  have hfirst := splitAtMark_append hvalue
    (Item.token (.word "return") :: (r ++ [Item.token (.mark ";")]))
  have hsecond := splitAtMark_append hr.not_isMark_return []
  have hend : splitAtMark ";" [] = [[]] := rfl
  rw [List.cons_append, hend] at hsecond
  rw [hsecond] at hfirst
  simp only [List.cons_append] at hfirst
  simp [readCurly, hfirst, readReturn, readBind, hr.whole, hv.whole, hname, Item.isMark]

theorem readGroup_parameters {parameters : List String} (h : parameters.all isName = true) :
    ∃ items content, itemsOf (parameterNests parameters) = some items
      ∧ items = [.token (.word "function"), .round content]
      ∧ parameters? content = some parameters := by
  -- Parameters are read as the variables of their names, so a list of them is an argument list.
  have hread : AreReadFrom (parameters.map .var) (parameters.map fun p => [.token (.word p)]) := by
    rw [AreReadFrom, List.forall₂_map_left_iff, List.forall₂_map_right_iff, List.forall₂_same]
    exact fun p hp => isReadFrom_var (List.all_eq_true.mp h p hp)
  have hnests : nestsOfList (parameters.map .var) = parameters.map fun p => [.token (.word p)] := by
    clear h hread
    induction parameters with
    | nil => rfl
    | cons p parameters ih => rw [List.map_cons, nestsOfList, ih, List.map_cons, Expr.nests]
  have hterms : parameters? (termsOfList (parameters.map .var)) = some parameters := by
    clear h hread hnests
    induction parameters with
    | nil => rfl
    | cons p parameters ih =>
        rw [parameters?] at ih ⊢
        rw [List.map_cons, termsOfList, List.mapM_cons, ih, Expr.term]
        rfl
  have hround : readGroup .round (commaItems (parameters.map fun p => [.token (.word p)]))
      = some (.round (termsOfList (parameters.map .var))) := by
    rw [readGroup, hread.readList]
    rfl
  have hgroup := itemsOf_group hread.nests hround
  rw [hnests] at hgroup
  exact ⟨_, _, itemsOf_token hgroup, rfl, hterms⟩

/-! ## The round trip -/

mutual

theorem exists_isReadFrom (e : Expr) (h : e.Laid) : ∃ items, e.IsReadFrom items := by
  cases e with
  | text value => exact ⟨_, Expr.isReadFrom_of_primary rfl rfl rfl (by simp) rfl⟩
  | emptyText => exact ⟨_, Expr.isReadFrom_of_primary rfl rfl rfl (by simp) rfl⟩
  | yes => exact ⟨_, Expr.isReadFrom_of_primary rfl rfl rfl (by simp) rfl⟩
  | number value => exact ⟨_, Expr.isReadFrom_of_primary rfl rfl rfl (by simp) rfl⟩
  | var name => exact ⟨_, isReadFrom_var h⟩
  | member object name =>
      obtain ⟨hobject, htight, -, -⟩ := h
      obtain ⟨items, hread⟩ := exists_isReadFrom object hobject
      refine ⟨items ++ [.token (.mark "."), .token (.word name)],
        Expr.isReadFrom_of_access rfl ?_ ?_ fun more => ?_⟩
      · exact itemsOf_append hread.nests rfl
      · refine tight_append (htight ▸ hread.tight) ?_
        exact tight_cons (by decide) (tight_cons (Nat.le_refl 0) (tight_nil 0))
      -- The object is read in front of all its accessors, of which this one is the first.
      · rw [List.append_assoc, hread.access htight]
        simp [readAccessors, Expr.term]
  | apply function arguments =>
      obtain ⟨hfunction, htight, harguments⟩ := h
      obtain ⟨items, hread⟩ := exists_isReadFrom function hfunction
      obtain ⟨parts, hparts⟩ := exists_areReadFrom arguments harguments
      have hround : readGroup .round (commaItems parts)
          = some (.round (termsOfList arguments)) := by
        rw [readGroup, hparts.readList]
        rfl
      refine ⟨items ++ [.round (termsOfList arguments)],
        Expr.isReadFrom_of_access rfl ?_ ?_ fun more => ?_⟩
      · exact itemsOf_append hread.nests (itemsOf_group hparts.nests hround)
      · exact tight_append (htight ▸ hread.tight) (tight_cons (Nat.le_refl 0) (tight_nil 0))
      · rw [List.append_assoc, hread.access htight]
        rfl
  | list items =>
      obtain ⟨parts, hparts⟩ := exists_areReadFrom items h
      have hsquare : readGroup .square (commaItems parts) = some (.square (termsOfList items)) := by
        rw [readGroup, hparts.readList]
        rfl
      have hgroup := itemsOf_group hparts.nests hsquare
      exact ⟨_, Expr.isReadFrom_of_primary rfl hgroup rfl (by simp) rfl⟩
  | record fields =>
      obtain ⟨parts, hnests, hparts⟩ := exists_fieldsReadFrom fields h
      have hgroup := itemsOf_group (b := .curly) (itemsOf_commaNests hnests)
        (readCurly_fields hparts)
      exact ⟨_, Expr.isReadFrom_of_primary rfl hgroup rfl (by simp) rfl⟩
  | sum first rest =>
      obtain ⟨hfirst, hloose, hrest⟩ := h
      obtain ⟨items, hread⟩ := exists_isReadFrom first hfirst
      obtain ⟨hleft, htight⟩ := hread.operand (Nat.le_trans hloose (by decide : 1 ≤ 2)) (by decide)
      -- A sum is read from left to right: the first summand is what the others come behind.
      obtain ⟨more, hnests, hmore, hsum⟩ := exists_summandsRead rest hrest items first.term hleft
      refine ⟨items ++ more, Expr.isReadFrom_of_loose rfl (by decide) ?_ ?_ hsum⟩
      · exact itemsOf_append hread.nests hnests
      · exact tight_append htight hmore
  | not operand =>
      obtain ⟨items, hread⟩ := exists_isReadFrom operand h.1
      obtain ⟨hoperand, htight⟩ := hread.operand h.2 (by decide)
      refine ⟨.token (.mark "!") :: items, Expr.isReadFrom_of_loose rfl (by decide) ?_ ?_ ?_⟩
      · exact itemsOf_token hread.nests
      · exact tight_cons (by decide) htight
      · rw [readUpTo] at hoperand
        rw [readUpTo, readSigned, hoperand]
        rfl
  | typeOf operand =>
      obtain ⟨items, hread⟩ := exists_isReadFrom operand h.1
      obtain ⟨hoperand, htight⟩ := hread.operand h.2 (by decide)
      refine ⟨.token (.word "typeof") :: items, Expr.isReadFrom_of_loose rfl (by decide) ?_ ?_ ?_⟩
      · exact itemsOf_token hread.nests
      · exact tight_cons (by decide) htight
      · rw [readUpTo] at hoperand
        rw [readUpTo, readSigned, hoperand]
        rfl
  | binary operator left right =>
      obtain ⟨hl, hr, hleft, hright⟩ := h
      obtain ⟨l, hlread⟩ := exists_isReadFrom left hl
      obtain ⟨r, hrread⟩ := exists_isReadFrom right hr
      exact ⟨_, isReadFrom_binary operator hlread hrread hleft hright⟩
  | choose test t f =>
      obtain ⟨⟨htest, ht, hf⟩, hloose, htloose, hfloose⟩ := h
      obtain ⟨c, hcread⟩ := exists_isReadFrom test htest
      obtain ⟨l, hlread⟩ := exists_isReadFrom t ht
      obtain ⟨r, hrread⟩ := exists_isReadFrom f hf
      exact ⟨_, isReadFrom_choose hcread hlread hrread hloose htloose hfloose⟩
  | paren inner =>
      obtain ⟨items, hread⟩ := exists_isReadFrom inner h
      have hparts : AreReadFrom [inner] [items] := .cons hread .nil
      have hround : readGroup .round (commaItems [items]) = some (.round [inner.term]) := by
        rw [readGroup, hparts.readList]
        rfl
      have hgroup := itemsOf_group hparts.nests hround
      exact ⟨_, Expr.isReadFrom_of_primary rfl hgroup rfl (by simp) rfl⟩
  | function parameters result =>
      obtain ⟨hparameters, hresult⟩ := h
      obtain ⟨items, hread⟩ := exists_isReadFrom result hresult
      obtain ⟨head, content, hhead, rfl, hcontent⟩ := readGroup_parameters hparameters
      have hend : itemsOf [.token (.mark ";")] = some [.token (.mark ";")] := rfl
      have hbody := itemsOf_group (b := .curly)
        (itemsOf_token (itemsOf_append hread.nests hend)) (readCurly_body hread)
      refine ⟨_, Expr.isReadFrom_of_access rfl (itemsOf_append hhead hbody) ?_ fun more => ?_⟩
      · exact tight_cons (Nat.le_refl 0) (tight_cons (Nat.le_refl 0)
          (tight_cons (Nat.le_refl 0) (tight_nil 0)))
      · simp [readAccess, readFunction, hcontent, Expr.term]
  | closure parameters name value result =>
      obtain ⟨hparameters, hname, hvalue, hresult⟩ := h
      obtain ⟨v, hvread⟩ := exists_isReadFrom value hvalue
      obtain ⟨r, hrread⟩ := exists_isReadFrom result hresult
      obtain ⟨head, content, hhead, rfl, hcontent⟩ := readGroup_parameters hparameters
      have hend : itemsOf [.token (.mark ";")] = some [.token (.mark ";")] := rfl
      have hbody := itemsOf_group (b := .curly)
        (itemsOf_token (itemsOf_token (itemsOf_token (itemsOf_append hvread.nests
          (itemsOf_token (itemsOf_token (itemsOf_append hrread.nests hend)))))))
        (readCurly_boundBody hname hvread hrread)
      refine ⟨_, Expr.isReadFrom_of_access rfl (itemsOf_append hhead hbody) ?_ fun more => ?_⟩
      · exact tight_cons (Nat.le_refl 0) (tight_cons (Nat.le_refl 0)
          (tight_cons (Nat.le_refl 0) (tight_nil 0)))
      · simp [readAccess, readFunction, hcontent, Expr.term]

theorem exists_areReadFrom (es : List Expr) (h : AllLaid es) : ∃ parts, AreReadFrom es parts := by
  cases es with
  | nil => exact ⟨[], .nil⟩
  | cons e rest =>
      obtain ⟨items, hread⟩ := exists_isReadFrom e h.1
      obtain ⟨parts, hparts⟩ := exists_areReadFrom rest h.2
      exact ⟨items :: parts, .cons hread hparts⟩

theorem exists_fieldsReadFrom (fields : List (FieldName × Expr)) (h : FieldsLaid fields) :
    ∃ parts, List.Forall₂ (fun ns items => itemsOf ns = some items) (nestsOfFields fields) parts
      ∧ List.Forall₂ IsFieldReadFrom fields parts := by
  cases fields with
  | nil => exact ⟨[], .nil, .nil⟩
  | cons field rest =>
      obtain ⟨name, e⟩ := field
      obtain ⟨items, hread⟩ := exists_isReadFrom e h.1.2
      obtain ⟨parts, hnests, hparts⟩ := exists_fieldsReadFrom rest h.2
      have hfield : itemsOf (name.nest :: .token (.mark ":") :: e.nests)
          = some (name.item :: .token (.mark ":") :: items) := by
        cases name <;> exact itemsOf_token (itemsOf_token hread.nests)
      exact ⟨_, .cons hfield hnests, .cons ⟨items, hread, rfl⟩ hparts⟩

theorem exists_summandsRead (rest : List (Bool × Expr)) (h : SummandsLaid rest)
    (left : List Item) (t : Term) (hleft : readUpTo 2 left = some t) :
    ∃ items, itemsOf (nestsOfSummands rest) = some items ∧ Tight 2 items
      ∧ readUpTo 2 (left ++ items) = some (termOfSum t rest) := by
  cases rest with
  | nil => exact ⟨[], rfl, tight_nil 2, by rw [List.append_nil]; exact hleft⟩
  | cons summand rest =>
      obtain ⟨spaced, e⟩ := summand
      obtain ⟨⟨he, hloose⟩, hrest⟩ := h
      obtain ⟨items, hread⟩ := exists_isReadFrom e he
      obtain ⟨hright, htight⟩ := hread.operand hloose (by decide)
      have hsum := readUpTo_operator .plus (n := 0) rfl htight hleft hright
      obtain ⟨more, hnests, hmore, hterm⟩ := exists_summandsRead rest hrest _ _ hsum
      refine ⟨.token (.mark "+") :: (items ++ more), ?_, ?_, ?_⟩
      · exact itemsOf_token (itemsOf_append hread.nests hnests)
      · exact tight_cons (by decide) (tight_append (htight.mono (by decide)) hmore)
      · rw [List.append_assoc] at hterm
        exact hterm

end

/-- A text that is cut into the tokens of an expression is read as that
expression. -/
theorem read?_of_tokens {e : Expr} (h : e.Laid) {s : List Char}
    (hs : tokens? s = some (tokensOf e.nests)) : read? s = some e.term := by
  obtain ⟨items, hread⟩ := exists_isReadFrom e h
  simp only [read?, hs, nests?_tokensOf (allPlain_nests e), hread.nests, hread.whole,
    Option.bind_eq_bind, Option.bind_some]

theorem read?_text {e : Expr} (h : e.Laid) : read? (text e.pieces) = some e.term := by
  have hclose : Precedes e [] := ⟨rfl, by simp⟩
  have hcut := isCut_of_laid e h [] [] hclose tokens?_nil
  rw [List.append_nil, List.append_nil] at hcut
  exact read?_of_tokens h hcut

end Mustache.Script
