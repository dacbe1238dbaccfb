import Mathlib.Data.List.Induction
import Mustache.Json.RecordReader
import Mustache.Proofs.Json.Records
import Mustache.Proofs.Text.Utf8

/-!
The reader of records that the library brings along.

It keeps what is relied on of any reader (`readRecord_lawful`). It is a machine over tokens, so
this rests on what one member does to it: if the machine gets through a member at all, the name
of the member is a text, and the machine is behind a member again, with no other name seen than
that one (`State.runs_member_inv`).
-/
set_option autoImplicit false

namespace Mustache.Json

open Text

/-! ## Names -/

theorem SpellsItem.names {s : List Char} {members : List (List Nat × Phrase)}
    (h : SpellsItem s (.object members)) :
    ∀ member ∈ members, ∃ name, SpellsUnits name member.1 := by
  have hone {s : List Char} {member : List Nat × Phrase} (h : SpellsMember s member) :
      ∃ name, SpellsUnits name member.1 := by
    cases h with
    | mk _ hname _ _ => exact ⟨_, hname⟩
  have hmore {s : List Char} {members : List (List Nat × Phrase)} (h : SpellsMembers s members) :
      ∀ member ∈ members, ∃ name, SpellsUnits name member.1 := by
    induction members generalizing s with
    | nil => exact fun _ hmember => absurd hmember List.not_mem_nil
    | cons first rest ih =>
        cases h with
        | cons hfirst hrest => exact List.forall_mem_cons.mpr ⟨hone hfirst, ih hrest⟩
  obtain ⟨-, h, -⟩ := h
  cases h with
  | emptyObject => exact fun _ hmember => absurd hmember List.not_mem_nil
  | object hfirst hrest => exact List.forall_mem_cons.mpr ⟨hone hfirst, hmore hrest⟩

theorem hexDigitValue_lt (c : Char) : (hexDigitValue? c).getD 0 < 16 := by
  simp only [hexDigitValue?, Char.isDigit, Bool.and_eq_true, decide_eq_true_eq, Char.le_def,
    UInt32.le_iff_toNat_le, ge_iff_le]
  split_ifs with hdigit hlower hupper
  · have hnine : c.val.toNat ≤ 57 := hdigit.2
    show c.val.toNat - 48 < 16
    omega
  · have hf : c.val.toNat ≤ 102 := hlower.2
    show c.val.toNat - 87 < 16
    omega
  · have hf : c.val.toNat ≤ 70 := hupper.2
    show c.val.toNat - 55 < 16
    omega
  · exact Nat.zero_lt_succ _

/-- The units in a string are below the number behind the last character. -/
theorem SpellsUnits.lt {s : List Char} {units : List Nat} (h : SpellsUnits s units) :
    ∀ unit ∈ units, unit < 0x110000 := by
  induction h with
  | nil => exact fun _ hunit => absurd hunit List.not_mem_nil
  | @plain c _ _ _ _ _ _ ih =>
      refine List.forall_mem_cons.mpr ⟨?_, ih⟩
      rcases c.valid with hlow | ⟨-, hhigh⟩
      · exact Nat.lt_trans hlow (by decide)
      · exact hhigh
  | @escape _ unit _ _ hmem _ ih =>
      refine List.forall_mem_cons.mpr ⟨?_, ih⟩
      have hall : ∀ entry ∈ shortEscapes, entry.2 < 0x110000 := by decide
      exact hall _ hmem
  -- Four digits below sixteen.
  | @numbered a b c d _ _ _ _ ih =>
      refine List.forall_mem_cons.mpr ⟨?_, ih⟩
      have ha := hexDigitValue_lt a
      have hb := hexDigitValue_lt b
      have hc := hexDigitValue_lt c
      have hd := hexDigitValue_lt d
      simp only [hexValue, List.foldl_cons, List.foldl_nil]
      omega

theorem map_eq_ok {ε β γ : Type} {f : β → γ} {result : Except ε β} {c : γ}
    (h : result.map f = .ok c) : ∃ b, result = .ok b ∧ f b = c := by
  cases result with
  | error e => cases h
  | ok b =>
      cases h
      exact ⟨b, rfl, rfl⟩

theorem unitsOf_of_decodeUnits {atEnd : Fault} {units : List Nat} {s : List Char}
    (hunits : ∀ unit ∈ units, unit < 0x110000) (h : decodeUnits atEnd units = .ok s) :
    UnitsOf units s := by
  have hchar {unit : Nat} (hlead : ¬ isLead unit = true) (htrail : ¬ isTrail unit = true)
      (hunit : unit < 0x110000) : (Char.ofNat unit).toNat = unit := by
    simp only [isLead, isTrail, Bool.and_eq_true, decide_eq_true_eq, not_and, Nat.not_lt]
      at hlead htrail
    refine toNat_ofNat_of_valid ?_
    unfold Nat.isValidChar
    omega
  fun_induction decodeUnits atEnd units generalizing s with
  | case1 =>
      cases h
      exact .nil
  -- The last unit is half of a pair.
  | case2 | case3 => cases h
  | case4 unit hlead htrail =>
      cases h
      have hone := UnitsOf.char (c := Char.ofNat unit) .nil
      rwa [hchar hlead htrail (hunits unit List.mem_cons_self)] at hone
  | case5 unit next rest hlead htrail ih =>
      obtain ⟨t, ht, rfl⟩ := map_eq_ok h
      obtain ⟨-, -, hrest⟩ := List.forall_mem_cons.mp hunits |>.imp_right List.forall_mem_cons.mp
      simp only [isLead, isTrail, Bool.and_eq_true, decide_eq_true_eq] at hlead htrail
      have hnumber : (Char.ofNat (0x10000 + 0x400 * (unit - 0xD800) + (next - 0xDC00))).toNat
          = 0x10000 + 0x400 * (unit - 0xD800) + (next - 0xDC00) := by
        refine toNat_ofNat_of_valid ?_
        unfold Nat.isValidChar
        omega
      have hpair := UnitsOf.pair (by rw [hnumber]; omega) (ih hrest ht)
      have hunit : leadOf (0x10000 + 0x400 * (unit - 0xD800) + (next - 0xDC00)) = unit := by
        unfold leadOf
        omega
      have hnext : trailOf (0x10000 + 0x400 * (unit - 0xD800) + (next - 0xDC00)) = next := by
        unfold trailOf
        omega
      rwa [hnumber, hunit, hnext] at hpair
  -- A lead without its trail, or a trail without its lead.
  | case6 | case7 => cases h
  | case8 unit next rest hlead htrail ih =>
      obtain ⟨t, ht, rfl⟩ := map_eq_ok h
      obtain ⟨hunit, hrest⟩ := List.forall_mem_cons.mp hunits
      have hmore := UnitsOf.char (c := Char.ofNat unit) (ih hrest ht)
      rwa [hchar hlead htrail hunit] at hmore

/-- Units spell one text at most. -/
theorem UnitsOf.unique {units : List Nat} {s t : List Char} (hs : UnitsOf units s)
    (ht : UnitsOf units t) : s = t := by
  have htext := hs.stringText
  rw [ht.stringText, Except.ok.injEq, String.ofList_inj] at htext
  exact htext.symm

/-! ## Runs of the reader -/

namespace RecordReading

variable {α : Type} {record : Record α}

/-- Whether tokens take the reader from one state to another. -/
def State.Runs (record : Record α) (state : State α) (tokens : List Token) (next : State α) :
    Prop :=
  tokens.foldlM (State.step record) state = .ok next

section

variable {state between next : State α} {token : Token} {tokens more : List Token}

theorem State.Runs.nil (state : State α) : state.Runs record [] state := rfl

theorem State.runs_nil : state.Runs record [] next ↔ state = next :=
  ⟨fun h => Except.ok.inj h, fun h => h ▸ .nil state⟩

theorem State.runs_cons : state.Runs record (token :: tokens) next
    ↔ ∃ between, state.step record token = .ok between ∧ between.Runs record tokens next := by
  rw [Runs, List.foldlM_cons]
  cases state.step record token with
  | error fault => exact iff_of_false nofun fun ⟨_, h, _⟩ => nomatch h
  | ok between => exact ⟨fun h => ⟨between, rfl, h⟩, fun ⟨_, heq, h⟩ => Except.ok.inj heq ▸ h⟩

theorem State.runs_append : state.Runs record (tokens ++ more) next
    ↔ ∃ between, state.Runs record tokens between ∧ between.Runs record more next := by
  unfold Runs
  rw [List.foldlM_append]
  cases tokens.foldlM (State.step record) state with
  | error fault => exact iff_of_false nofun fun ⟨_, h, _⟩ => nomatch h
  | ok between => exact ⟨fun h => ⟨between, rfl, h⟩, fun ⟨_, heq, h⟩ => Except.ok.inj heq ▸ h⟩

theorem State.Runs.cons (hstep : state.step record token = .ok between)
    (h : between.Runs record tokens next) : state.Runs record (token :: tokens) next :=
  runs_cons.mpr ⟨between, hstep, h⟩

theorem State.Runs.append (h : state.Runs record tokens between)
    (hmore : between.Runs record more next) : state.Runs record (tokens ++ more) next :=
  runs_append.mpr ⟨between, h, hmore⟩

end

/-! ## Skipped values -/

section

variable (record) (draft : Draft α)

/-- No value starts with a closing bracket, so the first item of an array is taken as any
value is. -/
theorem runs_firstItem (opened : List Container) (value : Phrase) {next : State α} :
    State.Runs record (.skip draft (.array :: opened) .firstItem) value.tokens next
      ↔ State.Runs record (.skip draft (.array :: opened) .value) value.tokens next := by
  cases value with
  | array items => cases items <;> exact Iff.rfl
  | object members => cases members <;> exact Iff.rfl
  | _ => exact Iff.rfl

mutual

/-- A value is skipped as a whole. -/
theorem runs_skip (opened : List Container) : ∀ value : Phrase,
    State.Runs record (.skip draft opened .value) value.tokens (afterSkipped draft opened)
  | .null | .bool _ | .number .. | .string _ | .array [] | .object [] => rfl
  | .array (item :: items) => by
      rw [Phrase.tokens]
      have hitem := (runs_firstItem record draft opened item).mpr
        (runs_skip (.array :: opened) item)
      have hclose : State.Runs record (.skip draft (.array :: opened) .afterPart) [.closeArray]
          (afterSkipped draft opened) := rfl
      exact .cons rfl (hitem.append ((runs_skipItems opened items).append hclose))
  | .object ((units, value) :: members) => by
      rw [Phrase.tokens]
      have hvalue := runs_skip (.object :: opened) value
      have hclose : State.Runs record (.skip draft (.object :: opened) .afterPart) [.closeObject]
          (afterSkipped draft opened) := rfl
      exact .cons rfl (.cons rfl (.cons rfl
        (hvalue.append ((runs_skipMembers opened members).append hclose))))

theorem runs_skipItems (opened : List Container) : ∀ items : List Phrase,
    State.Runs record (.skip draft (.array :: opened) .afterPart) (itemsTokens items)
      (.skip draft (.array :: opened) .afterPart)
  | [] => rfl
  | item :: items => by
      rw [itemsTokens]
      exact .cons rfl (.append (runs_skip (.array :: opened) item)
        (runs_skipItems opened items))

theorem runs_skipMembers (opened : List Container) : ∀ members : List (List Nat × Phrase),
    State.Runs record (.skip draft (.object :: opened) .afterPart) (membersTokens members)
      (.skip draft (.object :: opened) .afterPart)
  | [] => rfl
  | (units, value) :: members => by
      rw [membersTokens]
      exact .cons rfl (.cons rfl (.cons rfl (.append (runs_skip (.object :: opened) value)
        (runs_skipMembers opened members))))

end

end

/-! ## Values of fields -/

section

variable {draft : Draft α} {kind : FieldKind α} {value : Phrase}

/-- A value of the kind of a field changes the record as it says. -/
theorem runs_given {change : α → α} (h : kind.GivenBy value change) (draft : Draft α) :
    State.Runs record (.value draft .member kind) value.tokens
      (.afterMember (draft.put change)) := by
  -- A choice is made by its name alone, or by an object with that name; the step is the same.
  have hchoose {variants : List (String × (α → α))} {name : String} {units : List Nat}
      (hlookup : variants.lookup name = some change) (hunits : UnitsOf units name.toList) :
      draft.choose variants units = .ok (draft.put change) := by
    simp only [Draft.choose, hunits.stringText, String.ofList_toList, bind, Except.bind, hlookup]
  cases h with
  | text hunits =>
      refine .cons ?_ (.nil _)
      simp only [State.step, stepValue, hunits.stringText, String.ofList_toList]
      rfl
  | flag => rfl
  | name hlookup hunits =>
      refine .cons ?_ (.nil _)
      simp only [State.step, stepValue, hchoose hlookup hunits]
      rfl
  | @object variants _ _ units hlookup hunits =>
      have hname : State.step record (.choiceName draft .member variants) (.string units)
          = .ok (.choiceColon (draft.put change) .member) := by
        simp only [State.step, hchoose hlookup hunits]
        rfl
      exact .cons rfl (.cons hname rfl)

theorem seen_of_choose {variants : List (String × (α → α))} {units : List Nat}
    {chosen : Draft α} (h : draft.choose variants units = .ok chosen) :
    chosen.seen = draft.seen := by
  rw [Draft.choose] at h
  cases htext : stringText units with
  | error fault =>
      rw [htext] at h
      cases h
  | ok name =>
      simp only [htext, bind, Except.bind] at h
      split at h
      · cases h
        rfl
      · cases h

/-- The first token of a value either ends it or opens the object form of a choice. -/
theorem stepValue_ok {token : Token} {next : State α}
    (h : stepValue draft .member kind token = .ok next) :
    (∃ changed, next = .afterMember changed ∧ changed.seen = draft.seen
        ∧ token ≠ .openArray ∧ token ≠ .openObject)
      ∨ (token = .openObject ∧ ∃ variants, next = .choiceName draft .member variants) := by
  -- Each kind takes one token that fills it, and a choice also the start of an object.
  cases kind with
  | text put =>
      cases token with
      | string units =>
          simp only [stepValue] at h
          cases htext : stringText units <;> rw [htext] at h <;> cases h
          exact .inl ⟨_, rfl, rfl, nofun, nofun⟩
      | _ => cases h
  | flag put =>
      cases token with
      | bool b =>
          cases h
          exact .inl ⟨_, rfl, rfl, nofun, nofun⟩
      | _ => cases h
  | choice variants =>
      cases token with
      | string units =>
          simp only [stepValue] at h
          cases hchoose : draft.choose variants units <;> rw [hchoose] at h <;> cases h
          exact .inl ⟨_, rfl, seen_of_choose hchoose, nofun, nofun⟩
      | openObject =>
          cases h
          exact .inr ⟨rfl, variants, rfl⟩
      | _ => cases h

/-- The object form of a choice holds `null`. -/
theorem State.runs_choiceNull_inv {place : Place α} {more : List Token} {next : State α}
    (h : State.Runs record (.choiceNull draft place) (value.tokens ++ more) next) :
    State.Runs record (.choiceEnd draft place) more next := by
  have hfirst {token : Token} {tokens : List Token} (htoken : token ≠ .null)
      (h : State.Runs record (.choiceNull draft place) (token :: tokens) next) : False := by
    obtain ⟨between, hstep, -⟩ := runs_cons.mp h
    cases token <;> first | exact htoken rfl | cases hstep
  cases value with
  | null =>
      obtain ⟨between, hstep, h⟩ := runs_cons.mp h
      cases hstep
      exact h
  | bool | number | string => exact (hfirst (by exact nofun) h).elim
  | array items => cases items <;> exact (hfirst (by exact nofun) h).elim
  | object members => cases members <;> exact (hfirst (by exact nofun) h).elim

/-- If the reader gets through the value of a field, it is behind a member, and has seen no
more names. -/
theorem State.runs_value_inv {next : State α}
    (h : State.Runs record (.value draft .member kind) value.tokens next) :
    ∃ changed, next = .afterMember changed ∧ changed.seen = draft.seen := by
  have hone {token : Token} (hopen : token ≠ .openObject)
      (h : State.Runs record (.value draft .member kind) [token] next) :
      ∃ changed, next = .afterMember changed ∧ changed.seen = draft.seen := by
    obtain ⟨between, hstep, hnil⟩ := runs_cons.mp h
    obtain rfl := runs_nil.mp hnil
    rcases stepValue_ok hstep with ⟨changed, hnext, hseen, -⟩ | ⟨htoken, -⟩
    · exact ⟨changed, hnext, hseen⟩
    · exact absurd htoken hopen
  have hnoArray {tokens : List Token}
      (h : State.Runs record (.value draft .member kind) (.openArray :: tokens) next) : False := by
    obtain ⟨between, hstep, -⟩ := runs_cons.mp h
    rcases stepValue_ok hstep with ⟨-, -, -, harray, -⟩ | ⟨htoken, -⟩
    · exact harray rfl
    · cases htoken
  have hobject {tokens : List Token}
      (h : State.Runs record (.value draft .member kind) (.openObject :: tokens) next) :
      ∃ variants, State.Runs record (.choiceName draft .member variants) tokens next := by
    obtain ⟨between, hstep, h⟩ := runs_cons.mp h
    rcases stepValue_ok hstep with ⟨-, -, -, -, hopen⟩ | ⟨-, variants, rfl⟩
    · exact absurd rfl hopen
    · exact ⟨variants, h⟩
  -- A value of one token is taken or refused at once, no field takes an array, and an object has
  -- to be a choice: one name, null behind it, and no more members.
  match value, h with
  | .null, h | .bool _, h | .number .., h | .string _, h => exact hone (by exact nofun) h
  | .array [], h | .array (_ :: _), h => exact (hnoArray h).elim
  | .object [], h =>
      obtain ⟨variants, h⟩ := hobject h
      obtain ⟨_, hclose, -⟩ := runs_cons.mp h
      cases hclose
  | .object ((units, inner) :: members), h =>
      rw [Phrase.tokens] at h
      obtain ⟨variants, h⟩ := hobject h
      obtain ⟨between, hname, h⟩ := runs_cons.mp h
      simp only [State.step] at hname
      cases hchoose : draft.choose variants units with
      | error fault =>
          rw [hchoose] at hname
          cases hname
      | ok chosen =>
          rw [hchoose] at hname
          cases hname
          obtain ⟨between, hcolon, h⟩ := runs_cons.mp h
          cases hcolon
          have hend := runs_choiceNull_inv h
          cases members with
          | nil =>
              obtain ⟨between, hclose, hnil⟩ := runs_cons.mp hend
              cases hclose
              exact ⟨chosen, (runs_nil.mp hnil).symm, seen_of_choose hchoose⟩
          | cons other members =>
              rw [membersTokens, List.cons_append] at hend
              obtain ⟨_, hcomma, -⟩ := runs_cons.mp hend
              cases hcomma

end

/-! ## Members -/

section

variable {draft : Draft α} {state : State α} {units : List Nat} {value : Phrase}

/-- A name is taken the same way behind an opened object and behind a comma. -/
theorem step_name (hstate : state = .firstName draft ∨ state = .name draft) (units : List Nat) :
    state.step record (.string units) = stepName record draft (.string units) := by
  rcases hstate with rfl | rfl <;> rfl

theorem runs_field (hstate : state = .firstName draft ∨ state = .name draft) {field : Field α}
    {change : α → α} (hunits : UnitsOf units field.name.toList)
    (hfield : record.field? field.name = some field) (hgiven : field.kind.GivenBy value change)
    (hseen : field.name ∉ draft.seen) :
    state.Runs record (.string units :: .colon :: value.tokens)
      (.afterMember ⟨change draft.value, field.name :: draft.seen⟩) := by
  have hname : stepName record draft (.string units)
      = .ok (.colon { draft with seen := field.name :: draft.seen } (some field)) := by
    simp only [stepName, hunits.stringText, String.ofList_toList, bind, Except.bind, hfield,
      if_neg hseen]
  exact .cons ((step_name hstate units).trans hname) (.cons rfl (runs_given hgiven _))

theorem runs_unknown (hstate : state = .firstName draft ∨ state = .name draft) {name : String}
    (hunits : UnitsOf units name.toList) (hfield : record.field? name = none) (value : Phrase) :
    state.Runs record (.string units :: .colon :: value.tokens) (.afterMember draft) := by
  have hname : stepName record draft (.string units) = .ok (.colon draft none) := by
    simp only [stepName, hunits.stringText, String.ofList_toList, bind, Except.bind, hfield]
  exact .cons ((step_name hstate units).trans hname) (.cons rfl (runs_skip record draft [] value))

/-- If the reader gets through a member, the name of the member is a text, the reader is behind
a member, and it has seen no other names than before and this one. -/
theorem State.runs_member_inv (hstate : state = .firstName draft ∨ state = .name draft)
    (hvalid : ∀ unit ∈ units, unit < 0x110000) {next : State α}
    (h : state.Runs record (.string units :: .colon :: value.tokens) next) :
    ∃ name changed, UnitsOf units name ∧ next = .afterMember changed
      ∧ ∀ seen ∈ changed.seen, seen = String.ofList name ∨ seen ∈ draft.seen := by
  obtain ⟨between, hname, h⟩ := runs_cons.mp h
  rw [step_name hstate] at hname
  simp only [stepName] at hname
  cases htext : stringText units with
  | error fault =>
      rw [htext] at hname
      cases hname
  | ok text =>
      obtain ⟨name, hdecoded, rfl⟩ := map_eq_ok htext
      have hunits := unitsOf_of_decodeUnits hvalid hdecoded
      simp only [htext, bind, Except.bind] at hname
      obtain ⟨between', hcolon, h⟩ := runs_cons.mp h
      -- A name of no field is noted nowhere, and its value skipped. A field notes its name and
      -- takes the value.
      cases hfield : record.field? (String.ofList name) with
      | none =>
          rw [hfield] at hname
          cases hname
          cases hcolon
          have hskip := runs_skip record draft [] value
          have hnext : next = .afterMember draft := Except.ok.inj (h.symm.trans hskip)
          exact ⟨name, draft, hunits, hnext, fun _ hseen => .inr hseen⟩
      | some field =>
          simp only [hfield] at hname
          split_ifs at hname with hseen
          cases hname
          cases hcolon
          obtain ⟨changed, hnext, hsame⟩ := runs_value_inv h
          have hfieldName : field.name = String.ofList name := by
            have hfound := List.find?_some hfield
            simpa using hfound
          refine ⟨name, changed, hunits, hnext, fun seen hmem => ?_⟩
          rw [hsame, List.mem_cons, hfieldName] at hmem
          exact hmem

end

/-! ## Objects -/

/-- The tokens of an object up to its end. -/
def front : List (List Nat × Phrase) → List Token
  | [] => [.openObject]
  | (units, value) :: members =>
      .openObject :: .string units :: .colon :: (value.tokens ++ membersTokens members)

/-- What separates a member from those before it. -/
def separator : List (List Nat × Phrase) → List Token
  | [] => []
  | _ :: _ => [.comma]

/-- Where the reader is behind members. -/
def behind (draft : Draft α) : List (List Nat × Phrase) → State α
  | [] => .firstName draft
  | _ :: _ => .afterMember draft

theorem tokens_object (members : List (List Nat × Phrase)) :
    (Phrase.object members).tokens = front members ++ [.closeObject] := by
  cases members with
  | nil => rfl
  | cons first rest => simp [Phrase.tokens, front]

theorem membersTokens_append (members more : List (List Nat × Phrase)) :
    membersTokens (members ++ more) = membersTokens members ++ membersTokens more := by
  induction members with
  | nil => rfl
  | cons first rest ih => simp [membersTokens, ih]

theorem front_concat (members : List (List Nat × Phrase)) (units : List Nat) (value : Phrase) :
    front (members ++ [(units, value)])
      = front members ++ (separator members ++ .string units :: .colon :: value.tokens) := by
  cases members with
  | nil => simp [front, separator, membersTokens]
  | cons first rest => simp [front, separator, membersTokens_append, membersTokens]

theorem behind_concat (draft : Draft α) (members : List (List Nat × Phrase))
    (last : List Nat × Phrase) : behind draft (members ++ [last]) = .afterMember draft := by
  cases members <;> rfl

theorem exists_runs_separator (record : Record α) (draft : Draft α)
    (members : List (List Nat × Phrase)) :
    ∃ state : State α, (state = .firstName draft ∨ state = .name draft) ∧ ∀ tokens next,
      (behind draft members).Runs record (separator members ++ tokens) next
        ↔ state.Runs record tokens next := by
  cases members with
  | nil => exact ⟨_, .inl rfl, fun _ _ => Iff.rfl⟩
  | cons => exact ⟨_, .inr rfl, fun _ _ => Iff.rfl⟩

/-- Whether a draft is one behind members: their names are texts, and no other names were
seen. -/
structure Draft.Follows (draft : Draft α) (members : List (List Nat × Phrase)) : Prop where
  names : ∀ member ∈ members, ∃ name, UnitsOf member.1 name
  seen : ∀ seen ∈ draft.seen, ∃ member ∈ members, UnitsOf member.1 seen.toList

theorem Draft.Follows.concat {draft : Draft α} {members : List (List Nat × Phrase)}
    (h : draft.Follows members) {units : List Nat} {name : List Char} (hname : UnitsOf units name)
    (value : Phrase) : draft.Follows (members ++ [(units, value)]) where
  names :=
    List.forall_mem_append.mpr ⟨h.names, List.forall_mem_singleton.mpr ⟨name, hname⟩⟩
  seen seen hmem := by
    obtain ⟨member, hmember, hspelled⟩ := h.seen seen hmem
    exact ⟨member, List.mem_append_left _ hmember, hspelled⟩

/-- If the reader gets through the members of an object, its draft is one behind them. -/
theorem State.runs_front_inv {members : List (List Nat × Phrase)} {next : State α}
    (hvalid : ∀ member ∈ members, ∀ unit ∈ member.1, unit < 0x110000)
    (h : State.start.Runs record (front members) next) :
    ∃ draft : Draft α, draft.Follows members ∧ next = behind draft members := by
  induction members using List.reverseRecOn generalizing next with
  | nil =>
      obtain ⟨between, hopen, hnil⟩ := runs_cons.mp h
      cases hopen
      refine ⟨.initial record, ⟨nofun, nofun⟩, (runs_nil.mp hnil).symm⟩
  | append_singleton members last ih =>
      obtain ⟨units, value⟩ := last
      rw [front_concat, runs_append] at h
      obtain ⟨between, hfront, hlast⟩ := h
      obtain ⟨hbefore, hunits⟩ := List.forall_mem_append.mp hvalid
      obtain ⟨draft, hfollows, rfl⟩ := ih hbefore hfront
      obtain ⟨state, hstate, hseparator⟩ := exists_runs_separator record draft members
      obtain ⟨name, changed, hname, hnext, hseen⟩ :=
        runs_member_inv hstate (hunits _ List.mem_cons_self) ((hseparator _ _).mp hlast)
      have hmore := hfollows.concat hname value
      refine ⟨changed, ⟨hmore.names, fun seen hmem => ?_⟩,
        hnext.trans (behind_concat _ _ _).symm⟩
      -- What was seen besides the name was seen in front of it.
      rcases hseen seen hmem with rfl | hold
      · refine ⟨_, List.mem_append_right _ List.mem_cons_self, ?_⟩
        rw [String.toList_ofList]
        exact hname
      · exact hmore.seen seen hold

theorem readRecord_eq_ok {s : List Char} {current : α} :
    readRecord record s = .ok current ↔ State.start.Runs record (tokens s) (.done current) := by
  rw [readRecord, State.Runs]
  cases (tokens s).foldlM (State.step record) .start with
  | error fault => exact iff_of_false nofun nofun
  | ok state =>
      rw [Except.ok.injEq]
      show state.finish = _ ↔ _
      cases state <;> simp [State.finish]

/-- The reader reads an object as the draft that it has behind the members. -/
theorem readRecord_object {s : List Char} {members : List (List Nat × Phrase)} {current : α}
    (hs : SpellsItem s (.object members)) :
    readRecord record s = .ok current ↔ ∃ draft : Draft α, draft.Follows members
      ∧ State.start.Runs record (front members) (behind draft members)
      ∧ draft.value = current := by
  have hvalid : ∀ member ∈ members, ∀ unit ∈ member.1, unit < 0x110000 := fun member hmember => by
    obtain ⟨name, hname⟩ := hs.names member hmember
    exact hname.lt
  have hclose (draft : Draft α) : (behind draft members).Runs record [.closeObject]
      (.done draft.value) := by
    cases members <;> rfl
  rw [readRecord_eq_ok, hs.tokens_eq, tokens_object, State.runs_append]
  constructor
  · rintro ⟨between, hfront, hend⟩
    obtain ⟨draft, hfollows, rfl⟩ := State.runs_front_inv hvalid hfront
    have hdone : State.done draft.value = .done current :=
      Except.ok.inj ((hclose draft).symm.trans hend)
    exact ⟨draft, hfollows, hfront, State.done.inj hdone⟩
  · rintro ⟨draft, -, hfront, rfl⟩
    exact ⟨_, hfront, hclose draft⟩

end RecordReading

open RecordReading

/-- The reader of the library keeps what is relied on. -/
theorem readRecord_lawful : RecordReader.Lawful readRecord where
  empty record s hs :=
    (readRecord_object hs).mpr ⟨.initial record, ⟨nofun, nofun⟩, rfl, rfl⟩
  field record s t members units value current field change hs hcurrent ht hunits hfield hnew
      hgiven := by
    obtain ⟨draft, hfollows, hfront, rfl⟩ := (readRecord_object hs).mp hcurrent
    obtain ⟨state, hstate, hseparator⟩ := exists_runs_separator record draft members
    have hseen : field.name ∉ draft.seen := fun hmem => by
      obtain ⟨member, hmember, hspelled⟩ := hfollows.seen _ hmem
      exact hnew member hmember hspelled
    have hmore := hfollows.concat hunits value
    refine (readRecord_object ht).mpr ⟨⟨change draft.value, field.name :: draft.seen⟩,
      ⟨hmore.names, List.forall_mem_cons.mpr ⟨?_, hmore.seen⟩⟩, ?_, rfl⟩
    · exact ⟨_, List.mem_append_right _ List.mem_cons_self, hunits⟩
    · rw [front_concat, behind_concat]
      exact hfront.append ((hseparator _ _).mpr (runs_field hstate hunits hfield hgiven hseen))
  unknown record s t members units value current name hs hcurrent ht hunits hfield := by
    obtain ⟨draft, hfollows, hfront, rfl⟩ := (readRecord_object hs).mp hcurrent
    obtain ⟨state, hstate, hseparator⟩ := exists_runs_separator record draft members
    refine (readRecord_object ht).mpr ⟨draft, hfollows.concat hunits value, ?_, rfl⟩
    rw [front_concat, behind_concat]
    exact hfront.append ((hseparator _ _).mpr (runs_unknown hstate hunits hfield value))
  names record s members current hs hcurrent := by
    obtain ⟨draft, hfollows, -⟩ := (readRecord_object hs).mp hcurrent
    exact hfollows.names

end Mustache.Json
