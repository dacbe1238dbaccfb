import Mathlib.Data.List.Induction
import Mathlib.Data.List.Nodup
import Mustache.Json.Printer
import Mustache.Options.Basic
import Mustache.Proofs.Json.RecordReader

/-!
Options that are read from JSON text.

A setting is one option with a value for it. Each member of an object gives a setting, or gives
none because its name is no option's (`MembersGive`). The reader of records is not part of the
library, but of any that keeps what is relied on (`RecordReader.Lawful`) the text of an object
is read as the default options, overridden by what its members give, in whatever order they
come (`read_overrides_default`). A name has to be a text, even that of a member which is
ignored (`read_error_of_loneLead`).
-/
set_option autoImplicit false

namespace Mustache.Options

open Json

/-! ## Settings -/

/-- An option with a value for it. -/
inductive Setting where
  | target (value : Target)
  | invertedPolicy (value : InvertedPolicy)
  | sectionCallable (value : SectionCallable)
  | partialExtension (value : String)
  | verifyOutput (value : Bool)
  deriving DecidableEq, Repr

namespace Setting

def field : Setting → OptionField
  | .target _ => .target
  | .invertedPolicy _ => .invertedPolicy
  | .sectionCallable _ => .sectionCallable
  | .partialExtension _ => .partialExtension
  | .verifyOutput _ => .verifyOutput

/-- The name of the value, if the option is a choice. -/
def choice? : Setting → Option String
  | .target value => some value.name
  | .invertedPolicy value => some value.name
  | .sectionCallable value => some value.name
  | .partialExtension _ | .verifyOutput _ => none

def apply (options : Options) : Setting → Options
  | .target value => { options with target := value }
  | .invertedPolicy value => { options with invertedPolicy := value }
  | .sectionCallable value => { options with sectionCallable := value }
  | .partialExtension value => { options with partialExtension := value }
  | .verifyOutput value => { options with verifyOutput := value }

end Setting

def setting (options : Options) : OptionField → Setting
  | .target => .target options.target
  | .invertedPolicy => .invertedPolicy options.invertedPolicy
  | .sectionCallable => .sectionCallable options.sectionCallable
  | .partialExtension => .partialExtension options.partialExtension
  | .verifyOutput => .verifyOutput options.verifyOutput

@[simp] theorem field_setting (options : Options) (field : OptionField) :
    (options.setting field).field = field := by
  cases field <;> rfl

theorem eq_of_setting {options options' : Options}
    (h : ∀ field, options.setting field = options'.setting field) : options = options' := by
  have htarget := h .target
  have hpolicy := h .invertedPolicy
  have hcallable := h .sectionCallable
  have hextension := h .partialExtension
  have hverify := h .verifyOutput
  cases options
  cases options'
  simp_all [setting]

theorem setting_apply (options : Options) (given : Setting) (field : OptionField) :
    (given.apply options).setting field
      = if field = given.field then given else options.setting field := by
  cases given <;> cases field <;> rfl

/-- Whether options are the default ones, overridden by the given settings. -/
def Overridden (given : List Setting) (options : Options) : Prop :=
  (∀ one ∈ given, options.setting one.field = one)
    ∧ ∀ field ∉ given.map Setting.field, options.setting field = Options.default.setting field

/-- What is overridden is determined. -/
theorem Overridden.unique {given given' : List Setting} {options options' : Options}
    (h : Overridden given options) (h' : Overridden given' options')
    (hsame : ∀ one, one ∈ given ↔ one ∈ given') : options = options' := by
  refine eq_of_setting fun field => ?_
  by_cases hfield : field ∈ given.map Setting.field
  · obtain ⟨one, hone, rfl⟩ := List.mem_map.mp hfield
    rw [h.1 one hone, h'.1 one ((hsame one).mp hone)]
  · have hfield' : field ∉ given'.map Setting.field := fun hmem => by
      obtain ⟨one, hone, rfl⟩ := List.mem_map.mp hmem
      exact hfield (List.mem_map_of_mem ((hsame one).mpr hone))
    rw [h.2 field hfield, h'.2 field hfield']

theorem setting_foldl_of_notMem (given : List Setting) (options : Options) {field : OptionField}
    (h : field ∉ given.map Setting.field) :
    (given.foldl Setting.apply options).setting field = options.setting field := by
  induction given generalizing options with
  | nil => rfl
  | cons one given ih =>
      rw [List.map_cons, List.mem_cons, not_or] at h
      rw [List.foldl_cons, ih _ h.2, setting_apply, if_neg h.1]

/-- Settings of different options override as they are put one after another. -/
theorem overridden_foldl {given : List Setting} (h : (given.map Setting.field).Nodup) :
    Overridden given (given.foldl Setting.apply .default) := by
  refine ⟨?_, fun field hfield => setting_foldl_of_notMem given .default hfield⟩
  suffices hall : ∀ options : Options, ∀ one ∈ given,
      (given.foldl Setting.apply options).setting one.field = one from hall .default
  induction given with
  | nil => intro _ _ hone; cases hone
  | cons first given ih =>
      obtain ⟨hfirst, hrest⟩ := List.nodup_cons.mp h
      intro options one hone
      rw [List.foldl_cons]
      rcases List.mem_cons.mp hone with rfl | hone
      · rw [setting_foldl_of_notMem given _ hfirst, setting_apply, if_pos rfl]
      · exact ih hrest _ one hone

/-! ## Members that give settings -/

/-- Whether a phrase gives a setting. A choice is given by its name, which may also be the name
of the one member of an object, with `null` as its value. -/
inductive Setting.GivenBy : Setting → Phrase → Prop
  | name {one : Setting} {name : String} {units : List Nat} : one.choice? = some name →
      UnitsOf units name.toList → Setting.GivenBy one (.string units)
  | object {one : Setting} {name : String} {units : List Nat} : one.choice? = some name →
      UnitsOf units name.toList → Setting.GivenBy one (.object [(units, .null)])
  | text {value : String} {units : List Nat} : UnitsOf units value.toList →
      Setting.GivenBy (.partialExtension value) (.string units)
  | flag {value : Bool} : Setting.GivenBy (.verifyOutput value) (.bool value)

/-- Whether members give settings, in their order. A member whose name is the name of no option
gives nothing, whatever its value is. -/
inductive MembersGive : List (List Nat × Phrase) → List Setting → Prop
  | nil : MembersGive [] []
  | known {units : List Nat} {value : Phrase} {one : Setting}
      {members : List (List Nat × Phrase)} {given : List Setting} :
      UnitsOf units one.field.name.toList → one.GivenBy value → MembersGive members given →
      MembersGive ((units, value) :: members) (one :: given)
  | unknown {units : List Nat} {value : Phrase} {name : String}
      {members : List (List Nat × Phrase)} {given : List Setting} :
      UnitsOf units name.toList → (∀ field : OptionField, field.name ≠ name) →
      MembersGive members given → MembersGive ((units, value) :: members) given

theorem MembersGive.perm {members members' : List (List Nat × Phrase)} {given : List Setting}
    (h : MembersGive members given) (hperm : members.Perm members') :
    ∃ given', MembersGive members' given' ∧ given.Perm given' := by
  induction hperm generalizing given with
  | nil => exact ⟨given, h, .refl _⟩
  | cons _ _ ih =>
      cases h with
      | known hunits hgiven h =>
          obtain ⟨given', h', hsame⟩ := ih h
          exact ⟨_, .known hunits hgiven h', hsame.cons _⟩
      | unknown hunits hother h =>
          obtain ⟨given', h', hsame⟩ := ih h
          exact ⟨given', .unknown hunits hother h', hsame⟩
  -- Two settings change places with their members; a member that is none just moves.
  | swap _ _ _ =>
      cases h with
      | known hunits hgiven h =>
          cases h with
          | known hunits' hgiven' h =>
              exact ⟨_, .known hunits' hgiven' (.known hunits hgiven h), .swap _ _ _⟩
          | unknown hunits' hother' h =>
              exact ⟨_, .unknown hunits' hother' (.known hunits hgiven h), .refl _⟩
      | unknown hunits hother h =>
          cases h with
          | known hunits' hgiven' h =>
              exact ⟨_, .known hunits' hgiven' (.unknown hunits hother h), .refl _⟩
          | unknown hunits' hother' h =>
              exact ⟨_, .unknown hunits' hother' (.unknown hunits hother h), .refl _⟩
  | trans _ _ ih ih' =>
      obtain ⟨given', h', hsame⟩ := ih h
      obtain ⟨given'', h'', hsame'⟩ := ih' h'
      exact ⟨given'', h'', hsame.trans hsame'⟩

/-- A name that gives no setting of an option is not the name of that option. -/
theorem MembersGive.not_named {members : List (List Nat × Phrase)} {given : List Setting}
    (h : MembersGive members given) {field : OptionField}
    (hfield : field ∉ given.map Setting.field) :
    ∀ member ∈ members, ¬ UnitsOf member.1 field.name.toList := by
  have hsame {units : List Nat} {name other : String} (hname : UnitsOf units name.toList)
      (hother : UnitsOf units other.toList) : name = other :=
    String.toList_inj.mp (hname.unique hother)
  induction h with
  | nil => exact fun _ hmember => absurd hmember List.not_mem_nil
  | known hunits _ _ ih =>
      rw [List.map_cons, List.mem_cons, not_or] at hfield
      exact List.forall_mem_cons.mpr
        ⟨fun hnamed => hfield.1 (OptionField.name_injective (hsame hnamed hunits)), ih hfield.2⟩
  | unknown hunits hother _ ih =>
      exact List.forall_mem_cons.mpr
        ⟨fun hnamed => hother field (hsame hnamed hunits), ih hfield⟩

/-- What members with one more at the end give, they give before it, and then what the last one
gives. -/
theorem MembersGive.concat_inv {members : List (List Nat × Phrase)} {units : List Nat}
    {value : Phrase} {given : List Setting}
    (h : MembersGive (members ++ [(units, value)]) given) :
    (∃ one before, given = before ++ [one] ∧ MembersGive members before
        ∧ UnitsOf units one.field.name.toList ∧ one.GivenBy value)
      ∨ ∃ name : String, MembersGive members given ∧ UnitsOf units name.toList
        ∧ ∀ field : OptionField, field.name ≠ name := by
  induction members generalizing given with
  | nil =>
      cases h with
      | known hunits hgiven hnil =>
          cases hnil
          exact .inl ⟨_, [], rfl, .nil, hunits, hgiven⟩
      | unknown hunits hother hnil => exact .inr ⟨_, hnil, hunits, hother⟩
  | cons first rest ih =>
      cases h with
      | known hunits hgiven hrest =>
          rcases ih hrest with ⟨one, before, rfl, hbefore, hlast⟩ | ⟨name, hbefore, hlast⟩
          · exact .inl ⟨one, _, rfl, .known hunits hgiven hbefore, hlast⟩
          · exact .inr ⟨name, .known hunits hgiven hbefore, hlast⟩
      | unknown hunits hother hrest =>
          rcases ih hrest with ⟨one, before, rfl, hbefore, hlast⟩ | ⟨name, hbefore, hlast⟩
          · exact .inl ⟨one, _, rfl, .unknown hunits hother hbefore, hlast⟩
          · exact .inr ⟨name, .unknown hunits hother hbefore, hlast⟩

/-! ## Options as a record -/

/-- An option as a field of the record. -/
def fieldOf (field : OptionField) : Json.Field Options := ⟨field.name, field.kind⟩

theorem declared_field? (field : OptionField) :
    declared.field? (fieldOf field).name = some (fieldOf field) := by
  cases field <;> rfl

theorem declared_field?_eq_none {name : String} (h : ∀ field : OptionField, field.name ≠ name) :
    declared.field? name = none := by
  refine List.find?_eq_none.mpr fun field hfield => ?_
  obtain ⟨option, -, rfl⟩ := List.mem_map.mp hfield
  simpa using h option

/-- The name of a choice stands among the names of its option, with what sets it. -/
theorem Setting.lookup_choice {one : Setting} {name : String} (h : one.choice? = some name) :
    ∃ variants, (fieldOf one.field).kind = .choice variants
      ∧ variants.lookup name = some fun options => one.apply options := by
  cases one with
  | target value | invertedPolicy value | sectionCallable value =>
      cases h
      exact ⟨_, rfl, by cases value <;> rfl⟩
  | partialExtension | verifyOutput => cases h

/-- A value that gives a setting is one of the kind of its option, and sets it. -/
theorem Setting.GivenBy.kind {one : Setting} {value : Phrase} (h : one.GivenBy value) :
    (fieldOf one.field).kind.GivenBy value fun options => one.apply options := by
  cases h with
  | name hchoice hunits =>
      obtain ⟨variants, hkind, hlookup⟩ := lookup_choice hchoice
      rw [hkind]
      exact .name hlookup hunits
  | object hchoice hunits =>
      obtain ⟨variants, hkind, hlookup⟩ := lookup_choice hchoice
      rw [hkind]
      exact .object hlookup hunits
  | text hunits => exact .text hunits
  | flag => exact .flag

/-! ## Texts -/

section

variable {reader : RecordReader} (hreader : reader.Lawful)

include hreader

/-- The text of an object is read as the settings that its members give. -/
theorem read_of_members {s : List Char} {members : List (List Nat × Phrase)}
    {given : List Setting} (hs : SpellsItem s (.object members)) (h : MembersGive members given)
    (hdistinct : (given.map Setting.field).Nodup) :
    Options.read reader s = .ok (given.foldl Setting.apply .default) := by
  -- From the right, since what is relied on is said of the last member of an object.
  induction members using List.reverseRecOn generalizing s given with
  | nil =>
      cases h
      exact hreader.empty declared hs
  | append_singleton members last ih =>
      obtain ⟨units, value⟩ := last
      obtain ⟨front, hfront⟩ := hs.exists_init
      rcases h.concat_inv with ⟨one, before, rfl, hbefore, hunits, hgiven⟩
        | ⟨name, hbefore, hunits, hother⟩
      · rw [List.map_append, List.map_singleton] at hdistinct
        have hnew : one.field ∉ before.map Setting.field := fun hmem =>
          (List.nodup_append.mp hdistinct).2.2 _ hmem _ List.mem_cons_self rfl
        rw [List.foldl_append]
        have hbefore' := ih hfront hbefore hdistinct.of_append_left
        exact hreader.field declared hfront hbefore' hs hunits (declared_field? one.field)
          (hbefore.not_named hnew) hgiven.kind
      · exact hreader.unknown declared hfront (ih hfront hbefore hdistinct) hs hunits
          (declared_field?_eq_none hother)

/-- A text that gives every setting of some options is read as these options. -/
theorem read_of_settings {s : List Char} {members : List (List Nat × Phrase)}
    {given : List Setting} {options : Options} (hs : SpellsItem s (.object members))
    (h : MembersGive members given)
    (hgiven : given.Perm (OptionField.all.map options.setting)) :
    Options.read reader s = .ok options := by
  have hfields : (given.map Setting.field).Perm OptionField.all := by
    have hmap := hgiven.map Setting.field
    have hid : Setting.field ∘ options.setting = id := funext (field_setting options)
    rwa [List.map_map, hid, List.map_id] at hmap
  have hdistinct := hfields.nodup_iff.mpr (by decide)
  have hoverridden := overridden_foldl hdistinct
  rw [read_of_members hreader hs h hdistinct]
  refine congrArg Except.ok (eq_of_setting fun field => ?_)
  have hmem : options.setting field ∈ given :=
    hgiven.mem_iff.mpr (List.mem_map_of_mem field.mem_all)
  have hsetting := hoverridden.1 _ hmem
  rwa [field_setting] at hsetting

end

theorem spells_fieldJson (options : Options) (field : OptionField) :
    ∃ value, Json.Spells (options.fieldJson field).text value
      ∧ (options.setting field).GivenBy value := by
  cases field with
  | verifyOutput =>
      refine ⟨.bool options.verifyOutput, ?_, .flag⟩
      rw [fieldJson, Value.text]
      cases options.verifyOutput
      · exact .false
      · exact .true
  | partialExtension => exact ⟨_, spells_quoted _, .text (unitsOf_map_toNat _)⟩
  | _ => exact ⟨_, spells_quoted _, .name rfl (unitsOf_map_toNat _)⟩

theorem writes_fields (options : Options) (fields : List OptionField) :
    ∃ members, List.Forall₂ Writes
        (fields.map fun field => (field.name, options.fieldJson field)) members
      ∧ MembersGive members (fields.map options.setting) := by
  induction fields with
  | nil => exact ⟨[], .nil, .nil⟩
  | cons field fields ih =>
      obtain ⟨members, hwrites, hgive⟩ := ih
      obtain ⟨value, hspells, hgiven⟩ := spells_fieldJson options field
      have hname : UnitsOf (field.name.toList.map Char.toNat)
          (options.setting field).field.name.toList := by
        rw [field_setting]
        exact unitsOf_map_toNat _
      exact ⟨(_, value) :: members, .cons ⟨rfl, hspells⟩ hwrites, .known hname hgiven hgive⟩

/-- The options in the order of their names. -/
def sortedFields : List OptionField :=
  [.invertedPolicy, .partialExtension, .sectionCallable, .target, .verifyOutput]

/-- An object is written in the order of its names, not in that of the options. -/
theorem toJson_eq_obj (options : Options) :
    options.toJson
      = .obj (sortedFields.map fun field => (field.name, options.fieldJson field)) := by
  simp +decide only [toJson, Value.ofMembers, OptionField.all, OptionField.name,
    NameMap.insertAll, NameMap.insert, sortedFields, List.map_cons, List.map_nil,
    List.foldl_cons, List.foldl_nil, if_true, if_false]

/-- The text of options is that of an object which gives all their settings. -/
theorem exists_members_toJson (options : Options) :
    ∃ members given, SpellsItem options.toJson.text (.object members) ∧ MembersGive members given
      ∧ given.Perm (OptionField.all.map options.setting) := by
  obtain ⟨members, hwrites, hgive⟩ := writes_fields options sortedFields
  have hsorted : sortedFields.Perm OptionField.all := by decide
  have hspells := spells_obj hwrites
  rw [← toJson_eq_obj] at hspells
  exact ⟨members, _, hspells.item, hgive, hsorted.map _⟩

/-- With any reader that keeps what is relied on, options are read back from their own text, and
from every other text of an object that gives all their settings. The text of an object that
gives some settings, at most one for each option and among any members whose names are texts but
no option's, is read as the default options, overridden by exactly these settings, and the order
of its members does not matter. -/
theorem read_overrides_default {reader : RecordReader} (hreader : reader.Lawful) :
    (∀ options : Options, Options.read reader options.toJson.text = .ok options)
      ∧ (∀ (s : List Char) (members : List (List Nat × Phrase)) (given : List Setting)
          (options : Options), SpellsItem s (.object members) → MembersGive members given →
          given.Perm (OptionField.all.map options.setting) →
          Options.read reader s = .ok options)
      ∧ (∀ (s : List Char) (members : List (List Nat × Phrase)) (given : List Setting),
          SpellsItem s (.object members) → MembersGive members given →
          (given.map Setting.field).Nodup →
          ∃ options, Options.read reader s = .ok options ∧ Overridden given options)
      ∧ ∀ (s s' : List Char) (members members' : List (List Nat × Phrase))
          (given : List Setting), SpellsItem s (.object members) →
          SpellsItem s' (.object members') → members.Perm members' → MembersGive members given →
          (given.map Setting.field).Nodup → Options.read reader s = Options.read reader s' := by
  refine ⟨fun options => ?_,
    fun s members given options hs h hgiven => read_of_settings hreader hs h hgiven,
    fun s members given hs h hdistinct => ?_,
    fun s s' members members' given hs hs' hperm h hdistinct => ?_⟩
  · obtain ⟨members, given, hs, h, hgiven⟩ := exists_members_toJson options
    exact read_of_settings hreader hs h hgiven
  · exact ⟨_, read_of_members hreader hs h hdistinct, overridden_foldl hdistinct⟩
  · obtain ⟨given', h', hsame⟩ := h.perm hperm
    have hdistinct' : (given'.map Setting.field).Nodup :=
      (hsame.map Setting.field).nodup_iff.mp hdistinct
    rw [read_of_members hreader hs h hdistinct, read_of_members hreader hs' h' hdistinct']
    exact congrArg Except.ok ((overridden_foldl hdistinct).unique (overridden_foldl hdistinct')
      fun one => hsame.mem_iff)

/-- A text with a number out of range and half a surrogate pair under a name that is no
option's. -/
def looseText : List Char :=
  "\x7b\"x\":[1e999,\"\\ud800\"],\"target\":\x7b\"structural\":null\x7d\x7d".toList

def looseMembers : List (List Nat × Phrase) :=
  [("x".toList.map Char.toNat,
      .array [.number false false ⟨['1'], [], 999⟩, .string [0xD800]]),
    ("target".toList.map Char.toNat, .object [("structural".toList.map Char.toNat, .null)])]

theorem spells_looseText : SpellsItem looseText (.object looseMembers) := by
  have hwhole : IsWhole ['1'] := ⟨⟨by decide, List.all_eq_true.mp rfl⟩, by decide⟩
  have hdigits : IsDigits ['9', '9', '9'] := ⟨by decide, List.all_eq_true.mp rfl⟩
  have hnumber : Json.Spells "1e999".toList (.number false false ⟨['1'], [], 999⟩) :=
    .positive (.exponent hwhole (.plain (.inl rfl) hdigits))
  have hstring : Json.Spells "\"\\ud800\"".toList (.string [0xD800]) :=
    .string (.numbered (List.all_eq_true.mp rfl) .nil)
  have hname (s : String) (hs : s.toList.flatMap encodeChar = s.toList) :
      SpellsUnits s.toList (s.toList.map Char.toNat) := by
    have h := spellsUnits_flatMap_encodeChar s.toList
    rwa [hs] at h
  have harray : Json.Spells "[1e999,\"\\ud800\"]".toList
      (.array [.number false false ⟨['1'], [], 999⟩, .string [0xD800]]) :=
    .array hnumber.item (.cons hstring.item .nil)
  have hchoice : Json.Spells "\x7b\"structural\":null\x7d".toList
      (.object [("structural".toList.map Char.toNat, .null)]) :=
    .object (.mk isBlank_nil (hname "structural" (by decide)) isBlank_nil
      Json.Spells.null.item) .nil
  have hall : Json.Spells looseText (.object looseMembers) :=
    .object (.mk isBlank_nil (hname "x" (by decide)) isBlank_nil harray.item)
      (.cons (.mk isBlank_nil (hname "target" (by decide)) isBlank_nil hchoice.item) .nil)
  exact hall.item

/-- What that text gives is read by the reader of the library, and the default options are read
back from their own text. -/
theorem read_overrides_default_of_loose :
    MembersGive looseMembers [.target .structural]
      ∧ (∃ options, Options.read readRecord looseText = .ok options
        ∧ Overridden [.target .structural] options)
      ∧ Options.read readRecord Options.default.toJson.text = .ok .default := by
  have hgive : MembersGive looseMembers [.target .structural] :=
    .unknown (unitsOf_map_toNat _) (fun field => by cases field <;> decide)
      (.known (unitsOf_map_toNat _) (.object rfl (unitsOf_map_toNat _)) .nil)
  have hread := read_overrides_default readRecord_lawful
  exact ⟨hgive, hread.2.2.1 _ _ _ spells_looseText hgive (by decide), hread.1 .default⟩

/-- Half of a surrogate pair spells no text, so an object with such a name is refused though the
name is no option's, by any reader that keeps what is relied on as by that of the library. -/
theorem read_error_of_loneLead :
    SpellsItem "\x7b\"\\ud83dz\":1\x7d".toList
        (.object [([0xD83D, 0x7A], .number false true ⟨['1'], [], 0⟩)])
      ∧ (∀ name, ¬ UnitsOf [0xD83D, 0x7A] name)
      ∧ (∀ (reader : RecordReader) (options : Options), reader.Lawful →
        Options.read reader "\x7b\"\\ud83dz\":1\x7d".toList ≠ .ok options)
      ∧ Options.read readRecord "\x7b\"\\ud83dz\":1\x7d".toList = .error .malformed := by
  have hwhole : IsWhole ['1'] := ⟨⟨by decide, List.all_eq_true.mp rfl⟩, by decide⟩
  have hvalue : Json.Spells ['1'] (.number false true ⟨['1'], [], 0⟩) :=
    .positive (.whole hwhole)
  have hname : SpellsUnits "\\ud83dz".toList [0xD83D, 0x7A] :=
    .numbered (List.all_eq_true.mp rfl) (.plain (by decide) (by decide) (by decide) .nil)
  have hall : Json.Spells "\x7b\"\\ud83dz\":1\x7d".toList
      (.object [([0xD83D, 0x7A], .number false true ⟨['1'], [], 0⟩)]) :=
    .object (.mk isBlank_nil hname isBlank_nil hvalue.item) .nil
  have hnone : ∀ name, ¬ UnitsOf [0xD83D, 0x7A] name := fun name hunits => by
    have htext := hunits.stringText
    cases htext
  refine ⟨hall.item, hnone, fun reader options hreader hread => ?_, ?_⟩
  · obtain ⟨name, hunits⟩ := hreader.names declared hall.item hread _ List.mem_cons_self
    exact hnone name hunits
  · rw [Options.read, readRecord, hall.item.tokens_eq]
    rfl

end Mustache.Options
