import Mustache.Markup.Reference
import Mustache.Proofs.Template.Hiding

/-!
What becomes of delivered text.

The text of an element, the value of an attribute and its name are delivered in parts:
placeholders, and what a reader of markup makes of the author's text. Where the latter does
not hold how placeholders start, a tag is acted on or put back for each placeholder and for
nothing else. It may hold it although the source does not: a character reference, a dropped
NUL or end tag, or a capital letter in the name of an attribute can hide the start from a
search of the source. Then author's text is taken for a tag.
-/
set_option autoImplicit false

namespace Mustache

open Text

namespace Placeholder

/-! ## The tags of parts -/

/-- The tag that a part stands for. -/
def Part.tag? : Part → Option Tag
  | .author _ => none
  | .placeholder _ tag => some tag

/-- The tags among the pieces of parts are those of the placeholders. -/
theorem tagsOf_segmentsOf (before : List Char) (parts : List Part) :
    tagsOf (segmentsOf before parts) = parts.filterMap Part.tag? := by
  induction parts generalizing before with
  | nil => exact tagsOf_literalSegment before
  | cons part rest ih =>
      cases part with
      | author chars => exact ih (before ++ chars)
      | placeholder index tag =>
          rw [segmentsOf, tagsOf_append, tagsOf_literalSegment, List.nil_append]
          exact congrArg (tag :: ·) (ih [])

theorem written_eq_spelled (start : List Char) {parts : List Part}
    (h : parts.any Part.isPlaceholder = false) : written parts = spelled start parts := by
  induction parts with
  | nil => rfl
  | cons part rest ih =>
      rw [List.any_cons, Bool.or_eq_false_iff] at h
      cases part with
      | author chars => exact congrArg (chars ++ ·) (ih h.2)
      | placeholder index tag => exact absurd h.1 (by simp [Part.isPlaceholder])

/-! ## Names -/

/-- A part in lower case. -/
def Part.lowered : Part → Part
  | .author chars => .author (chars.map Char.toLower)
  | .placeholder index tag => .placeholder index tag

/-- A placeholder is in lower case. -/
theorem map_toLower_spell (salt index : Nat) :
    (spell (start salt) index).map Char.toLower = spell (start salt) index := by
  have hcommon : commonStart.map Char.toLower = commonStart := by decide
  have htag : "_tag_".toList.map Char.toLower = "_tag_".toList := by decide
  have hsalt : (saltDigits salt).map Char.toLower = saltDigits salt := by
    cases salt with
    | zero => rfl
    | succ salt => exact map_toLower_decimal (salt + 1)
  have hend : ['_', '_'].map Char.toLower = ['_', '_'] := by decide
  rw [spell, start_eq, List.map_append, List.map_append, List.map_append, List.map_append,
    hcommon, hsalt, htag, map_toLower_decimal, hend]

/-- Parts in lower case are delivered in lower case. -/
theorem map_toLower_spelled (salt : Nat) (parts : List Part) :
    (spelled (start salt) parts).map Char.toLower
      = spelled (start salt) (parts.map Part.lowered) := by
  induction parts with
  | nil => rfl
  | cons part rest ih =>
      cases part with
      | author chars =>
          rw [spelled_author, List.map_append, ih]
          rfl
      | placeholder index tag =>
          rw [spelled_placeholder, List.map_append, ih, map_toLower_spell]
          rfl

theorem underscore_mem_spelled {start : List Char} {parts : List Part}
    (h : parts.any Part.isPlaceholder = true) : '_' ∈ spelled start parts := by
  obtain ⟨part, hmem, hpart⟩ := List.any_eq_true.mp h
  cases part with
  | author chars => cases hpart
  | placeholder index tag =>
      refine List.mem_flatMap.mpr ⟨_, hmem, ?_⟩
      exact List.mem_append_right start (List.mem_append_right (decimal index) List.mem_cons_self)

end Placeholder

/-- Drawings spell no name with an underscore in a way of their own. -/
theorem spellAttribute_of_underscore (element : String) {name : String} (h : '_' ∈ name.toList) :
    spellAttribute element name = name := by
  have hdrawings : ∀ known ∈ drawingAttributes, '_' ∉ known.toList.map foldLetter := by decide
  have hnone : drawingAttributes.find? (fun known => foldName known == foldName name) = none := by
    refine List.find?_eq_none.mpr fun known hknown heq => hdrawings known hknown ?_
    have hlists := congrArg String.toList (eq_of_beq heq)
    rw [foldName, foldName, String.toList_ofList, String.toList_ofList] at hlists
    rw [hlists]
    exact List.mem_map_of_mem (f := foldLetter) h
  rw [spellAttribute, hnone]
  split_ifs <;> rfl

/-- Drawings spell a name as it is, or without underscores. -/
theorem spellAttribute_cases (element name : String) :
    spellAttribute element name = name ∨ '_' ∉ (spellAttribute element name).toList := by
  have hdrawings : ∀ known ∈ drawingAttributes, '_' ∉ known.toList := by decide
  rw [spellAttribute]
  split_ifs
  · cases hfind : drawingAttributes.find? fun known => foldName known == foldName name with
    | none => exact .inl rfl
    | some known => exact .inr (hdrawings known (List.mem_of_find?_eq_some hfind))
  · exact .inl rfl

/-- A text without underscores holds no placeholder. -/
theorem Placeholders.restore_of_not_mem {source s : List Char}
    (hsize : byteLength source < UInt64.size) (h : '_' ∉ s) :
    (Placeholders.ofSource source).restore s = s := by
  have hdistinct : Placeholders.Distinct source [.author s] := by
    refine ⟨fun index tag hmem => ?_, fun run hrun hoccurs => h ?_⟩
    · cases List.mem_singleton.mp hmem
    · obtain ⟨others, hstart, -⟩ := Placeholder.start_underscores (Placeholder.saltFor source)
      cases List.mem_singleton.mp hrun
      refine hoccurs.subset ?_
      rw [Placeholders.ofSource, hstart]
      exact List.mem_cons_self
  have hrestore := Placeholders.restore_spelled hsize hdistinct
  rwa [Placeholder.spelled_author, Placeholder.spelled_nil, Placeholder.written,
    List.flatMap_singleton, List.append_nil] at hrestore

/-! ## The walk -/

namespace DocumentWalk

open Placeholder Placeholders

section

variable {source : List Char} {parts : List Part} (file : String)

/-- Text is added with the tags of its placeholders, and literally besides. -/
theorem addText_spelled (hsize : byteLength source < UInt64.size) (h : Distinct source parts)
    (b : Builder) :
    (walkOf source file).addText b (spelled (ofSource source).start parts)
      = b.addSegments source file (segmentsOf [] parts) := by
  rw [addText]
  exact congrArg (b.addSegments source file) (reveal_spelled hsize h)

/-- The name of an attribute has the tags of its placeholders put back. Without any, it is
spelled as drawings spell it. -/
theorem attributeName_spelled (hsize : byteLength source < UInt64.size) (h : Distinct source parts)
    (element : String) :
    (walkOf source file).attributeName element
        (String.ofList (spelled (ofSource source).start parts))
      = if parts.any Part.isPlaceholder then String.ofList (written parts)
        else spellAttribute element (String.ofList (written parts)) := by
  have hrestore : (walkOf source file).placeholders.restore
      (spelled (ofSource source).start parts) = written parts := restore_spelled hsize h
  rw [attributeName]
  split_ifs with hany
  · -- A name with a placeholder holds an underscore, so it is that of no drawing attribute and is
    -- restored as it was delivered.
    have hname : '_' ∈ (String.ofList (spelled (ofSource source).start parts)).toList := by
      rw [String.toList_ofList]
      exact underscore_mem_spelled hany
    rw [spellAttribute_of_underscore element hname, String.toList_ofList, hrestore]
  · have hwritten := written_eq_spelled (ofSource source).start (by simpa using hany)
    rw [hwritten]
    rcases spellAttribute_cases element (String.ofList (spelled (ofSource source).start parts))
      with hsame | hother
    · rw [hsame, String.toList_ofList, hrestore, hwritten]
    · have hkept : (walkOf source file).placeholders.restore _ = _ :=
        restore_of_not_mem hsize hother
      rw [hkept, String.ofList_toList]

/-- The value of an attribute is put together from the tags of its placeholders and literal
text. Without a placeholder it is known as it stands. -/
theorem readAttribute_spelled (hsize : byteLength source < UInt64.size) (h : Distinct source parts)
    (element name : String) :
    (walkOf source file).readAttribute element (name, spelled (ofSource source).start parts)
      = if parts.any Part.isPlaceholder then do
          let inner ← Builder.empty.addSegments source file (segmentsOf [] parts)
          .ok (.dynamic ((walkOf source file).attributeName element name) (← inner.finish file))
        else .ok (.static ((walkOf source file).attributeName element name)
          (String.ofList (written parts))) := by
  have hoccur : (walkOf source file).placeholders.occurIn (spelled (ofSource source).start parts)
      = parts.any Part.isPlaceholder := occurIn_spelled h
  rw [readAttribute]
  dsimp only
  rw [hoccur, addText_spelled file hsize h]
  split_ifs with hany
  · rfl
  · rw [written_eq_spelled (ofSource source).start (by simpa using hany)]

end

end DocumentWalk

open Placeholder Placeholders

/-- Author's text that does not hold how placeholders start stays literal, whatever it is
made of. A walk acts on the tags of the placeholders that are delivered and on no others;
in the name of an attribute, which is delivered in lower case, it puts back the tags of the
placeholders, and an author's name stays as it is or as drawings spell it. -/
theorem delivered_text_stays_literal {source : List Char} {parts names : List Part}
    (file element : String) (hsize : byteLength source < UInt64.size)
    (hparts : Distinct source parts) (hnames : Distinct source (names.map Part.lowered)) :
    let walk := walkOf source file
    let delivered := spelled walk.placeholders.start parts
    let name := String.ofList ((spelled walk.placeholders.start names).map Char.toLower)
    tagsOf (segmentsOf [] parts) = parts.filterMap Part.tag?
      ∧ (∀ b, walk.addText b delivered = b.addSegments source file (segmentsOf [] parts))
      ∧ walk.readAttribute element (name, delivered)
        = (if parts.any Part.isPlaceholder then do
            let inner ← Builder.empty.addSegments source file (segmentsOf [] parts)
            .ok (.dynamic (walk.attributeName element name) (← inner.finish file))
          else .ok (.static (walk.attributeName element name) (String.ofList (written parts))))
      ∧ walk.attributeName element name
        = if names.any Part.isPlaceholder then String.ofList (written (names.map Part.lowered))
          else spellAttribute element (String.ofList (written (names.map Part.lowered))) := by
  intro walk delivered name
  have hname : name = String.ofList (spelled walk.placeholders.start (names.map Part.lowered)) :=
    congrArg String.ofList (map_toLower_spelled (saltFor source) names)
  have hany : (names.map Part.lowered).any Part.isPlaceholder = names.any Part.isPlaceholder := by
    rw [List.any_map]
    refine congrArg names.any (funext fun part => ?_)
    cases part <;> rfl
  refine ⟨tagsOf_segmentsOf [] parts, DocumentWalk.addText_spelled file hsize hparts,
    DocumentWalk.readAttribute_spelled file hsize hparts element name, ?_⟩
  rw [hname, ← hany]
  exact DocumentWalk.attributeName_spelled file hsize hnames element

/-- A value that spells the first placeholder of the first salt, in front of a tag, and a
name with a capital letter. -/
theorem delivered_text_stays_literal_of_salt :
    let source := "<p Id=__stache_tag_0__{{a}}>".toList
    let tag : Tag := ⟨22, "{{a}}".toList, "a".toList⟩
    (walkOf source "t").addText .empty "__stache_tag_0____stache1_tag_0__".toList
        = Builder.empty.addSegments source "t" [.literal "__stache_tag_0__".toList, .tag tag]
      ∧ (walkOf source "t").attributeName "p" "id" = "id" := by
  intro source tag
  have hparts : Distinct source [.author "__stache_tag_0__".toList, .placeholder 0 tag] := by
    refine ⟨fun index other hmem => ?_, by unfold Fresh; decide +kernel⟩
    simp only [List.mem_cons, reduceCtorEq, Part.placeholder.injEq, List.not_mem_nil, or_false,
      false_or] at hmem
    obtain ⟨rfl, rfl⟩ := hmem
    decide +kernel
  have hnames : Distinct source ([.author "Id".toList].map Part.lowered) := by
    refine ⟨fun index other hmem => ?_, by unfold Fresh; decide +kernel⟩
    simp [Part.lowered] at hmem
  have hdelivered : spelled (walkOf source "t").placeholders.start
      [.author "__stache_tag_0__".toList, .placeholder 0 tag]
        = "__stache_tag_0____stache1_tag_0__".toList := by decide +kernel
  have hsegments : segmentsOf [] [.author "__stache_tag_0__".toList, .placeholder 0 tag]
      = [.literal "__stache_tag_0__".toList, .tag tag] := by decide +kernel
  obtain ⟨-, htext, -, hname⟩ :=
    delivered_text_stays_literal "t" "p" (by decide) hparts hnames
  rw [hdelivered, hsegments] at htext
  exact ⟨htext .empty, hname⟩

/-- What a character reference stands for can spell a placeholder, and so can a name in lower
case, of a source that does not hold how placeholders start. Then author's text is taken for
a tag. -/
theorem decoded_text_taken_for_tag :
    let source := "{{a}}&#95;_stache_tag_0__".toList
    let tag : Tag := ⟨0, "{{a}}".toList, "a".toList⟩
    let parts := [.placeholder 0 tag,
      .author (Markup.decode false "&#95;_stache_tag_0__".toList)]
    (ofSource source).hide source = "__stache_tag_0__&#95;_stache_tag_0__".toList
      ∧ segmentsOf [] parts = [.tag tag, .literal "__stache_tag_0__".toList]
      ∧ (ofSource source).reveal (spelled (ofSource source).start parts) = [.tag tag, .tag tag]
      ∧ (walkOf source "t").attributeName "p"
          (String.ofList ("__STACHE_TAG_0__".toList.map Char.toLower)) = "{{a}}" := by
  decide +kernel

end Mustache
