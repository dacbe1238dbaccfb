import Mustache.Proofs.Template.Delivery
import Mustache.Proofs.Template.Form
import Mustache.Readers.Own

/-!
Where the placeholders of a document go.

A document is delivered in parts, and a placeholder may be a part of a text, of a value, of
the name of an attribute or of the name of an element. The walk acts on the tags of those in
texts and values, and puts back the tags of those in names of attributes. It looks neither at
names of elements nor at the attributes of elements that give way to their children, so that
a placeholder there is left in the tree, or lost without an error. Where no placeholder stands
there, and where the author's text does not hold how placeholders start, every placeholder of
the document is accounted for, and the tree holds none (`structural_placeholders`).
-/
set_option autoImplicit false

namespace Mustache

open Markup Text Placeholder Placeholders

/-! ## Words that stand nowhere -/

/-- A word that stands neither in front of a character nor behind it stands nowhere, if the
character is not one of its own. -/
theorem not_infix_append_cons {word x y : List Char} {c : Char} (hc : c ∉ word)
    (hx : ¬ word <:+: x) (hy : ¬ word <:+: y) : ¬ word <:+: x ++ c :: y := by
  rintro ⟨before, after, h⟩
  rcases List.append_eq_append_iff.mp h with ⟨more, rfl, -⟩ | ⟨more, hword, hrest⟩
  · exact hx ⟨before, more, rfl⟩
  · cases more with
    | nil =>
        rw [List.append_nil] at hword
        exact hx ⟨before, [], by rw [List.append_nil, hword]⟩
    | cons d more =>
        rw [List.cons_append] at hrest
        obtain ⟨rfl, rfl⟩ := List.cons_eq_cons.mp hrest
        -- Either the word ends behind the character and begins ahead of it, or it is all behind.
        rcases List.append_eq_append_iff.mp hword with ⟨inside, -, hinside⟩ | ⟨outside, -, hout⟩
        · exact hc (by rw [hinside]; exact List.mem_append_right inside List.mem_cons_self)
        · cases outside with
          | nil => exact hc (by rw [← List.nil_append word, ← hout]; exact List.mem_cons_self)
          | cons e outside =>
              obtain ⟨-, rfl⟩ := List.cons_eq_cons.mp hout
              exact hy ⟨outside, after, rfl⟩

/-! ## The text of tags -/

theorem thirdBrace_cases (s : List Char) : thirdBrace s = [] ∨ thirdBrace s = ['}'] := by
  cases s with
  | nil => exact .inl rfl
  | cons c s =>
      rw [thirdBrace, List.head?_cons]
      split_ifs with h
      · rw [Option.some.inj h]
        exact .inr rfl
      · exact .inl rfl

theorem infix_tagKey (blanks body : List Char) : tagKey blanks body <:+: blanks ++ body := by
  rw [tagKey]
  split_ifs with h
  · rw [List.isEmpty_iff.mp h, List.append_nil]
    cases hlast : blanks.getLast? with
    | none => exact (List.nil_prefix).isInfix
    | some c =>
        obtain ⟨front, rfl⟩ := List.getLast?_eq_some_iff.mp hlast
        exact (List.suffix_append front [c]).isInfix
  · exact (List.suffix_append blanks body).isInfix

/-- A tag begins with a brace and ends with one, and its key stands between them. -/
theorem braces_of_readTag {s : List Char} {t : TagReading} (h : readTag? s = some t) :
    (∃ inner, t.text = '{' :: (inner ++ ['}'])) ∧ t.key <:+: t.text := by
  unfold readTag? closeTag? at h
  split at h
  · split at h
    · split_ifs at h
      cases h
      dsimp only
      generalize List.takeWhile isBlank _ = blanks
      generalize List.takeWhile _ _ = body
      refine ⟨?_, ?_⟩
      · -- With or without a third one, the last character is a closing brace.
        rcases thirdBrace_cases _ with hthird | hthird
        · rw [hthird]
          exact ⟨'{' :: (blanks ++ body ++ ['}']), by simp⟩
        · rw [hthird]
          exact ⟨'{' :: (blanks ++ body ++ ['}', '}']), by simp⟩
      · refine (infix_tagKey blanks body).trans ?_
        exact ⟨['{', '{'], '}' :: '}' :: thirdBrace _, by rw [List.append_assoc]; rfl⟩
    · cases h
  · cases h

theorem exists_reading {start : Nat} {s : List Char} :
    ∀ tag ∈ tagsOf (scanFrom start s),
      ∃ t, readTag? (t.text ++ t.rest) = some t ∧ tag.text = t.text ∧ tag.key = t.key := by
  intro tag htag
  rw [scanFrom] at htag
  split at htag
  · rw [tagsOf_literalSegment] at htag
    cases htag
  · next t h =>
    rw [tagsOf_append, tagsOf_literalSegment, List.nil_append] at htag
    rcases List.mem_cons.mp htag with rfl | htag
    · exact ⟨t, readTag?_of_splitAtTag h, rfl, rfl⟩
    · have hshort := length_rest_lt_of_splitAtTag h
      exact exists_reading tag htag
termination_by s.length

/-- What a tag names is part of its key. -/
theorem Tag.infix_key (tag : Tag) : tag.expression <:+: tag.key := by
  have hstrip : tag.sigil.strip tag.key <:+: tag.key := by
    unfold Sigil.strip
    split
    · exact List.infix_rfl
    · exact (List.drop_suffix 1 tag.key).isInfix
  have htrim (s : List Char) : trim s <:+: s := by
    rw [trim, trimEnd, ← List.reverse_infix, List.reverse_reverse]
    refine (List.dropWhile_suffix isBlank).isInfix.trans ?_
    exact List.reverse_infix.mpr (List.dropWhile_suffix isBlank).isInfix
  rw [expression]
  split_ifs
  · exact hstrip
  · exact (htrim _).trans hstrip

section

variable {source : List Char} {tag : Tag}

/-- A tag as written has no placeholder in it, and so has not what it names. -/
theorem not_infix_of_mem_tags (h : tag ∈ (ofSource source).tags) :
    ¬ (ofSource source).start <:+: tag.text ∧ ¬ (ofSource source).start <:+: tag.expression := by
  obtain ⟨front, ⟨rest, hrest⟩, -⟩ := exists_standsBehind h
  obtain ⟨t, hread, htext, hkey⟩ := exists_reading tag h
  have hsource : tag.text <:+: source := ⟨front, rest, by rw [hrest, List.append_assoc]⟩
  have hnot : ¬ (ofSource source).start <:+: tag.text :=
    fun hin => start_saltFor_fresh source (hin.trans hsource)
  refine ⟨hnot, fun hin => hnot (hin.trans (tag.infix_key.trans ?_))⟩
  rw [hkey, htext]
  exact (braces_of_readTag hread).2

theorem braces_of_mem_tags (h : tag ∈ (ofSource source).tags) :
    ∃ inner, tag.text = '{' :: (inner ++ ['}']) := by
  obtain ⟨t, hread, htext, -⟩ := exists_reading tag h
  rw [htext]
  exact (braces_of_readTag hread).1

end

/-! ## Parts -/

namespace Placeholder

@[simp] theorem written_nil : written [] = [] := rfl

@[simp] theorem written_author (chars : List Char) (rest : List Part) :
    written (.author chars :: rest) = chars ++ written rest := rfl

@[simp] theorem written_placeholder (index : Nat) (tag : Tag) (rest : List Part) :
    written (.placeholder index tag :: rest) = tag.text ++ written rest := rfl

/-- Whether a part is the author's, or a placeholder that bears the number of its tag. -/
def Part.bearsNumber (tags : List Tag) : Part → Bool
  | .author _ => true
  | .placeholder index tag => decide (tags[index]? = some tag)

/-- No placeholder has a brace. -/
theorem brace_not_mem_start (salt : Nat) : '{' ∉ start salt ∧ '}' ∉ start salt := by
  have hdigit {c : Char} (hc : c.isDigit = false) : c ∉ saltDigits salt := fun hmem => by
    rw [isDigit_of_mem_saltDigits salt c hmem] at hc
    cases hc
  have hends : ('{' ∉ commonStart ∧ '{' ∉ "_tag_".toList)
      ∧ ('}' ∉ commonStart ∧ '}' ∉ "_tag_".toList) := by decide
  obtain ⟨⟨hopenFront, hopenBack⟩, hcloseFront, hcloseBack⟩ := hends
  rw [start_eq, List.mem_append, List.mem_append, List.mem_append, List.mem_append]
  refine ⟨?_, ?_⟩
  · rintro (h | h | h)
    · exact hopenFront h
    · exact hdigit (by decide) h
    · exact hopenBack h
  · rintro (h | h | h)
    · exact hcloseFront h
    · exact hdigit (by decide) h
    · exact hcloseBack h

/-- The literals among the pieces of parts are the author's text between placeholders. -/
theorem mem_runs_of_mem_segmentsOf {before text : List Char} {parts : List Part}
    (h : .literal text ∈ segmentsOf before parts) : text ∈ runs before parts := by
  have hliteral {chars : List Char} (h : .literal text ∈ literalSegment chars) : text = chars := by
    rw [literalSegment] at h
    split_ifs at h
    · cases h
    · cases List.mem_singleton.mp h
      rfl
  induction parts generalizing before with
  | nil =>
      rw [hliteral h]
      exact List.mem_singleton_self before
  | cons part rest ih =>
      cases part with
      | author chars => exact ih h
      | placeholder index tag =>
          rcases List.mem_append.mp h with h | h
          · rw [hliteral h]
            exact List.mem_cons_self
          · exact List.mem_cons_of_mem before (ih ((List.mem_cons.mp h).resolve_left (by simp)))

theorem exists_mem_of_mem_segmentsOf {before : List Char} {parts : List Part} {tag : Tag}
    (h : .tag tag ∈ segmentsOf before parts) : ∃ index, .placeholder index tag ∈ parts := by
  have htag : tag ∈ tagsOf (segmentsOf before parts) := List.mem_filterMap.mpr ⟨_, h, rfl⟩
  rw [tagsOf_segmentsOf] at htag
  obtain ⟨part, hpart, hsome⟩ := List.mem_filterMap.mp htag
  cases part with
  | author chars => cases hsome
  | placeholder index other =>
      cases hsome
      exact ⟨index, hpart⟩

end Placeholder

namespace Placeholders

variable {source : List Char} {parts : List Part}

theorem distinct_iff :
    Distinct source parts
      ↔ (∀ part ∈ parts, part.bearsNumber (ofSource source).tags = true)
        ∧ ∀ run ∈ runs [] parts, ¬ (ofSource source).start <:+: run := by
  refine ⟨fun h => ⟨fun part hmem => ?_, h.fresh⟩, fun ⟨hnumbered, hfresh⟩ =>
    ⟨fun index tag hmem => of_decide_eq_true (hnumbered _ hmem), hfresh⟩⟩
  cases part with
  | author chars => rfl
  | placeholder index tag => exact decide_eq_true (h.numbered index tag hmem)

instance : Decidable (Distinct source parts) :=
  decidable_of_iff _ distinct_iff.symm

theorem Distinct.mem_tags (h : Distinct source parts) {index : Nat} {tag : Tag}
    (hmem : .placeholder index tag ∈ parts) : tag ∈ (ofSource source).tags :=
  List.mem_of_getElem? (h.numbered index tag hmem)

/-- With tags put back there is no placeholder: the braces of a tag keep the text on its two
sides apart. -/
theorem not_infix_append_written (before : List Char) {parts : List Part}
    (htags : ∀ index tag, .placeholder index tag ∈ parts → tag ∈ (ofSource source).tags)
    (hruns : ∀ run ∈ runs before parts, ¬ (ofSource source).start <:+: run) :
    ¬ (ofSource source).start <:+: before ++ written parts := by
  induction parts generalizing before with
  | nil =>
      rw [written_nil, List.append_nil]
      exact hruns before (List.mem_singleton_self before)
  | cons part rest ih =>
      have hrest := fun index tag hmem => htags index tag (List.mem_cons_of_mem part hmem)
      cases part with
      | author chars =>
          rw [written_author, ← List.append_assoc]
          exact ih _ hrest hruns
      | placeholder index tag =>
          -- A tag starts and ends with a brace, and words start without one. So an occurrence
          -- would be in the text before, inside the tag, or behind it.
          have hbehind := ih [] hrest fun run hrun => hruns run (List.mem_cons_of_mem before hrun)
          have htag := htags index tag List.mem_cons_self
          have htext := (not_infix_of_mem_tags htag).1
          obtain ⟨inner, hinner⟩ := braces_of_mem_tags htag
          have hinside : ¬ (ofSource source).start <:+: inner := fun hin =>
            htext (hin.trans ⟨['{'], ['}'], by rw [hinner]; rfl⟩)
          rw [written_placeholder, hinner, List.cons_append, List.append_assoc,
            List.singleton_append]
          exact not_infix_append_cons (brace_not_mem_start (saltFor source)).1
            (hruns before List.mem_cons_self)
            (not_infix_append_cons (brace_not_mem_start (saltFor source)).2 hinside hbehind)

theorem Distinct.not_infix_written (h : Distinct source parts) :
    ¬ (ofSource source).start <:+: written parts :=
  not_infix_append_written [] (fun _ _ => h.mem_tags) h.fresh

end Placeholders

/-! ## Delivered documents -/

/-- A document as it is delivered: its texts, names and values in parts. -/
inductive Delivered where
  | text (parts : List Part)
  | element (name : List Part) (attributes : List (List Part × List Part))
      (children : List Delivered)
  /-- A comment or a document type. -/
  | other

namespace Delivered

/-- A name as it is delivered. -/
def nameOf (start : List Char) (parts : List Part) : String :=
  String.ofList (spelled start parts)

/-- The names and the values of attributes. -/
def attributePlaces (attributes : List (List Part × List Part)) : List (List Part) :=
  attributes.flatMap fun attr => [attr.1, attr.2]

/-- The tags of the placeholders in parts. -/
def tagsIn (parts : List Part) : List Tag :=
  parts.filterMap Part.tag?

/-- The name of an attribute: with the tags of its placeholders as written, or as drawings
spell it if it has none. -/
def attributeName (element : String) (parts : List Part) : String :=
  if parts.any Part.isPlaceholder then String.ofList (written parts)
  else spellAttribute element (String.ofList (written parts))

mutual

/-- The document of a delivered one. -/
def dom (start : List Char) : Delivered → Dom
  | .text parts => .text (spelled start parts)
  | .element name attributes children =>
      .element (nameOf start name)
        (attributes.map fun attr => (nameOf start attr.1, spelled start attr.2))
        (doms start children)
  | .other => .other

def doms (start : List Char) : List Delivered → List Dom
  | [] => []
  | tree :: rest => dom start tree :: doms start rest

end

mutual

/-- The places of a document that a walk looks into: texts, and the names, the names of
attributes and the values of the elements that stay. -/
def placesOf (w : DocumentWalk) : Delivered → List (List Part)
  | .text parts => [parts]
  | .element name attributes children =>
      (if w.isTransparent (nameOf w.placeholders.start name) then []
        else name :: attributePlaces attributes) ++ places w children
  | .other => []

def places (w : DocumentWalk) : List Delivered → List (List Part)
  | [] => []
  | tree :: rest => placesOf w tree ++ places w rest

end

mutual

/-- The places of a document where a walk acts on no tag and puts none back: names of
elements, and attributes of the elements that give way to their children. -/
def strayPlacesOf (w : DocumentWalk) : Delivered → List (List Part)
  | .text _ => []
  | .element name attributes children =>
      (if w.isTransparent (nameOf w.placeholders.start name) then attributePlaces attributes
        else [name]) ++ strayPlaces w children
  | .other => []

def strayPlaces (w : DocumentWalk) : List Delivered → List (List Part)
  | [] => []
  | tree :: rest => strayPlacesOf w tree ++ strayPlaces w rest

end

mutual

/-- The tags of the placeholders in texts and in values of attributes, of any element. -/
def tagsOfTree : Delivered → List Tag
  | .text parts => tagsIn parts
  | .element _ attributes children =>
      (attributes.flatMap fun attr => tagsIn attr.2) ++ tagsOfTrees children
  | .other => []

def tagsOfTrees : List Delivered → List Tag
  | [] => []
  | tree :: rest => tagsOfTree tree ++ tagsOfTrees rest

end

mutual

/-- The names of the attributes of the elements that stay, with tags as written. -/
def attributeNamesOf (w : DocumentWalk) : Delivered → List String
  | .text _ => []
  | .element name attributes children =>
      (if w.isTransparent (nameOf w.placeholders.start name) then []
        else attributes.map fun attr =>
          attributeName (nameOf w.placeholders.start name) attr.1) ++ attributeNames w children
  | .other => []

def attributeNames (w : DocumentWalk) : List Delivered → List String
  | [] => []
  | tree :: rest => attributeNamesOf w tree ++ attributeNames w rest

end

/-! ## Delivered documents written out -/

variable {α : Type} (f : Form α)

/-- A text or a value written out, with the tags of its placeholders. -/
def writtenParts (source : List Char) (parts : List Part) : List α :=
  (segmentsOf [] parts).flatMap (Segment.written f source)

mutual

/-- A delivered node written out. -/
def writtenTree (w : DocumentWalk) : Delivered → List α
  | .text parts => writtenParts f w.source parts
  | .element name attributes children =>
      let element := nameOf w.placeholders.start name
      if w.isTransparent element then writtenTrees w children
      else f.element element
        (attributes.map fun attr => (attributeName element attr.1, writtenParts f w.source attr.2))
        (writtenTrees w children)
  | .other => []

/-- Delivered nodes written out. -/
def writtenTrees (w : DocumentWalk) : List Delivered → List α
  | [] => []
  | tree :: rest => writtenTree w tree ++ writtenTrees w rest

end

section

variable {source : List Char} (file : String)

theorem writtenContent_spelled (hsize : byteLength source < UInt64.size) {parts : List Part}
    (h : Distinct source parts) :
    (walkOf source file).writtenContent f (spelled (ofSource source).start parts)
      = writtenParts f source parts :=
  congrArg (List.flatMap (Segment.written f source)) (reveal_spelled hsize h)

theorem writtenAttributes_spelled (hsize : byteLength source < UInt64.size) (element : String)
    {attributes : List (List Part × List Part)}
    (h : ∀ parts ∈ attributePlaces attributes, Distinct source parts) :
    (walkOf source file).writtenAttributes f element
        (attributes.map fun attr =>
          (nameOf (ofSource source).start attr.1, spelled (ofSource source).start attr.2))
      = attributes.map fun attr =>
          (attributeName element attr.1, writtenParts f source attr.2) := by
  rw [DocumentWalk.writtenAttributes, List.map_map]
  refine List.map_congr_left fun attr hattr => ?_
  have hmem {parts : List Part} (hparts : parts ∈ [attr.1, attr.2]) : Distinct source parts :=
    h parts (List.mem_flatMap.mpr ⟨attr, hattr, hparts⟩)
  rw [Function.comp_apply, nameOf,
    DocumentWalk.attributeName_spelled file hsize (hmem List.mem_cons_self),
    writtenContent_spelled f file hsize (hmem (List.mem_cons_of_mem _ List.mem_cons_self))]
  rfl

mutual

/-- A delivered node is written out with its tags in place of its placeholders. -/
theorem writtenDom_dom (hsize : byteLength source < UInt64.size) : (tree : Delivered) →
    (∀ parts ∈ placesOf (walkOf source file) tree, Distinct source parts) →
      (walkOf source file).writtenDom f (dom (ofSource source).start tree)
        = writtenTree f (walkOf source file) tree
  | .text parts, h => by
      rw [placesOf, List.forall_mem_singleton] at h
      rw [dom, DocumentWalk.writtenDom, writtenTree, writtenContent_spelled f file hsize h]
      rfl
  | .element name attributes children, h => by
      rw [placesOf, List.forall_mem_append] at h
      have hstart : (walkOf source file).placeholders.start = (ofSource source).start := rfl
      rw [dom, DocumentWalk.writtenDom, writtenTree, writtenDoms_doms hsize children h.2]
      rw [hstart] at h ⊢
      split_ifs at h ⊢ with htransparent
      · rfl
      · rw [writtenAttributes_spelled f file hsize _ fun parts hparts =>
          h.1 parts (List.mem_cons_of_mem name hparts)]
        rfl
  | .other, _ => by rw [dom, DocumentWalk.writtenDom, writtenTree]

theorem writtenDoms_doms (hsize : byteLength source < UInt64.size) : (trees : List Delivered) →
    (∀ parts ∈ places (walkOf source file) trees, Distinct source parts) →
      (walkOf source file).writtenDoms f (doms (ofSource source).start trees)
        = writtenTrees f (walkOf source file) trees
  | [], _ => by rw [doms, DocumentWalk.writtenDoms, writtenTrees]
  | tree :: rest, h => by
      rw [places, List.forall_mem_append] at h
      rw [doms, DocumentWalk.writtenDoms, writtenTrees, writtenDom_dom hsize tree h.1,
        writtenDoms_doms hsize rest h.2]

end

end

end Delivered

/-! ## What is accounted for -/

/-- The tags of a template, as marks. -/
def Form.tags : Form Mark where
  literal _ := []
  tag sigil expression location := [.tag sigil expression location]
  close := [.close none]
  element _ attributes children := attributes.flatMap (·.2) ++ children

theorem Form.tags_element (name : String) (attributes : List (String × List Mark))
    (children : List Mark) :
    Form.tags.element name attributes children = attributes.flatMap (·.2) ++ children :=
  rfl

/-- The names of the attributes of a template. -/
def Form.attributeNames : Form String where
  literal _ := []
  tag _ _ _ := []
  close := []
  element _ attributes children := attributes.flatMap (fun attr => attr.1 :: attr.2) ++ children

theorem Form.attributeNames_element (name : String) (attributes : List (String × List String))
    (children : List String) :
    Form.attributeNames.element name attributes children
      = attributes.flatMap (fun attr => attr.1 :: attr.2) ++ children :=
  rfl

/-- Every string of a template: texts, what its tags name, and the names of its elements and
attributes. -/
def Form.strings : Form String where
  literal value := [value]
  tag _ expression _ := [expression]
  close := []
  element name attributes children :=
    name :: (attributes.flatMap (fun attr => attr.1 :: attr.2) ++ children)

theorem Form.strings_element (name : String) (attributes : List (String × List String))
    (children : List String) :
    Form.strings.element name attributes children
      = name :: (attributes.flatMap (fun attr => attr.1 :: attr.2) ++ children) :=
  rfl

namespace Delivered

section

variable {source : List Char} {parts : List Part}

theorem tagsIn_eq_nil (h : parts.any Part.isPlaceholder = false) : tagsIn parts = [] := by
  refine List.filterMap_eq_nil_iff.mpr fun part hpart => ?_
  cases part with
  | author chars => rfl
  | placeholder index tag => exact absurd rfl (List.any_eq_false.mp h _ hpart)

/-- A text gives the tags of its placeholders. -/
theorem writtenParts_tags :
    writtenParts Form.tags source parts
      = (tagsIn parts).flatMap fun tag => (Segment.tag tag).marks source := by
  have hsegments (segments : List Segment) :
      segments.flatMap (Segment.written Form.tags source)
        = (tagsOf segments).flatMap fun tag => (Segment.tag tag).marks source := by
    induction segments with
    | nil => rfl
    | cons segment rest ih =>
        cases segment with
        | literal text => exact ih
        | tag tag =>
            have hcons : tagsOf (.tag tag :: rest) = tag :: tagsOf rest := rfl
            rw [hcons, List.flatMap_cons, List.flatMap_cons, ih, Segment.written, Segment.marks]
            cases tag.sigil <;> rfl
  rw [writtenParts, hsegments, tagsOf_segmentsOf, tagsIn]

theorem writtenParts_attributeNames : writtenParts Form.attributeNames source parts = [] := by
  refine List.flatMap_eq_nil_iff.mpr fun segment _ => ?_
  cases segment with
  | literal text => rfl
  | tag tag =>
      rw [Segment.written]
      cases tag.sigil <;> rfl

/-- A text is written out without placeholders. -/
theorem not_infix_writtenParts (h : Distinct source parts) :
    ∀ s ∈ writtenParts Form.strings source parts, ¬ (ofSource source).start <:+: s.toList := by
  intro s hs
  obtain ⟨segment, hsegment, hs⟩ := List.mem_flatMap.mp hs
  cases segment with
  | literal text =>
      cases List.mem_singleton.mp hs
      rw [String.toList_ofList]
      exact h.fresh text (mem_runs_of_mem_segmentsOf hsegment)
  | tag tag =>
      obtain ⟨index, hmem⟩ := exists_mem_of_mem_segmentsOf hsegment
      have hexpression : s = String.ofList tag.expression := by
        rw [Segment.written] at hs
        cases hsigil : tag.sigil with
        | comment | blockClose =>
            rw [hsigil] at hs
            cases hs
        | blockOpen | invertedOpen | inclusion | raw | plain =>
            rw [hsigil] at hs
            exact List.mem_singleton.mp hs
      rw [hexpression, String.toList_ofList]
      exact (not_infix_of_mem_tags (h.mem_tags hmem)).2

/-- The name of an attribute holds no placeholder when tags are put back. -/
theorem not_infix_attributeName (h : Distinct source parts) (element : String) :
    ¬ (ofSource source).start <:+: (attributeName element parts).toList := by
  have hwritten := h.not_infix_written
  rw [attributeName]
  split_ifs with hany
  · rwa [String.toList_ofList]
  · rcases spellAttribute_cases element (String.ofList (written parts)) with hsame | hother
    · rwa [hsame, String.toList_ofList]
    · intro hin
      obtain ⟨rest, hstart, -⟩ := start_underscores (saltFor source)
      refine hother (hin.subset ?_)
      rw [ofSource, hstart]
      exact List.mem_cons_self

theorem not_infix_nameOf (h : Distinct source parts)
    (hnone : parts.any Part.isPlaceholder = false) :
    ¬ (ofSource source).start <:+: (nameOf (ofSource source).start parts).toList := by
  rw [nameOf, String.toList_ofList, ← written_eq_spelled _ hnone]
  exact h.not_infix_written

end

section

variable {source : List Char} (file : String)

mutual

theorem writtenTree_tags : (tree : Delivered) →
    (∀ parts ∈ strayPlacesOf (walkOf source file) tree, parts.any Part.isPlaceholder = false) →
      writtenTree Form.tags (walkOf source file) tree
        = (tagsOfTree tree).flatMap fun tag => (Segment.tag tag).marks source
  | .text parts, _ => by
      rw [writtenTree, tagsOfTree]
      exact writtenParts_tags
  | .element name attributes children, h => by
      rw [strayPlacesOf, List.forall_mem_append] at h
      rw [writtenTree, tagsOfTree, List.flatMap_append, writtenTrees_tags children h.2]
      split_ifs at h ⊢ with htransparent
      -- Without placeholders in its attributes, an element that gives way has no tags there.
      · have hnone : (attributes.flatMap fun attr => tagsIn attr.2) = [] := by
          refine List.flatMap_eq_nil_iff.mpr fun attr hattr => tagsIn_eq_nil (h.1 attr.2 ?_)
          exact List.mem_flatMap.mpr ⟨attr, hattr, List.mem_cons_of_mem _ List.mem_cons_self⟩
        rw [hnone, List.flatMap_nil, List.nil_append]
      · rw [Form.tags_element, List.flatMap_map, List.flatMap_assoc]
        exact congrArg (· ++ _) (List.flatMap_congr fun attr _ => writtenParts_tags)
  | .other, _ => by rw [writtenTree, tagsOfTree, List.flatMap_nil]

theorem writtenTrees_tags : (trees : List Delivered) →
    (∀ parts ∈ strayPlaces (walkOf source file) trees, parts.any Part.isPlaceholder = false) →
      writtenTrees Form.tags (walkOf source file) trees
        = (tagsOfTrees trees).flatMap fun tag => (Segment.tag tag).marks source
  | [], _ => by rw [writtenTrees, tagsOfTrees, List.flatMap_nil]
  | tree :: rest, h => by
      rw [strayPlaces, List.forall_mem_append] at h
      rw [writtenTrees, tagsOfTrees, List.flatMap_append, writtenTree_tags tree h.1,
        writtenTrees_tags rest h.2]

end

mutual

theorem writtenTree_attributeNames : (tree : Delivered) →
    writtenTree Form.attributeNames (walkOf source file) tree
      = attributeNamesOf (walkOf source file) tree
  | .text parts => by
      rw [writtenTree, attributeNamesOf]
      exact writtenParts_attributeNames
  | .element name attributes children => by
      rw [writtenTree, attributeNamesOf, writtenTrees_attributeNames children]
      split_ifs with htransparent
      · rfl
      · rw [Form.attributeNames_element, List.flatMap_map, ← List.flatMap_singleton' (List.map _ _),
          List.flatMap_map]
        refine congrArg (· ++ _) (List.flatMap_congr fun attr _ => ?_)
        exact congrArg (_ :: ·) writtenParts_attributeNames
  | .other => by rw [writtenTree, attributeNamesOf]

theorem writtenTrees_attributeNames : (trees : List Delivered) →
    writtenTrees Form.attributeNames (walkOf source file) trees
      = attributeNames (walkOf source file) trees
  | [] => by rw [writtenTrees, attributeNames]
  | tree :: rest => by
      rw [writtenTrees, attributeNames, writtenTree_attributeNames tree,
        writtenTrees_attributeNames rest]

end

mutual

theorem not_infix_writtenTree : (tree : Delivered) →
    (∀ parts ∈ placesOf (walkOf source file) tree, Distinct source parts) →
    (∀ parts ∈ strayPlacesOf (walkOf source file) tree, parts.any Part.isPlaceholder = false) →
      ∀ s ∈ writtenTree Form.strings (walkOf source file) tree,
        ¬ (ofSource source).start <:+: s.toList
  | .text parts, hplaces, _ => by
      rw [placesOf, List.forall_mem_singleton] at hplaces
      rw [writtenTree]
      exact not_infix_writtenParts hplaces
  | .element name attributes children, hplaces, hstray => by
      rw [placesOf, List.forall_mem_append] at hplaces
      rw [strayPlacesOf, List.forall_mem_append] at hstray
      have hchildren := not_infix_writtenTrees children hplaces.2 hstray.2
      rw [writtenTree]
      split_ifs at hplaces hstray ⊢ with htransparent
      · exact hchildren
      · -- The names of the element and of its attributes, their values, and what the children
        -- write.
        obtain ⟨⟨hname, hattributes⟩, -⟩ := And.imp_left List.forall_mem_cons.mp hplaces
        have hnone := hstray.1 name (List.mem_singleton_self name)
        rw [Form.strings_element, List.forall_mem_cons, List.forall_mem_append]
        refine ⟨not_infix_nameOf hname hnone, ?_, hchildren⟩
        rw [List.flatMap_map]
        intro s hs
        obtain ⟨attr, hattr, hs⟩ := List.mem_flatMap.mp hs
        have hmem {parts : List Part} (hparts : parts ∈ [attr.1, attr.2]) : Distinct source parts :=
          hattributes parts (List.mem_flatMap.mpr ⟨attr, hattr, hparts⟩)
        rcases List.mem_cons.mp hs with rfl | hs
        · exact not_infix_attributeName (hmem List.mem_cons_self) _
        · exact not_infix_writtenParts (hmem (List.mem_cons_of_mem _ List.mem_cons_self)) s hs
  | .other, _, _ => by
      rw [writtenTree]
      exact List.forall_mem_nil _

theorem not_infix_writtenTrees : (trees : List Delivered) →
    (∀ parts ∈ places (walkOf source file) trees, Distinct source parts) →
    (∀ parts ∈ strayPlaces (walkOf source file) trees, parts.any Part.isPlaceholder = false) →
      ∀ s ∈ writtenTrees Form.strings (walkOf source file) trees,
        ¬ (ofSource source).start <:+: s.toList
  | [], _, _ => by
      rw [writtenTrees]
      exact List.forall_mem_nil _
  | tree :: rest, hplaces, hstray => by
      rw [places, List.forall_mem_append] at hplaces
      rw [strayPlaces, List.forall_mem_append] at hstray
      rw [writtenTrees, List.forall_mem_append]
      exact ⟨not_infix_writtenTree tree hplaces.1 hstray.1,
        not_infix_writtenTrees rest hplaces.2 hstray.2⟩

end

end

end Delivered

open Delivered

/-- Every placeholder of a document is accounted for, and none is left, where none stands in
the name of an element or in the attributes of an element that gives way, and where the
author's text does not hold how placeholders start. A walk that has a result has acted on the
tag of each placeholder in a text or a value, in their order and on no other; it has put back
the tag of each one in the name of an attribute; and no string of the template, be it a text,
a name, a value or what a tag names, holds how placeholders start. -/
theorem structural_placeholders {source : List Char} {file : String} {trees : List Delivered}
    {nodes : List Node} (hsize : byteLength source < UInt64.size)
    (hplaces : ∀ parts ∈ places (walkOf source file) trees, Distinct source parts)
    (hstray : ∀ parts ∈ strayPlaces (walkOf source file) trees,
      parts.any Part.isPlaceholder = false)
    (hread : (walkOf source file).read (doms (ofSource source).start trees) = .ok nodes) :
    writtenOf Form.tags nodes
        = (tagsOfTrees trees).flatMap (fun tag => (Segment.tag tag).marks source)
      ∧ writtenOf Form.attributeNames nodes = attributeNames (walkOf source file) trees
      ∧ ∀ s ∈ writtenOf Form.strings nodes, ¬ (ofSource source).start <:+: s.toList := by
  have hwritten {α : Type} (f : Form α) :
      writtenOf f nodes = writtenTrees f (walkOf source file) trees := by
    rw [DocumentWalk.written_of_read f hread, writtenDoms_doms f file hsize trees hplaces]
  refine ⟨?_, ?_, ?_⟩
  · rw [hwritten, writtenTrees_tags file trees hstray]
  · rw [hwritten, writtenTrees_attributeNames]
  · rw [hwritten]
    exact not_infix_writtenTrees file trees hplaces hstray

/-- A placeholder in the name of an attribute, one in a value and one in a text, in elements of
the document that give way to their children. -/
theorem structural_placeholders_of_wrapper :
    let source := "<p {{a}} id='{{b}}'>{{c}}</p>".toList
    let trees : List Delivered :=
      [.element [.author "html".toList] [] [.element [.author "head".toList] [] [],
        .element [.author "body".toList] []
          [.element [.author ['p']]
            [([.placeholder 0 ⟨3, "{{a}}".toList, ['a']⟩], []),
              ([.author "id".toList], [.placeholder 1 ⟨13, "{{b}}".toList, ['b']⟩])]
            [.text [.placeholder 2 ⟨20, "{{c}}".toList, ['c']⟩]]]]]
    ∃ nodes, (walkOf source "t").read (doms (ofSource source).start trees) = .ok nodes
      ∧ writtenOf Form.tags nodes = [.tag .plain "b" ⟨1, 14⟩, .tag .plain "c" ⟨1, 21⟩]
      ∧ writtenOf Form.attributeNames nodes = ["{{a}}", "id"] := by
  intro source trees
  have hok : ((walkOf source "t").read (doms (ofSource source).start trees)).toOption.isSome := by
    decide +kernel
  cases hread : (walkOf source "t").read (doms (ofSource source).start trees) with
  | error e =>
      rw [hread] at hok
      cases hok
  | ok nodes =>
      obtain ⟨htags, hnames, -⟩ :=
        structural_placeholders (by decide) (by decide +kernel) (by decide +kernel) hread
      refine ⟨nodes, rfl, htags.trans ?_, hnames.trans ?_⟩
      · decide +kernel
      · decide +kernel

/-- A placeholder in the name of an element is left in the tree. One in an attribute of an
element that gives way is lost, even that of a tag that closes what is not open. One that the
author's text reaches into, as only a reader of markup sees it, is taken for text. -/
theorem placeholders_left_or_lost :
    let strings (source : String) :=
      ((readStructural .own source.toList "t").bind Except.toOption).map (writtenOf Form.strings)
    strings "<x{{a}}>y</x>" = some ["x__stache_tag_0__", "y"]
      ∧ strings "<body class='{{/a}}'>x" = some ["x"]
      ∧ strings "&#95;_stache_tag_99{{a}}" = some ["__stache_tag_99__stache_tag_0__"] := by
  decide +kernel

end Mustache
