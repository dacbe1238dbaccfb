import Mustache.Proofs.Template.Place
import Mustache.Proofs.Template.Salt
import Mustache.Template.Structural

/-!
Tags that are hidden and found again.

A text in which tags are hidden is a row of parts, each what an author wrote or a
placeholder. Where the author's text does not hold how placeholders start, a search finds
the placeholders and nothing else: a placeholder begins with its own two underscores, so
that text in front cannot lend it any, and the two that it ends with are taken with it, so
that text behind it cannot use them. A source with placeholders for its tags is such a
text, and what is found in it is the scan of the source.
-/
set_option autoImplicit false

namespace Mustache

open Text

namespace Placeholder

/-! ## One place -/

section

variable {salt : Nat}

/-- The start, a number and two underscores are a placeholder. -/
theorem read?_of_digits (start : List Char) {rest digits after : List Char} {d : Char}
    (hdigits : rest.takeWhile isDecimalDigit = d :: digits)
    (hend : rest.dropWhile isDecimalDigit = '_' :: '_' :: after) :
    read? start (start ++ rest) = some (d :: digits, after) := by
  have hstrip : stripStart? start (start ++ rest) = some rest := stripStart?_eq_some_iff.mpr rfl
  simp only [read?, hstrip, hdigits, hend]

/-- The start without a number behind it is no placeholder. -/
theorem read?_of_no_digits (start : List Char) {rest : List Char}
    (h : rest.takeWhile isDecimalDigit = []) : read? start (start ++ rest) = none := by
  have hstrip : stripStart? start (start ++ rest) = some rest := stripStart?_eq_some_iff.mpr rfl
  simp only [read?, hstrip, h]

/-- Nothing is a placeholder that does not start as one. -/
theorem read?_of_not_prefix {start s : List Char} (h : ¬ start <+: s) : read? start s = none := by
  rw [read?]
  cases hstrip : stripStart? start s with
  | none => rfl
  | some rest => exact absurd ⟨rest, stripStart?_eq_some_iff.mp hstrip⟩ h

/-- A placeholder is read as its number. -/
theorem read?_spell (start : List Char) (index : Nat) (rest : List Char) :
    read? start (spell start index ++ rest) = some (decimal index, rest) := by
  have hdigits : ∀ c ∈ decimal index, isDecimalDigit c = true :=
    fun c hc => isDecimalDigit_of_isDigit c (isDigit_of_mem_decimal index c hc)
  have hend : isDecimalDigit '_' = false := by decide
  have htake : (decimal index ++ '_' :: '_' :: rest).takeWhile isDecimalDigit = decimal index := by
    rw [List.takeWhile_append_of_pos hdigits, List.takeWhile_cons_of_neg (by simp [hend]),
      List.append_nil]
  have hdrop : (decimal index ++ '_' :: '_' :: rest).dropWhile isDecimalDigit
      = '_' :: '_' :: rest := by
    rw [List.dropWhile_append_of_pos hdigits, List.dropWhile_cons_of_neg (by simp [hend])]
  have hspell : spell start index ++ rest = start ++ (decimal index ++ '_' :: '_' :: rest) := by
    rw [spell, List.append_assoc, List.append_assoc]
    rfl
  obtain ⟨d, digits, hcons⟩ := List.exists_cons_of_ne_nil (decimal_ne_nil index)
  rw [hspell, hcons]
  rw [hcons] at htake hdrop
  exact read?_of_digits start htake hdrop

theorem read?_underscore (start rest : List Char) : read? start (start ++ '_' :: rest) = none := by
  have hend : isDecimalDigit '_' = false := by decide
  exact read?_of_no_digits start (List.takeWhile_cons_of_neg (by simp [hend]))

/-- No placeholder starts within text that does not hold how placeholders start, whether
the text ends there or another placeholder follows. -/
theorem read?_eq_none {u w : List Char} (hne : u ≠ []) (hfresh : ¬ start salt <:+: u)
    (hw : w = [] ∨ start salt <+: w) : read? (start salt) (u ++ w) = none := by
  by_cases hstarts : start salt <+: u ++ w
  · obtain ⟨rest, hrest⟩ := hstarts
    rcases List.append_eq_append_iff.mp hrest with ⟨y, hy, -⟩ | ⟨y, hstart, rfl⟩
    · exact absurd ⟨[], y, by rw [hy, List.nil_append]⟩ hfresh
    -- The text is the first part of the start, and the last part `y` of it comes behind.
    · by_cases hy : y = []
      · refine absurd ⟨[], [], ?_⟩ hfresh
        rw [hstart, hy, List.nil_append, List.append_nil, List.append_nil]
      · have hnext : start salt <+: y ++ rest := hw.resolve_left (by simp [hy])
        -- So `y` begins a placeholder as well, which only an underscore does.
        have hborder : y <+: start salt := by
          refine List.prefix_of_prefix_length_le (List.prefix_append y rest) hnext ?_
          rw [hstart, List.length_append]
          omega
        obtain rfl := eq_underscore_of_border hstart hne hy hborder
        obtain ⟨others, hothers, -⟩ := start_underscores salt
        rw [hothers] at hnext
        obtain ⟨-, hnext⟩ := List.cons_prefix_cons.mp hnext
        obtain ⟨more, rfl⟩ := hnext
        rw [← hrest, List.cons_append]
        exact read?_underscore (start salt) (others ++ more)
  · exact read?_of_not_prefix hstarts

/-! ## The leftmost place -/

/-- A search goes over text that does not hold how placeholders start. -/
theorem splitAtPlaceholder_append {u w : List Char} (hfresh : ¬ start salt <:+: u)
    (hw : w = [] ∨ start salt <+: w) :
    splitAtPlaceholder (start salt) (u ++ w)
      = (u ++ (splitAtPlaceholder (start salt) w).1, (splitAtPlaceholder (start salt) w).2) := by
  induction u with
  | nil => rfl
  | cons c u ih =>
      have hnone := read?_eq_none (List.cons_ne_nil c u) hfresh hw
      have hrest : ¬ start salt <:+: u :=
        fun h => hfresh (h.trans (List.suffix_cons c u).isInfix)
      rw [List.cons_append] at hnone ⊢
      rw [splitAtPlaceholder, hnone, ih hrest]
      rfl

theorem splitAtPlaceholder_text {u : List Char} (hfresh : ¬ start salt <:+: u) :
    splitAtPlaceholder (start salt) u = (u, none) := by
  have hsplit := splitAtPlaceholder_append hfresh (.inl rfl)
  rwa [List.append_nil, splitAtPlaceholder, List.append_nil] at hsplit

theorem splitAtPlaceholder_spell {u : List Char} (hfresh : ¬ start salt <:+: u) (index : Nat)
    (rest : List Char) :
    splitAtPlaceholder (start salt) (u ++ (spell (start salt) index ++ rest))
      = (u, some (decimal index, rest)) := by
  have hstarts : start salt <+: spell (start salt) index ++ rest :=
    (List.prefix_append _ _).trans (List.prefix_append _ _)
  have hread := read?_spell (start salt) index rest
  have hne : spell (start salt) index ++ rest ≠ [] := by
    intro hnil
    rw [hnil] at hstarts
    exact start_ne_nil salt (List.prefix_nil.mp hstarts)
  rw [splitAtPlaceholder_append hfresh (.inr hstarts)]
  generalize spell (start salt) index ++ rest = w at hread hne
  obtain ⟨c, w, rfl⟩ := List.exists_cons_of_ne_nil hne
  rw [splitAtPlaceholder, hread, List.append_nil]

/-! ## Parts -/

/-- A part of a text in which tags are hidden. -/
inductive Part where
  /-- What an author wrote. -/
  | author (chars : List Char)
  /-- The placeholder of a tag, with the number of the tag. -/
  | placeholder (index : Nat) (tag : Tag)

def Part.isPlaceholder : Part → Bool
  | .author _ => false
  | .placeholder _ _ => true

/-- Parts as they are delivered. -/
def spelled (start : List Char) (parts : List Part) : List Char :=
  parts.flatMap fun
    | .author chars => chars
    | .placeholder index _ => spell start index

/-- Parts with tags as they were written. -/
def written (parts : List Part) : List Char :=
  parts.flatMap fun
    | .author chars => chars
    | .placeholder _ tag => tag.text

/-- The author's text between placeholders, at the front with `before` ahead of it. -/
def runs : (before : List Char) → List Part → List (List Char)
  | before, [] => [before]
  | before, .author chars :: rest => runs (before ++ chars) rest
  | before, .placeholder _ _ :: rest => before :: runs [] rest

/-- The author's text between placeholders, and the placeholders as words. -/
def wordsOf : (before : List Char) → List Part → List Piece
  | before, [] => [.text before]
  | before, .author chars :: rest => wordsOf (before ++ chars) rest
  | before, .placeholder index _ :: rest =>
      .text before :: .word (decimal index) :: wordsOf [] rest

/-- The author's text as literals, and the tags of the placeholders. -/
def segmentsOf : (before : List Char) → List Part → List Segment
  | before, [] => literalSegment before
  | before, .author chars :: rest => segmentsOf (before ++ chars) rest
  | before, .placeholder _ tag :: rest =>
      literalSegment before ++ .tag tag :: segmentsOf [] rest

/-- Whether the author's text between placeholders does not hold how they start. -/
def Fresh (start : List Char) (parts : List Part) : Prop :=
  ∀ run ∈ runs [] parts, ¬ start <:+: run

/-- Whether placeholders bear the numbers of their tags. -/
def Numbered (tags : List Tag) (parts : List Part) : Prop :=
  ∀ index tag, .placeholder index tag ∈ parts → tags[index]? = some tag

@[simp] theorem spelled_nil (start : List Char) : spelled start [] = [] := rfl

@[simp] theorem spelled_author (start chars : List Char) (rest : List Part) :
    spelled start (.author chars :: rest) = chars ++ spelled start rest := rfl

@[simp] theorem spelled_placeholder (start : List Char) (index : Nat) (tag : Tag)
    (rest : List Part) :
    spelled start (.placeholder index tag :: rest) = spell start index ++ spelled start rest := rfl

/-! ## What is found -/

theorem pieces_of_none {start s before : List Char}
    (h : splitAtPlaceholder start s = (before, none)) : pieces start s = [.text before] := by
  rw [pieces]
  split
  · rw [h]
  · next hsome =>
    rw [h] at hsome
    cases hsome

theorem pieces_of_some {start s before digits rest : List Char}
    (h : splitAtPlaceholder start s = (before, some (digits, rest))) :
    pieces start s = .text before :: .word digits :: pieces start rest := by
  rw [pieces]
  split
  · next hnone =>
    rw [h] at hnone
    cases hnone
  · next hsome =>
    rw [h] at hsome ⊢
    cases hsome
    rfl

/-- The words that are found are the placeholders. -/
theorem pieces_spelled (before : List Char) {parts : List Part}
    (hfresh : ∀ run ∈ runs before parts, ¬ start salt <:+: run) :
    pieces (start salt) (before ++ spelled (start salt) parts) = wordsOf before parts := by
  induction parts generalizing before with
  | nil =>
      rw [spelled_nil, List.append_nil]
      have hbefore := hfresh before (List.mem_singleton_self before)
      exact pieces_of_none (splitAtPlaceholder_text hbefore)
  | cons part rest ih =>
      cases part with
      | author chars =>
          rw [spelled_author, ← List.append_assoc]
          exact ih (before ++ chars) hfresh
      | placeholder index tag =>
          have hrest := ih [] fun run hrun => hfresh run (List.mem_cons_of_mem before hrun)
          rw [spelled_placeholder, wordsOf, ← hrest]
          exact pieces_of_some
            (splitAtPlaceholder_spell (hfresh before List.mem_cons_self) index _)

/-- A placeholder is found if there is one. -/
theorem isSome_splitAtPlaceholder_spelled (before : List Char) {parts : List Part}
    (hfresh : ∀ run ∈ runs before parts, ¬ start salt <:+: run) :
    (splitAtPlaceholder (start salt) (before ++ spelled (start salt) parts)).2.isSome
      = parts.any Part.isPlaceholder := by
  induction parts generalizing before with
  | nil =>
      rw [spelled_nil, List.append_nil,
        splitAtPlaceholder_text (hfresh before (List.mem_singleton_self before))]
      rfl
  | cons part rest ih =>
      cases part with
      | author chars =>
          rw [spelled_author, ← List.append_assoc, ih (before ++ chars) hfresh]
          rfl
      | placeholder index tag =>
          rw [spelled_placeholder, splitAtPlaceholder_spell (hfresh before List.mem_cons_self)]
          rfl

/-- The placeholder of a tag stands for that tag. -/
theorem tagOf?_decimal {tags : List Tag} {index : Nat} {tag : Tag}
    (hsize : tags.length ≤ UInt64.size) (h : tags[index]? = some tag) :
    tagOf? tags (decimal index) = some tag := by
  have hindex : index < tags.length := (List.getElem?_eq_some_iff.mp h).1
  rw [tagOf?, readIndex?_decimal (by omega), Option.bind_some, h]

/-- The words stand for the tags of the placeholders. -/
theorem resolve_wordsOf {start : List Char} {tags : List Tag} (hsize : tags.length ≤ UInt64.size)
    (ahead before : List Char) {parts : List Part} (hnumbered : Numbered tags parts) :
    resolve start tags ahead (wordsOf before parts) = segmentsOf (ahead ++ before) parts := by
  induction parts generalizing ahead before with
  | nil => rfl
  | cons part rest ih =>
      have hrest : Numbered tags rest :=
        fun index tag h => hnumbered index tag (List.mem_cons_of_mem part h)
      cases part with
      | author chars =>
          rw [wordsOf, segmentsOf, ih ahead (before ++ chars) hrest, List.append_assoc]
      | placeholder index tag =>
          have htag := tagOf?_decimal hsize (hnumbered index tag List.mem_cons_self)
          rw [wordsOf, segmentsOf, resolve, resolve, htag]
          have hih := ih [] [] hrest
          rw [List.append_nil] at hih
          dsimp only
          rw [hih]

/-- Literals and tags spell what was written. -/
theorem text_segmentsOf (before : List Char) (parts : List Part) :
    (segmentsOf before parts).flatMap Segment.text = before ++ written parts := by
  induction parts generalizing before with
  | nil =>
      rw [segmentsOf, text_literalSegment, written, List.flatMap_nil, List.append_nil]
  | cons part rest ih =>
      cases part with
      | author chars =>
          rw [segmentsOf, ih, List.append_assoc]
          rfl
      | placeholder index tag =>
          rw [segmentsOf, List.flatMap_append, text_literalSegment, List.flatMap_cons, ih]
          rfl

end

end Placeholder

/-! ## Any text with placeholders -/

namespace Placeholders

open Placeholder

variable {source : List Char} {parts : List Part}

/-- Whether parts belong to a source and can be told apart: its placeholders bear their
numbers, and the author's text does not hold how they start. -/
structure Distinct (source : List Char) (parts : List Part) : Prop where
  numbered : Numbered (ofSource source).tags parts
  fresh : Fresh (ofSource source).start parts

/-- A source that has 64 bits for the places of its bytes has no more tags than that. -/
theorem length_tags_le (hsize : byteLength source < UInt64.size) :
    (ofSource source).tags.length ≤ UInt64.size := by
  have hcount := (scanned 0 source).length_tagsOf_le
  have hlength := length_le_byteLength source
  exact Nat.le_trans hcount (by omega)

/-- The words that are found are the placeholders. -/
theorem pieces_spelled (h : Distinct source parts) :
    pieces (ofSource source).start (spelled (ofSource source).start parts) = wordsOf [] parts :=
  Placeholder.pieces_spelled [] h.fresh

/-- The tags that are found are those of the placeholders, and all else is literal. -/
theorem reveal_spelled (hsize : byteLength source < UInt64.size) (h : Distinct source parts) :
    (ofSource source).reveal (spelled (ofSource source).start parts) = segmentsOf [] parts := by
  rw [reveal, pieces_spelled h]
  exact resolve_wordsOf (length_tags_le hsize) [] [] h.numbered

/-- Tags are put back as written, and all else is kept. -/
theorem restore_spelled (hsize : byteLength source < UInt64.size) (h : Distinct source parts) :
    (ofSource source).restore (spelled (ofSource source).start parts) = written parts := by
  rw [restore, reveal_spelled hsize h, text_segmentsOf, List.nil_append]

theorem occurIn_spelled (h : Distinct source parts) :
    (ofSource source).occurIn (spelled (ofSource source).start parts)
      = parts.any Part.isPlaceholder :=
  isSome_splitAtPlaceholder_spelled [] h.fresh

end Placeholders

/-! ## Sources with hidden tags -/

namespace Placeholder

/-- The pieces of a source as parts, with the tags numbered from `index` on. -/
def partsFrom : (index : Nat) → List Segment → List Part
  | _, [] => []
  | index, .literal text :: rest => .author text :: partsFrom index rest
  | index, .tag tag :: rest => .placeholder index tag :: partsFrom (index + 1) rest

/-- A source with placeholders for its tags consists of its pieces. -/
theorem normalizeFrom_eq (start : List Char) (index : Nat) (segments : List Segment) :
    normalizeFrom start index segments = spelled start (partsFrom index segments) := by
  induction segments generalizing index with
  | nil => rfl
  | cons segment rest ih =>
      cases segment with
      | literal text => rw [normalizeFrom, partsFrom, spelled_author, ih]
      | tag tag => rw [normalizeFrom, partsFrom, spelled_placeholder, ih]

/-- The tags of a source bear their numbers. -/
theorem numbered_partsFrom (done : List Tag) (segments : List Segment) :
    Numbered (done ++ tagsOf segments) (partsFrom done.length segments) := by
  induction segments generalizing done with
  | nil =>
      intro index tag h
      cases h
  | cons segment rest ih =>
      intro index tag h
      cases segment with
      | literal text =>
          rcases List.mem_cons.mp h with h | h
          · cases h
          · exact ih done index tag h
      | tag first =>
          have htags : tagsOf (.tag first :: rest) = first :: tagsOf rest := rfl
          rw [htags]
          rcases List.mem_cons.mp h with h | h
          · cases h
            simp
          · have hrest := ih (done ++ [first]) index tag
            rw [List.length_append, List.append_assoc] at hrest
            exact hrest h

/-- A literal is what an author wrote. -/
theorem segmentsOf_literalSegment (index : Nat) (text : List Char) (rest : List Segment) :
    segmentsOf [] (partsFrom index (literalSegment text ++ rest))
      = segmentsOf text (partsFrom index rest) := by
  rw [literalSegment]
  split_ifs with h
  · rw [List.isEmpty_iff.mp h, List.nil_append]
  · rfl

theorem runs_literalSegment (index : Nat) (text : List Char) (rest : List Segment) :
    runs [] (partsFrom index (literalSegment text ++ rest))
      = runs text (partsFrom index rest) := by
  rw [literalSegment]
  split_ifs with h
  · rw [List.isEmpty_iff.mp h, List.nil_append]
  · rfl

variable {start index : Nat} {s : List Char} {segments : List Segment}

/-- The pieces of a scan are found again. -/
theorem segmentsOf_partsFrom (h : Scanned start s segments) :
    segmentsOf [] (partsFrom index segments) = segments := by
  induction h generalizing index with
  | literal start s =>
      have hliteral := segmentsOf_literalSegment index s []
      rwa [List.append_nil, partsFrom, segmentsOf] at hliteral
  | tag hne hrest ih => rw [segmentsOf_literalSegment, partsFrom, segmentsOf, ih]

/-- What stands between the tags of a text is part of the text. -/
theorem infix_of_mem_runs (h : Scanned start s segments) :
    ∀ run ∈ runs [] (partsFrom index segments), run <:+: s := by
  induction h generalizing index with
  | literal start s =>
      intro run hrun
      have hliteral := runs_literalSegment index s []
      rw [List.append_nil, partsFrom, runs] at hliteral
      rw [hliteral] at hrun
      rw [List.mem_singleton.mp hrun]
  | @tag start before text key rest segments hne hrest ih =>
      intro run hrun
      rw [runs_literalSegment, partsFrom, runs] at hrun
      rcases List.mem_cons.mp hrun with rfl | hrun
      · exact (List.prefix_append run _).isInfix
      · refine (ih run hrun).trans ?_
        rw [← List.append_assoc]
        exact (List.suffix_append _ _).isInfix

end Placeholder

/-- Hiding the tags of a source changes nothing. Taking the source with placeholders apart
gives what taking the source apart gives, be it a tree or an error; the tags put back, it
is the source; and the words that are found in it are the placeholders that were put in,
whatever the author's text around them spells. The number of a placeholder is read in 64
bits, which are enough for any source whose bytes they can count. -/
theorem hide_transparent (source : List Char) (file : String)
    (hsize : byteLength source < UInt64.size) :
    let walk := walkOf source file
    let hidden := walk.placeholders.hide source
    (do (← walk.addText .empty hidden).finish file) = readFlat source file
      ∧ walk.placeholders.restore hidden = source
      ∧ Placeholder.pieces walk.placeholders.start hidden
        = Placeholder.wordsOf [] (Placeholder.partsFrom 0 (scan source)) := by
  have hscanned := scanned 0 source
  -- Tags have the numbers of their places, and no run of text holds the start of a word, since
  -- that start was chosen not to occur in the source.
  have hdistinct : Placeholders.Distinct source (Placeholder.partsFrom 0 (scan source)) := by
    refine ⟨Placeholder.numbered_partsFrom [] (scan source), ?_⟩
    intro run hrun hoccurs
    exact Placeholder.start_saltFor_fresh source
      (hoccurs.trans (Placeholder.infix_of_mem_runs hscanned run hrun))
  intro walk hidden
  have hhidden : hidden = Placeholder.spelled (Placeholders.ofSource source).start
      (Placeholder.partsFrom 0 (scan source)) := Placeholder.normalizeFrom_eq _ 0 (scan source)
  have hreveal : walk.placeholders.reveal hidden = scan source := by
    rw [hhidden]
    exact (Placeholders.reveal_spelled hsize hdistinct).trans
      (Placeholder.segmentsOf_partsFrom hscanned)
  refine ⟨?_, ?_, ?_⟩
  · rw [DocumentWalk.addText, hreveal]
    rfl
  · rw [Placeholders.restore, hreveal]
    exact hscanned.text
  · rw [hhidden]
    exact Placeholders.pieces_spelled hdistinct

/-- Between two tags stands text that spells a placeholder with the last two underscores of
the first placeholder, or with the first two of the second. -/
theorem hide_transparent_of_overlap :
    (Placeholders.ofSource "{{a}}stache_tag_1{{b}}".toList).hide "{{a}}stache_tag_1{{b}}".toList
        = "__stache_tag_0__stache_tag_1__stache_tag_1__".toList
      ∧ (Placeholders.ofSource "{{a}}stache_tag_1{{b}}".toList).restore
          "__stache_tag_0__stache_tag_1__stache_tag_1__".toList
        = "{{a}}stache_tag_1{{b}}".toList := by
  have hhidden : (Placeholders.ofSource "{{a}}stache_tag_1{{b}}".toList).hide
      "{{a}}stache_tag_1{{b}}".toList
        = "__stache_tag_0__stache_tag_1__stache_tag_1__".toList := by decide +kernel
  obtain ⟨-, hrestore, -⟩ := hide_transparent "{{a}}stache_tag_1{{b}}".toList "t" (by decide)
  refine ⟨hhidden, ?_⟩
  rw [← hhidden]
  exact hrestore

end Mustache
