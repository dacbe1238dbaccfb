import Mustache.Proofs.Template.Pattern

/-!
What a scan makes of a template.

A scan takes, again and again, the leftmost match of the tag's pattern behind the
last tag; what stands between the matches is literal text. Places are counted in
bytes. The main statement is `scan_decomposes`, which says this for every template,
and that the pieces lose no character.
-/
set_option autoImplicit false

namespace Mustache

open Text

/-! ## Matches in a template -/

/-- The match of the tag's pattern that starts at a byte of a template. -/
def matchAt (source : List Char) (place : Nat) : Option TagReading :=
  tagPattern.first? (dropBytes place source)

/-- Whether tags are, one after another, the first matches of a template from a byte
on. -/
def LeftmostFrom (source : List Char) : (place : Nat) → List Tag → Prop
  | place, [] => ∀ q, place ≤ q → matchAt source q = none
  | place, tag :: rest =>
      place ≤ tag.start
        ∧ (∀ q, place ≤ q → q < tag.start → matchAt source q = none)
        ∧ (∃ found, matchAt source tag.start = some found
          ∧ tag.key = found.key ∧ tag.stop = tag.start + byteLength found.text)
        ∧ LeftmostFrom source tag.stop rest

/-- Whether no match of a template starts within the literals of pieces, of which the
first stands at a byte. -/
def LiteralsUnmatched (source : List Char) : (place : Nat) → List Segment → Prop
  | _, [] => True
  | place, segment :: rest =>
      (∀ text, segment = .literal text →
        ∀ q, place ≤ q → q < place + byteLength text → matchAt source q = none)
        ∧ LiteralsUnmatched source (place + byteLength segment.text) rest

/-- Whether a piece is literal text. -/
def Segment.isLiteral : Segment → Bool
  | .literal _ => true
  | .tag _ => false

/-- Whether two pieces are not both literals. -/
def Segment.Apart (a b : Segment) : Prop :=
  (a.isLiteral && b.isLiteral) = false

/-- The part of a template that a piece stands for: its text, or what stands from the
start of the tag to its end. -/
def Segment.source (source : List Char) : Segment → List Char
  | .literal text => text
  | .tag t => slice source t.start t.stop

/-- Pieces that take a text apart at the leftmost matches of the tag's pattern. The
text stands behind `front` in its template. -/
structure Decomposes (front s : List Char) (segments : List Segment) : Prop where
  /-- Each tag is the first match at or behind the end of the tag before. -/
  tags_leftmost : LeftmostFrom (front ++ s) (byteLength front) (tagsOf segments)
  /-- No match of the template starts within a literal. -/
  literals_unmatched : LiteralsUnmatched (front ++ s) (byteLength front) segments
  /-- No literal is empty. -/
  literals_nonempty : ∀ text, .literal text ∈ segments → text ≠ []
  /-- No literal stands next to another. -/
  literals_apart : segments.IsChain Segment.Apart
  /-- The pieces lose nothing. -/
  covers : segments.flatMap (Segment.source (front ++ s)) = s

/-! ## Places -/

/-- A cut behind a leading part leaves what follows it. -/
theorem dropBytes_append (front s : List Char) (n : Nat) :
    dropBytes (byteLength front + n) (front ++ s) = dropBytes n s := by
  induction front with
  | nil => simp
  | cons c front ih =>
      have hle : c.utf8Size ≤ byteLength (c :: front) + n := by
        rw [byteLength_cons]
        omega
      have hsub : byteLength (c :: front) + n - c.utf8Size = byteLength front + n := by
        rw [byteLength_cons]
        omega
      rw [List.cons_append, dropBytes, if_pos hle, hsub, ih]

/-- A match behind a leading part is one of what follows that part. -/
theorem matchAt_append (front s : List Char) (n : Nat) :
    matchAt (front ++ s) (byteLength front + n) = readTag? (dropBytes n s) := by
  rw [matchAt, dropBytes_append, readTag?_eq_first]

/-- A cut at the very start leaves everything. -/
theorem dropBytes_zero (s : List Char) : dropBytes 0 s = s := by
  cases s with
  | nil => rfl
  | cons c s =>
      have hpos := Char.utf8Size_pos c
      rw [dropBytes, if_neg (by omega)]

/-- A part of a template is cut out at its place. -/
theorem slice_append (front text s : List Char) :
    slice (front ++ (text ++ s)) (byteLength front) (byteLength front + byteLength text)
      = text := by
  have hdrop := dropBytes_append front (text ++ s) 0
  rw [Nat.add_zero, dropBytes_zero] at hdrop
  rw [slice, hdrop, Nat.add_sub_cancel_left, takeBytes_byteLength_append]

/-! ## The leftmost tag -/

/-- No tag starts before the leftmost one. -/
theorem readTag?_before {s : List Char} {n : Nat} (h : n < byteLength (splitAtTag s).1) :
    readTag? (dropBytes n s) = none := by
  induction s generalizing n with
  | nil => simp [splitAtTag] at h
  | cons c s ih =>
      cases hread : readTag? (c :: s) with
      | some t => simp [splitAtTag, hread] at h
      | none =>
          simp only [splitAtTag, hread, byteLength_cons] at h
          -- A place within a character is cut at the start of that character.
          by_cases hn : c.utf8Size ≤ n
          · rw [dropBytes, if_pos hn]
            exact ih (by omega)
          · rw [dropBytes, if_neg hn]
            exact hread

/-- Without a leftmost tag, none starts anywhere. -/
theorem readTag?_anywhere {s : List Char} (h : (splitAtTag s).2 = none) (n : Nat) :
    readTag? (dropBytes n s) = none := by
  induction s generalizing n with
  | nil => rfl
  | cons c s ih =>
      cases hread : readTag? (c :: s) with
      | some t => simp [splitAtTag, hread] at h
      | none =>
          simp only [splitAtTag, hread] at h
          rw [dropBytes]
          split_ifs
          · exact ih h _
          · exact hread

/-- The leftmost tag is read at its place. -/
theorem readTag?_of_splitAtTag {s : List Char} {t : TagReading} (h : (splitAtTag s).2 = some t) :
    readTag? (t.text ++ t.rest) = some t := by
  induction s with
  | nil => simp [splitAtTag] at h
  | cons c s ih =>
      cases hread : readTag? (c :: s) with
      | some u =>
          simp only [splitAtTag, hread, Option.some.injEq] at h
          rw [← h, text_append_rest hread]
          exact hread
      | none =>
          simp only [splitAtTag, hread] at h
          exact ih h

/-! ## Literals -/

theorem tagsOf_append (first rest : List Segment) :
    tagsOf (first ++ rest) = tagsOf first ++ tagsOf rest := by
  simp [tagsOf]

theorem tagsOf_literalSegment (text : List Char) : tagsOf (literalSegment text) = [] := by
  rw [literalSegment]
  split_ifs <;> rfl

/-- A literal stands for its text. -/
theorem source_literalSegment (source text : List Char) :
    (literalSegment text).flatMap (Segment.source source) = text := by
  rw [literalSegment]
  split_ifs with h
  · rw [List.isEmpty_iff.mp h]
    rfl
  · simp [Segment.source]

theorem nonempty_of_mem_literalSegment {s : List Char} (text : List Char)
    (h : .literal text ∈ literalSegment s) : text ≠ [] := by
  rw [literalSegment] at h
  split_ifs at h with hempty
  · simp at h
  · cases List.mem_singleton.mp h
    simpa using hempty

theorem isChain_literalSegment (text : List Char) :
    (literalSegment text).IsChain Segment.Apart := by
  rw [literalSegment]
  split_ifs
  · exact .nil
  · exact .singleton _

/-- A tag may stand next to anything. -/
theorem isChain_tag (tag : Tag) {rest : List Segment}
    (h : rest.IsChain Segment.Apart) :
    (Segment.tag tag :: rest).IsChain Segment.Apart := by
  cases rest with
  | nil => exact .singleton _
  | cons next rest => exact .cons_cons rfl h

/-- A literal may stand in front of a tag. -/
theorem isChain_literalSegment_append (text : List Char) {tag : Tag} {rest : List Segment}
    (h : (Segment.tag tag :: rest).IsChain Segment.Apart) :
    (literalSegment text ++ .tag tag :: rest).IsChain Segment.Apart := by
  rw [literalSegment]
  split_ifs
  · exact h
  · exact .cons_cons rfl h

/-- Pieces of a template from a byte on, behind a literal that is free of matches. -/
theorem literalsUnmatched_append {source text : List Char} {place : Nat} {rest : List Segment}
    (htext : ∀ q, place ≤ q → q < place + byteLength text → matchAt source q = none)
    (hrest : LiteralsUnmatched source (place + byteLength text) rest) :
    LiteralsUnmatched source place (literalSegment text ++ rest) := by
  rw [literalSegment]
  split_ifs with h
  · rw [List.isEmpty_iff.mp h] at hrest
    simpa using hrest
  · refine ⟨fun text' heq => ?_, hrest⟩
    cases heq
    exact htext

/-! ## The scan -/

theorem scanFrom_of_some {start : Nat} {s : List Char} {t : TagReading}
    (h : (splitAtTag s).2 = some t) :
    scanFrom start s = literalSegment (splitAtTag s).1
      ++ .tag ⟨start + byteLength (splitAtTag s).1, t.text, t.key⟩
        :: scanFrom (start + byteLength (splitAtTag s).1 + byteLength t.text) t.rest := by
  rw [scanFrom]
  split
  · next hnone =>
      rw [h] at hnone
      cases hnone
  · next u hu =>
      rw [h] at hu
      cases hu
      rfl

theorem scanFrom_of_none {start : Nat} {s : List Char} (h : (splitAtTag s).2 = none) :
    scanFrom start s = literalSegment s := by
  have hspells := splitAtTag_spells s
  rw [h, List.append_nil] at hspells
  rw [scanFrom]
  split
  · rw [hspells]
  · next u hu =>
      rw [h] at hu
      cases hu

theorem matchAt_of_le {front s : List Char} {q : Nat} (h : byteLength front ≤ q) :
    matchAt (front ++ s) q = readTag? (dropBytes (q - byteLength front) s) := by
  have hq : q = byteLength front + (q - byteLength front) := by omega
  rw [hq, matchAt_append, Nat.add_sub_cancel_left]

theorem decomposes_of_none {front s : List Char} (h : (splitAtTag s).2 = none) :
    Decomposes front s (literalSegment (splitAtTag s).1) := by
  have hnone : ∀ q, byteLength front ≤ q → matchAt (front ++ s) q = none := by
    intro q hq
    rw [matchAt_of_le hq]
    exact readTag?_anywhere h _
  have hspells := splitAtTag_spells s
  rw [h, List.append_nil] at hspells
  refine ⟨?_, ?_, nonempty_of_mem_literalSegment, isChain_literalSegment _, ?_⟩
  · rw [tagsOf_literalSegment]
    exact hnone
  · have hends : LiteralsUnmatched (front ++ s) (byteLength front)
        (literalSegment (splitAtTag s).1 ++ []) :=
      literalsUnmatched_append (fun q hq _ => hnone q hq) trivial
    rwa [List.append_nil] at hends
  · rw [source_literalSegment, hspells]

/-- Text with a tag is a literal, the tag, and what the text behind it is taken apart
into. -/
theorem decomposes_of_some {front s : List Char} {t : TagReading} {rest : List Segment}
    (h : (splitAtTag s).2 = some t)
    (hrest : Decomposes (front ++ ((splitAtTag s).1 ++ t.text)) t.rest rest) :
    Decomposes front s (literalSegment (splitAtTag s).1
      ++ .tag ⟨byteLength front + byteLength (splitAtTag s).1, t.text, t.key⟩ :: rest) := by
  have hspells := splitAtTag_spells s
  rw [h] at hspells
  dsimp only at hspells
  have hread := readTag?_of_splitAtTag h
  have hbefore {n : Nat} (hn : n < byteLength (splitAtTag s).1) := readTag?_before hn
  -- From here on only what is known of the text in front of the tag counts.
  generalize (splitAtTag s).1 = before at hspells hrest hbefore ⊢
  -- The template is the same for the text behind the tag, and so is its place.
  have hsource : front ++ (before ++ t.text) ++ t.rest = front ++ s := by
    rw [← hspells, List.append_assoc, List.append_assoc]
  have hplace : byteLength (front ++ (before ++ t.text))
      = byteLength front + byteLength before + byteLength t.text := by
    rw [byteLength_append, byteLength_append, Nat.add_assoc]
  obtain ⟨htags, hliterals, hnonempty, hapart, hcovers⟩ := hrest
  rw [hsource] at htags hliterals hcovers
  rw [hplace] at htags hliterals
  have hunmatched : ∀ q, byteLength front ≤ q → q < byteLength front + byteLength before →
      matchAt (front ++ s) q = none := by
    intro q hq hlt
    rw [matchAt_of_le hq]
    exact hbefore (by omega)
  have hmatch : matchAt (front ++ s) (byteLength front + byteLength before) = some t := by
    have hdrop := dropBytes_append before (t.text ++ t.rest) 0
    rw [Nat.add_zero, dropBytes_zero, hspells] at hdrop
    rw [matchAt_append, hdrop, hread]
  refine ⟨?_, ?_, ?_, ?_, ?_⟩
  · rw [tagsOf_append, tagsOf_literalSegment, List.nil_append]
    exact ⟨Nat.le_add_right _ _, hunmatched, ⟨t, hmatch, rfl, rfl⟩, htags⟩
  · exact literalsUnmatched_append hunmatched ⟨fun text heq => (by cases heq), hliterals⟩
  · intro text htext
    rcases List.mem_append.mp htext with htext | htext
    · exact nonempty_of_mem_literalSegment text htext
    · rcases List.mem_cons.mp htext with heq | htext
      · cases heq
      · exact hnonempty text htext
  · exact isChain_literalSegment_append before (isChain_tag _ hapart)
  · rw [List.flatMap_append, source_literalSegment, List.flatMap_cons, hcovers, Segment.source,
      ← hspells]
    have hslice := slice_append (front ++ before) t.text t.rest
    rw [byteLength_append, List.append_assoc] at hslice
    rw [Tag.stop, hslice]

/-- The pieces that a scan yields behind a part of a template. -/
theorem scanFrom_decomposes (front s : List Char) :
    Decomposes front s (scanFrom (byteLength front) s) := by
  rw [scanFrom]
  split
  · next h => exact decomposes_of_none h
  -- The text in front grows by the literal and the tag, so that the place of the scan
  -- stays the number of bytes in front.
  · next t h =>
      refine decomposes_of_some h ?_
      have hplace : byteLength (front ++ ((splitAtTag s).1 ++ t.text))
          = byteLength front + byteLength (splitAtTag s).1 + byteLength t.text := by
        rw [byteLength_append, byteLength_append, Nat.add_assoc]
      rw [Tag.stop, ← hplace]
      have hshort := length_rest_lt_of_splitAtTag h
      exact scanFrom_decomposes (front ++ ((splitAtTag s).1 ++ t.text)) t.rest
termination_by s.length

/-- The scan of a template takes it apart at the leftmost matches of the tag's
pattern: each tag is the first match behind the tag before, no match starts within a
literal, literals are neither empty nor next to each other, and the pieces lose
nothing. -/
theorem scan_decomposes (source : List Char) : Decomposes [] source (scan source) :=
  scanFrom_decomposes [] source

end Mustache
