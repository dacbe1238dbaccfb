import Mustache.Proofs.Template.Cursor
import Mustache.Template.Placeholder

/-!
Templates are cut between characters.

Besides the scan, the expressions of tags, their lines and columns, and the tags that are put
back in place of placeholders are all sliced out of a template by byte offsets. The main
statement is `scan_stays_between_characters`: for every template, whatever its characters, no
slice is refused, and what is sliced out is what the library's own definitions take.
-/
set_option autoImplicit false

namespace Mustache

open Text

/-! ## Expressions -/

/-- The first byte of the UTF-8 form of a text. -/
def firstByte? (s : List Char) : Option UInt8 :=
  (s.flatMap String.utf8EncodeChar).head?

/-- The sigil that the first byte of a key stands for. -/
def Sigil.ofByte (byte : Option UInt8) : Sigil :=
  if byte = some '#'.toUInt8 then .blockOpen
  else if byte = some '/'.toUInt8 then .blockClose
  else if byte = some '^'.toUInt8 then .invertedOpen
  else if byte = some '>'.toUInt8 then .inclusion
  else if byte = some '!'.toUInt8 then .comment
  else if byte = some '{'.toUInt8 then .raw
  else .plain

/-- The number of bytes that a sigil takes in a key. -/
def Sigil.width : Sigil → Nat
  | .plain => 0
  | _ => 1

/-- What a key names, sliced out behind its sigil. -/
def expression? (key : List Char) : Option (List Char) := do
  let body ← sliceFrom? key (Sigil.ofByte (firstByte? key)).width
  let trimmed := trim body
  some (if trimmed.isEmpty then body else trimmed)

/-- An ASCII character is told by its byte: any other character starts with another one. -/
theorem firstByte?_eq_iff {a c : Char} {s : List Char} (ha : a.toNat < 128) :
    firstByte? (c :: s) = some a.toUInt8 ↔ c = a := by
  have hchar : c = a ↔ c.toNat = a.toNat := Char.toNat_inj.symm
  have hbyte (n : Nat) : UInt8.ofNat n = a.toUInt8 ↔ n % 256 = a.toNat := by
    have hword : a.toUInt8.toNat = a.toNat % 256 := UInt32.toNat_toUInt8 a.val
    rw [← UInt8.toNat_inj, UInt8.toNat_ofNat', hword, Nat.mod_eq_of_lt (by omega : a.toNat < 256)]
  rw [hchar, firstByte?, List.flatMap_cons, String.utf8EncodeChar, Char.toNat_val]
  -- A character takes one byte if it is ASCII, and else its first byte is at least 192.
  split_ifs
  all_goals
    rw [List.cons_append, List.head?_cons, Option.some.injEq, hbyte]
    omega

theorem ofByte_firstByte? (key : List Char) :
    Sigil.ofByte (firstByte? key) = Sigil.ofKey key := by
  cases key with
  | nil => rfl
  | cons c s =>
      simp (disch := decide) only [Sigil.ofByte, firstByte?_eq_iff]
      split_ifs with hopen hclose hinverted hinclusion hcomment hraw
      · rw [hopen]; rfl
      · rw [hclose]; rfl
      · rw [hinverted]; rfl
      · rw [hinclusion]; rfl
      · rw [hcomment]; rfl
      · rw [hraw]; rfl
      · unfold Sigil.ofKey
        split <;> simp_all

theorem sliceFrom?_width (key : List Char) :
    sliceFrom? key (Sigil.ofKey key).width = some ((Sigil.ofKey key).strip key) := by
  unfold Sigil.ofKey
  split
  · next s => exact sliceFrom?_append ['#'] s
  · next s => exact sliceFrom?_append ['/'] s
  · next s => exact sliceFrom?_append ['^'] s
  · next s => exact sliceFrom?_append ['>'] s
  · next s => exact sliceFrom?_append ['!'] s
  · next s => exact sliceFrom?_append ['{'] s
  · exact sliceFrom?_append [] key

theorem expression?_eq (tag : Tag) : expression? tag.key = some tag.expression := by
  rw [expression?, ofByte_firstByte?, sliceFrom?_width, Option.bind_eq_bind, Option.bind_some]
  rfl

/-! ## Lines and columns -/

/-- The byte of a text at which a character last stands. -/
def lastPlace? (c : Char) : List Char → Option Nat
  | [] => none
  | d :: s =>
      match lastPlace? c s with
      | some place => some (d.utf8Size + place)
      | none => if d = c then some 0 else none

/-- The byte at which the last line of a text starts. -/
def lineStart (s : List Char) : Nat :=
  match lastPlace? '\n' s with
  | some place => place + 1
  | none => 0

/-- Where a tag stands, sliced out of a template. -/
def location? (source : List Char) (tag : Tag) : Option Location := do
  let front ← sliceTo? source tag.start
  let line ← slice? source (lineStart front) tag.start
  let last ← lineAt? source tag.stop
  some ⟨last, UInt32.ofNat (line.length + 1)⟩

theorem lastPlace?_eq_none {c : Char} {s : List Char} (h : c ∉ s) : lastPlace? c s = none := by
  induction s with
  | nil => rfl
  | cons d s ih =>
      rw [List.mem_cons, not_or] at h
      rw [lastPlace?, ih h.2]
      exact if_neg (Ne.symm h.1)

theorem lastPlace?_append {c : Char} (before : List Char) {behind : List Char}
    (h : c ∉ behind) : lastPlace? c (before ++ c :: behind) = some (byteLength before) := by
  induction before with
  | nil =>
      rw [List.nil_append, lastPlace?, lastPlace?_eq_none h]
      exact if_pos rfl
  | cons d before ih => rw [List.cons_append, lastPlace?, ih, byteLength_cons]

/-- The last line of a text starts behind what stands in front of the line. -/
theorem lineStart_append {before line : List Char} (hline : '\n' ∉ line)
    (hbefore : before = [] ∨ before.getLast? = some '\n') :
    lineStart (before ++ line) = byteLength before := by
  rcases hbefore with rfl | hlast
  · rw [List.nil_append, lineStart, lastPlace?_eq_none hline]
    rfl
  · obtain ⟨before, rfl⟩ := List.getLast?_eq_some_iff.mp hlast
    rw [lineStart, List.append_assoc, List.singleton_append, lastPlace?_append before hline,
      byteLength_append]
    rfl

section

variable {source front : List Char} {tag : Tag}

/-- The template up to the end of a tag can be sliced off. -/
theorem Tag.StandsBehind.lineAt? (h : tag.StandsBehind source front) :
    lineAt? source tag.stop = some (lineAt source tag.stop) := by
  obtain ⟨⟨rest, hsource⟩, hends⟩ := h
  have hstop : tag.stop = byteLength (front ++ tag.text) := by
    rw [Tag.stop, byteLength_append, hends]
  rw [← List.append_assoc] at hsource
  rw [lineAt, hstop, hsource, lineAt?_append, takeBytes_byteLength_append]

/-- The line in front of a tag can be sliced out. -/
theorem Tag.StandsBehind.location? (h : tag.StandsBehind source front) :
    location? source tag = some (tag.location source) := by
  have hlast := h.lineAt?
  obtain ⟨⟨rest, hsource⟩, hends⟩ := h
  obtain ⟨⟨before, hfront, hbefore⟩, hline⟩ := endsInLine_takeWhile front
  have hslice : sliceTo? source tag.start = some front := by
    rw [hsource, ← hends]
    exact sliceTo?_append front _
  have hcut : takeBytes tag.start source = front := by
    rw [hsource, ← hends, takeBytes_byteLength_append]
  have hcolumn : slice? source (lineStart front) tag.start
      = some (front.reverse.takeWhile (· ≠ '\n')).reverse := by
    have hstart : lineStart front = byteLength before := by
      rw [hfront]
      exact lineStart_append hline hbefore
    have hcut := slice?_append before (front.reverse.takeWhile (· ≠ '\n')).reverse
      (tag.text ++ rest)
    rwa [← byteLength_append, ← List.append_assoc, ← hfront, ← hsource, ← hstart, hends] at hcut
  simp only [Mustache.location?, hslice, hcolumn, hlast, Option.bind_eq_bind, Option.bind_some,
    List.length_reverse, Tag.location, hcut, columnAfter]

/-- A tag as written can be sliced out of a template. -/
theorem Tag.StandsBehind.slice? (h : tag.StandsBehind source front) :
    slice? source tag.start tag.stop = some tag.text := by
  obtain ⟨⟨rest, hsource⟩, hends⟩ := h
  rw [Tag.stop, ← hends, hsource]
  exact slice?_append front tag.text rest

end

/-! ## Tags put back -/

namespace Placeholders

/-- What a piece of a text with placeholders stands for; a tag is sliced out of its template. -/
def restorePiece? (p : Placeholders) (source : List Char) :
    Placeholder.Piece → Option (List Char)
  | .text chars => some chars
  | .word digits =>
      match Placeholder.tagOf? p.tags digits with
      | some tag => slice? source tag.start tag.stop
      | none => some (p.start ++ (digits ++ ['_', '_']))

/-- What the pieces of a text with placeholders stand for. -/
def restorePieces? (p : Placeholders) (source : List Char) :
    List Placeholder.Piece → Option (List Char)
  | [] => some []
  | piece :: rest => do
      let first ← p.restorePiece? source piece
      let others ← p.restorePieces? source rest
      some (first ++ others)

/-- A text with the tags, as they are sliced out of a template, in place of their
placeholders. -/
def restore? (p : Placeholders) (source s : List Char) : Option (List Char) :=
  p.restorePieces? source (Placeholder.pieces p.start s)

/-- Tags that can be sliced out are put back as they are written. -/
theorem restorePieces?_resolve {p : Placeholders} {source : List Char}
    (htags : ∀ tag ∈ p.tags, slice? source tag.start tag.stop = some tag.text)
    (pieces : List Placeholder.Piece) (before : List Char) :
    ∃ restored, p.restorePieces? source pieces = some restored
      ∧ (Placeholder.resolve p.start p.tags before pieces).flatMap Segment.text
        = before ++ restored := by
  -- Text waits in `before` until the next tag, so the induction is for any text there.
  induction pieces generalizing before with
  | nil =>
      refine ⟨[], rfl, ?_⟩
      rw [Placeholder.resolve, text_literalSegment, List.append_nil]
  | cons piece rest ih =>
      cases piece with
      | text chars =>
          obtain ⟨restored, hrest, hresolved⟩ := ih (before ++ chars)
          refine ⟨chars ++ restored, ?_, ?_⟩
          · simp only [restorePieces?, restorePiece?, hrest, Option.bind_eq_bind, Option.bind_some]
          · rw [Placeholder.resolve, hresolved, List.append_assoc]
      | word digits =>
          cases htag : Placeholder.tagOf? p.tags digits with
          | some tag =>
              obtain ⟨index, -, hindex⟩ := Option.bind_eq_some_iff.mp htag
              have hslice := htags tag (List.mem_of_getElem? hindex)
              obtain ⟨restored, hrest, hresolved⟩ := ih []
              refine ⟨tag.text ++ restored, ?_, ?_⟩
              · simp only [restorePieces?, restorePiece?, htag, hslice, hrest,
                  Option.bind_eq_bind, Option.bind_some]
              · simp only [Placeholder.resolve, htag, List.flatMap_append, text_literalSegment,
                  List.flatMap_cons, hresolved, Segment.text, List.nil_append]
          | none =>
              obtain ⟨restored, hrest, hresolved⟩ :=
                ih (before ++ (p.start ++ (digits ++ ['_', '_'])))
              refine ⟨p.start ++ (digits ++ ['_', '_']) ++ restored, ?_, ?_⟩
              · simp only [restorePieces?, restorePiece?, htag, hrest, Option.bind_eq_bind,
                  Option.bind_some]
              · simp only [Placeholder.resolve, htag, hresolved, List.append_assoc]

/-- The tags of a template can be put back into any text with its placeholders. -/
theorem restore?_ofSource (source s : List Char) :
    (ofSource source).restore? source s = some ((ofSource source).restore s) := by
  have htags : ∀ tag ∈ (ofSource source).tags,
      slice? source tag.start tag.stop = some tag.text := by
    intro tag htag
    obtain ⟨front, hstands⟩ := exists_standsBehind htag
    exact hstands.slice?
  obtain ⟨restored, hrestored, hresolved⟩ := restorePieces?_resolve htags
    (Placeholder.pieces (ofSource source).start s) []
  rw [restore?, hrestored, restore, reveal, hresolved, List.nil_append]

end Placeholders

/-! ## Templates -/

/-- Whether a template is cut between its characters, wherever it is sliced. -/
structure CutBetweenCharacters (source : List Char) : Prop where
  /-- No slice of a scan is refused, and at each of its steps all the places that it holds lie
  in the template and between characters. -/
  steps : ∀ steps, ∃ c, Cursor.after? source steps = some c ∧ c.OnBoundaries source
  /-- A scan comes to the end of the template. The pieces that it gives out by then are those
  of the template, and the template with placeholders is written from them. -/
  ends : ∃ steps c, Cursor.after? source steps = some c ∧ c.Finished source
    ∧ c.segments source = scan source
    ∧ Placeholder.normalizeFrom (Placeholders.ofSource source).start 0 (c.segments source)
      = (Placeholders.ofSource source).hide source
  /-- The places of every tag lie between characters; it is not empty, and neither is its key,
  which holds no closing brace. -/
  tags : ∀ tag ∈ tagsOf (scan source), ∃ placed : PlacedTag,
    placed.WellPlaced source ∧ placed.toTag source = tag
  /-- The expression of a tag is sliced out of its key. -/
  expressions : ∀ tag ∈ tagsOf (scan source), expression? tag.key = some tag.expression
  /-- The line of a tag is counted in a slice up to its end. -/
  lines : ∀ tag ∈ tagsOf (scan source), lineAt? source tag.stop = some (lineAt source tag.stop)
  /-- So is its place, with the slice of the line in front of it. -/
  locations : ∀ tag ∈ tagsOf (scan source), location? source tag = some (tag.location source)
  /-- Tags are sliced out of the template to be put back into any text. -/
  restored : ∀ s, (Placeholders.ofSource source).restore? source s
    = some ((Placeholders.ofSource source).restore s)

theorem Cursor.exists_placed {source : List Char} {c : Cursor} {tag : Tag}
    (h : tag ∈ tagsOf (c.segments source)) :
    ∃ placed, .tag placed ∈ c.pieces ∧ placed.toTag source = tag := by
  obtain ⟨segment, hsegment, htag⟩ := List.mem_filterMap.mp h
  obtain ⟨piece, hpiece, rfl⟩ := List.mem_map.mp hsegment
  cases piece with
  | literal text => cases htag
  | tag placed =>
      cases htag
      exact ⟨placed, List.mem_reverse.mp hpiece, rfl⟩

/-- A template is cut between its characters only, whatever these are: while it is scanned,
where the expressions and places of its tags are taken, and where tags are put back. -/
theorem scan_stays_between_characters (source : List Char) : CutBetweenCharacters source := by
  have hfirst : Cursor.after? source 0 = some .first := rfl
  obtain ⟨steps, c, front, ahead, hafter, hsound, hfinished⟩ :=
    Cursor.exists_finished hfirst (Cursor.sound_first source)
  have hsegments := hsound.segments_of_finished hfinished
  refine
    { steps := ?_
      ends := ⟨steps, c, hafter, hfinished, hsegments, by rw [hsegments]; rfl⟩
      tags := ?_
      expressions := fun tag _ => expression?_eq tag
      lines := ?_
      locations := ?_
      restored := Placeholders.restore?_ofSource source }
  · intro steps
    obtain ⟨c, front, ahead, hafter, hsound⟩ := Cursor.after?_sound source steps
    exact ⟨c, hafter, hsound.onBoundaries⟩
  · intro tag htag
    rw [← hsegments] at htag
    obtain ⟨placed, hmem, hplaced⟩ := Cursor.exists_placed htag
    exact ⟨placed, hsound.tags placed (.inr hmem), hplaced⟩
  · intro tag htag
    obtain ⟨front, hstands⟩ := exists_standsBehind htag
    exact hstands.lineAt?
  · intro tag htag
    obtain ⟨front, hstands⟩ := exists_standsBehind htag
    exact hstands.location?

/-- The key of the tag is a blank of three bytes, which is kept since nothing else is in the
braces; letters of two bytes stand in front of it. -/
theorem scan_stays_between_characters_of_blank :
    let source := "\u00E9\n\u00E9\x7b\x7b \u3000\x7d\x7d".toList
    let tag : Tag := ⟨5, "\x7b\x7b \u3000\x7d\x7d".toList, ['\u3000']⟩
    tag ∈ tagsOf (scan source)
      ∧ expression? tag.key = some ['\u3000']
      ∧ location? source tag = some ⟨2, 2⟩
      ∧ (∃ steps c, Cursor.after? source steps = some c ∧ c.Finished source
        ∧ c.OnBoundaries source) := by
  intro source tag
  have htag : tag ∈ tagsOf (scan source) := by decide +kernel
  have hcut := scan_stays_between_characters source
  refine ⟨htag, ?_, ?_, ?_⟩
  · exact (hcut.expressions tag htag).trans (by decide +kernel)
  · exact (hcut.locations tag htag).trans (by decide +kernel)
  · obtain ⟨steps, c, hafter, hfinished, -⟩ := hcut.ends
    obtain ⟨d, hd, hboundaries⟩ := hcut.steps steps
    rw [hafter, Option.some.injEq] at hd
    subst hd
    exact ⟨steps, c, hafter, hfinished, hboundaries⟩

end Mustache
