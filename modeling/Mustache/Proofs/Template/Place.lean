import Mustache.Proofs.Template.Decomposition

/-!
Where tags stand.

A scan yields text and tags in turn; `Scanned` says so as a relation, so that what holds of
all scans is proved by induction on one. A tag stands in its template behind a part that
takes as many bytes as the start of the tag says. Its line is the one that its last
character is on, its column that of its first one within the line that the part in front
ends in. Lines and columns are words of 32 bits, and true counts in any template that is
short enough.
-/
set_option autoImplicit false

namespace Mustache

open Text

/-! ## Scans -/

/-- Pieces of a text that starts at a byte: text, or text and a tag and further pieces. -/
inductive Scanned : (start : Nat) → (s : List Char) → List Segment → Prop
  | literal (start : Nat) (s : List Char) : Scanned start s (literalSegment s)
  | tag {start : Nat} {before text key rest : List Char} {segments : List Segment}
      (hne : text ≠ [])
      (hrest : Scanned (start + byteLength before + byteLength text) rest segments) :
      Scanned start (before ++ (text ++ rest))
        (literalSegment before ++ .tag ⟨start + byteLength before, text, key⟩ :: segments)

/-- The leftmost tag of a text is never empty. -/
theorem text_ne_nil_of_splitAtTag {s : List Char} {t : TagReading}
    (h : (splitAtTag s).2 = some t) : t.text ≠ [] :=
  text_ne_nil (readTag?_of_splitAtTag h)

/-- A scan yields text and tags in turn. -/
theorem scanned (start : Nat) (s : List Char) : Scanned start s (scanFrom start s) := by
  have hspells := splitAtTag_spells s
  rw [scanFrom]
  split
  · next h =>
    rw [h, List.append_nil] at hspells
    rw [hspells]
    exact .literal start s
  · next t h =>
    rw [h] at hspells
    dsimp only at hspells
    have hshort := length_rest_lt_of_splitAtTag h
    generalize (splitAtTag s).1 = before at hspells ⊢
    subst hspells
    exact .tag (text_ne_nil_of_splitAtTag h) (scanned _ t.rest)
termination_by s.length

section

variable {start : Nat} {s : List Char} {segments : List Segment}

theorem text_literalSegment (text : List Char) :
    (literalSegment text).flatMap Segment.text = text := by
  rw [literalSegment]
  split_ifs with h
  · rw [List.isEmpty_iff.mp h, List.flatMap_nil]
  · rw [List.flatMap_singleton, Segment.text]

/-- The pieces of a text spell it. -/
theorem Scanned.text (h : Scanned start s segments) : segments.flatMap Segment.text = s := by
  induction h with
  | literal start s => exact text_literalSegment s
  | tag hne hrest ih =>
      rw [List.flatMap_append, text_literalSegment, List.flatMap_cons, ih, Segment.text]

/-- A text has no more tags than characters. -/
theorem Scanned.length_tagsOf_le (h : Scanned start s segments) :
    (tagsOf segments).length ≤ s.length := by
  induction h with
  | literal start s =>
      rw [tagsOf_literalSegment]
      exact Nat.zero_le _
  | tag hne hrest ih =>
      have hpos := List.length_pos_iff.mpr hne
      rw [tagsOf_append, tagsOf_literalSegment, List.nil_append, List.length_append,
        List.length_append]
      have hcons := Nat.succ_le_succ ih
      exact Nat.le_trans hcons (by omega)

end

/-! ## Tags in a template -/

/-- Whether a tag stands in a template behind a leading part. -/
structure Tag.StandsBehind (source front : List Char) (tag : Tag) : Prop where
  /-- The tag follows the part. -/
  follows : ∃ rest, source = front ++ (tag.text ++ rest)
  /-- The part ends at the start of the tag. -/
  ends : byteLength front = tag.start

theorem Scanned.standsBehind {start : Nat} {s : List Char} {segments : List Segment}
    (h : Scanned start s segments) {front : List Char} (hfront : byteLength front = start) :
    ∀ tag ∈ tagsOf segments, ∃ before, tag.StandsBehind (front ++ s) (front ++ before) := by
  induction h generalizing front with
  | literal start s =>
      intro tag htag
      simp [tagsOf_literalSegment] at htag
  | @tag start before text key rest segments hne hrest ih =>
      intro tag htag
      rw [tagsOf_append, tagsOf_literalSegment, List.nil_append] at htag
      -- The tag is the first one, or it stands behind the first one.
      rcases List.mem_cons.mp htag with rfl | htag
      · refine ⟨before, ⟨rest, by rw [List.append_assoc]⟩, ?_⟩
        rw [byteLength_append, hfront]
      · have hplace : byteLength (front ++ (before ++ text))
            = start + byteLength before + byteLength text := by
          rw [byteLength_append, byteLength_append, hfront, Nat.add_assoc]
        obtain ⟨more, hmore⟩ := ih hplace tag htag
        have hsource : front ++ (before ++ text) ++ rest = front ++ (before ++ (text ++ rest)) := by
          rw [List.append_assoc, List.append_assoc]
        rw [hsource, List.append_assoc] at hmore
        exact ⟨_, hmore⟩

/-- Every tag of a template stands behind some part of it. -/
theorem exists_standsBehind {source : List Char} {tag : Tag} (h : tag ∈ tagsOf (scan source)) :
    ∃ front, tag.StandsBehind source front :=
  (scanned 0 source).standsBehind byteLength_nil tag h

/-! ## Lines -/

/-- Whether a text ends in a line: what follows its last line feed. -/
structure EndsInLine (s line : List Char) : Prop where
  /-- The line is at the start of the text or behind a line feed. -/
  starts : ∃ before, s = before ++ line ∧ (before = [] ∨ before.getLast? = some '\n')
  /-- No line feed is in the line. -/
  unbroken : '\n' ∉ line

/-- What is taken from the end of a text up to a line feed is its last line. -/
theorem endsInLine_takeWhile (s : List Char) :
    EndsInLine s (s.reverse.takeWhile (· ≠ '\n')).reverse := by
  refine ⟨⟨(s.reverse.dropWhile (· ≠ '\n')).reverse, ?_, ?_⟩, ?_⟩
  · rw [← List.reverse_append, List.takeWhile_append_dropWhile, List.reverse_reverse]
  · rw [List.getLast?_reverse, List.reverse_eq_nil_iff]
    have hhead := List.head?_dropWhile_not (· ≠ '\n') s.reverse
    cases hrest : s.reverse.dropWhile (· ≠ '\n') with
    | nil => exact .inl rfl
    | cons c rest =>
        rw [hrest, List.head?_cons] at hhead
        refine .inr (congrArg some ?_)
        simpa using hhead
  · intro hmem
    have hall := List.all_eq_true.mp (List.all_takeWhile (p := (· ≠ '\n')) (l := s.reverse))
    simpa using hall '\n' (List.mem_reverse.mp hmem)

/-! ## Counts of 32 bits -/

theorem length_le_byteLength (s : List Char) : s.length ≤ byteLength s := by
  induction s with
  | nil => exact Nat.le_refl 0
  | cons c s ih =>
      have hpos := Char.utf8Size_pos c
      rw [List.length_cons, byteLength_cons]
      omega

theorem byteLength_pos {s : List Char} (h : s ≠ []) : 0 < byteLength s :=
  Nat.lt_of_lt_of_le (List.length_pos_iff.mpr h) (length_le_byteLength s)

/-- A word of 32 bits holds a count in a short text, and one. -/
theorem toNat_count {n : Nat} {s : List Char} (hn : n ≤ s.length)
    (hsize : byteLength s < UInt32.size - 1) : (UInt32.ofNat (n + 1)).toNat = n + 1 := by
  have hlength := length_le_byteLength s
  have hcount : n + 1 < UInt32.size := by omega
  exact UInt32.toNat_ofNat_of_lt hcount

section

variable {source front : List Char} {tag : Tag}

theorem Tag.StandsBehind.line (h : tag.StandsBehind source front)
    (hsize : byteLength source < UInt32.size - 1) :
    (tag.location source).line.toNat = 1 + newlines (front ++ tag.text) := by
  obtain ⟨⟨rest, rfl⟩, hends⟩ := h
  have hstop : tag.stop = byteLength (front ++ tag.text) := by
    rw [Tag.stop, byteLength_append, hends]
  rw [← List.append_assoc, byteLength_append] at hsize
  have hline : (tag.location (front ++ tag.text ++ rest)).line = lineAfter (front ++ tag.text) := by
    rw [Tag.location, lineAt, hstop, takeBytes_byteLength_append]
  rw [← List.append_assoc, hline, lineAfter, newlines,
    toNat_count List.count_le_length (by omega), Nat.add_comm]

theorem Tag.StandsBehind.column (h : tag.StandsBehind source front)
    (hsize : byteLength source < UInt32.size - 1) :
    ∃ line, EndsInLine front line ∧ (tag.location source).column.toNat = 1 + line.length := by
  obtain ⟨⟨rest, rfl⟩, hends⟩ := h
  refine ⟨_, endsInLine_takeWhile front, ?_⟩
  have hlength : (front.reverse.takeWhile (· ≠ '\n')).length ≤ front.length := by
    have hreverse := (List.takeWhile_prefix (p := (· ≠ '\n')) (l := front.reverse)).length_le
    rwa [List.length_reverse] at hreverse
  rw [byteLength_append] at hsize
  have hcolumn : (tag.location (front ++ (tag.text ++ rest))).column = columnAfter front := by
    rw [Tag.location, ← hends, takeBytes_byteLength_append]
  rw [hcolumn, columnAfter, toNat_count hlength (by omega), List.length_reverse, Nat.add_comm]

end

end Mustache
