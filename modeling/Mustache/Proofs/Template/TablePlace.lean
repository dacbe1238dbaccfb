import Mathlib.Tactic.Common
import Mustache.Proofs.Template.Boundary
import Mustache.Readers.Own
import Mustache.Template.Structural

/-!
Where the first table is said to be.

The error about text in a table names the line of the first table. Its place is found in the
template in lower case and is then counted in the template itself. The two agree where the
lowercase forms in front of the table take as many bytes as what they stand for; then the
place is right before the table and the line is that of the table (`first_table_line`). A
character with a lowercase form of another width in front of the table moves the place
(`first_table_missed`), maybe into a character, and then the reading of the template breaks
(`readStructural_eq_none_iff`).
-/
set_option autoImplicit false

namespace Mustache

open Markup Text

/-! ## The first place of a word -/

/-- Whether a word in lower case stands behind a part of a text, in whatever case its ASCII
letters are, and nowhere earlier. -/
structure StandsFirst (word before s : List Char) : Prop where
  stands : ∃ found rest, s = before ++ (found ++ rest) ∧ found.map Char.toLower = word
  first : ∀ front found rest, s = front ++ (found ++ rest) → found.map Char.toLower = word →
    before.length ≤ front.length

variable {word before s source : List Char}

/-- A text starts with a word in any letter case if its first characters in lower case are
the word. -/
theorem startsWithFolded_iff :
    startsWithFolded word s = true
      ↔ ∃ found rest, s = found ++ rest ∧ found.map Char.toLower = word := by
  induction word generalizing s with
  | nil => exact iff_of_true (by rw [startsWithFolded]) ⟨[], s, rfl, rfl⟩
  | cons w word ih =>
      cases s with
      | nil =>
          refine iff_of_false (by rw [startsWithFolded]; exact Bool.false_ne_true) ?_
          rintro ⟨found, rest, hs, hfound⟩
          rw [(List.append_eq_nil_iff.mp hs.symm).1] at hfound
          cases hfound
      | cons c s =>
          rw [startsWithFolded, Bool.and_eq_true, beq_iff_eq, ih]
          constructor
          · rintro ⟨rfl, found, rest, rfl, rfl⟩
            exact ⟨c :: found, rest, rfl, rfl⟩
          · rintro ⟨found, rest, hs, hfound⟩
            -- What spells a longer word has a first character.
            cases found with
            | nil => cases hfound
            | cons d found =>
                cases hs
                cases hfound
                exact ⟨rfl, found, rest, rfl, rfl⟩

/-- The search finds the part in front of the first place of a word. -/
theorem beforeFolded?_eq_some_iff :
    beforeFolded? word s = some before ↔ StandsFirst word before s := by
  induction s generalizing before with
  | nil =>
      constructor
      · intro h
        rw [beforeFolded?] at h
        split_ifs at h with hempty
        cases h
        exact ⟨⟨[], [], rfl, (List.isEmpty_iff.mp hempty).symm⟩, fun _ _ _ _ _ => Nat.zero_le _⟩
      · rintro ⟨⟨found, rest, hs, hfound⟩, -⟩
        obtain ⟨rfl, hbehind⟩ := List.append_eq_nil_iff.mp hs.symm
        obtain ⟨rfl, -⟩ := List.append_eq_nil_iff.mp hbehind
        cases hfound
        rfl
  | cons c s ih =>
      rw [beforeFolded?]
      split_ifs with hstarts
      · obtain ⟨found, rest, hs, hfound⟩ := startsWithFolded_iff.mp hstarts
        constructor
        · intro h
          cases h
          exact ⟨⟨found, rest, hs, hfound⟩, fun _ _ _ _ _ => Nat.zero_le _⟩
        · intro h
          have hzero := h.first [] found rest hs hfound
          rw [List.length_nil, Nat.le_zero, List.length_eq_zero_iff] at hzero
          rw [hzero]
      · rw [Option.map_eq_some_iff]
        constructor
        · rintro ⟨behind, hbehind, rfl⟩
          obtain ⟨⟨found, rest, hs, hfound⟩, hfirst⟩ := ih.mp hbehind
          refine ⟨⟨found, rest, congrArg (c :: ·) hs, hfound⟩, fun front found rest hs hfound => ?_⟩
          -- The word does not stand at the very start, so that there is something in front.
          cases front with
          | nil => exact absurd (startsWithFolded_iff.mpr ⟨found, rest, hs, hfound⟩) hstarts
          | cons d front =>
              cases hs
              exact Nat.succ_le_succ (hfirst front found rest rfl hfound)
        · rintro ⟨⟨found, rest, hs, hfound⟩, hfirst⟩
          cases before with
          | nil => exact absurd (startsWithFolded_iff.mpr ⟨found, rest, hs, hfound⟩) hstarts
          | cons d behind =>
              cases hs
              refine ⟨behind,
                ih.mpr ⟨⟨found, rest, rfl, hfound⟩, fun front found rest hs hfound => ?_⟩,
                rfl⟩
              exact Nat.le_of_succ_le_succ
                (hfirst (c :: front) found rest (congrArg (c :: ·) hs) hfound)

/-! ## The line of the first table -/

/-- Where a table stands first behind a part of a template, its line is that of as many bytes
of the template as the part takes in lower case. -/
theorem tableLine?_eq (h : StandsFirst "<table".toList before source) :
    tableLine? source = lineAt? source (lowercaseLength before) := by
  rw [tableLine?, beforeFolded?_eq_some_iff.mpr h]

/-- The line of the first table is refused just if its place is inside a character. -/
theorem tableLine?_eq_none_iff :
    tableLine? source = none ↔ ∃ before, StandsFirst "<table".toList before source
      ∧ ¬ IsBoundary source (min (lowercaseLength before) (byteLength source)) := by
  constructor
  · intro h
    cases hbefore : beforeFolded? "<table".toList source with
    | none =>
        rw [tableLine?, hbefore] at h
        cases h
    | some before =>
        have hfirst := beforeFolded?_eq_some_iff.mp hbefore
        rw [tableLine?_eq hfirst] at h
        exact ⟨before, hfirst, lineAt?_eq_none_iff.mp h⟩
  · rintro ⟨before, hfirst, hinside⟩
    rw [tableLine?_eq hfirst, lineAt?_eq_none_iff]
    exact hinside

/-- Reading a structural template breaks just if there is text in a table of its document and
the line of the first table is refused. -/
theorem readStructural_eq_none_iff {readers : Readers} {file : String} :
    readStructural readers source file = none
      ↔ (readers.document ((walkOf source file).placeholders.hide source)).foundTableText = true
        ∧ tableLine? source = none := by
  rw [readStructural]
  cases (readers.document ((walkOf source file).placeholders.hide source)).foundTableText with
  | true => simp
  | false => simp

/-- If what stands in front of the first table takes as many bytes in lower case, then the
place of the table that is looked up is one between characters, and the error about text in a
table, which is the only answer for such a template, names the line of the table. -/
theorem first_table_line (readers : Readers) (h : StandsFirst "<table".toList before source)
    (hwidth : lowercaseLength before = byteLength before) (file : String) :
    let line := UInt32.ofNat (newlines before + 1)
    IsBoundary source (lowercaseLength before)
      ∧ tableLine? source = some line
      ∧ (TemplateError.tableText file line).report.code = codeMarkup
      ∧ (TemplateError.tableText file line).report.location = ⟨line, 0⟩
      ∧ ((readers.document ((walkOf source file).placeholders.hide source)).foundTableText = true →
        readStructural readers source file = some (.error (.tableText file line))) := by
  intro line
  obtain ⟨found, rest, hsource, -⟩ := h.stands
  have hline : tableLine? source = some line := by
    rw [tableLine?_eq h, hwidth, hsource, lineAt?_append]
    rfl
  refine ⟨⟨before, found ++ rest, hsource, hwidth.symm⟩, hline, rfl, rfl, fun hfound => ?_⟩
  rw [readStructural, hline]
  exact if_pos hfound

/-- A table in capitals, with text in it, behind letters of two bytes. -/
theorem first_table_line_of_capitals :
    tableLine? "\u00C9t\u00E9\n<TABLE>x</TABLE>".toList = some 2
      ∧ readStructural .own "\u00C9t\u00E9\n<TABLE>x</TABLE>".toList "rows"
        = some (.error (.tableText "rows" 2)) := by
  have hfirst : StandsFirst "<table".toList "\u00C9t\u00E9\n".toList
      "\u00C9t\u00E9\n<TABLE>x</TABLE>".toList :=
    beforeFolded?_eq_some_iff.mp (by decide +kernel)
  obtain ⟨-, hline, -, -, hread⟩ :=
    first_table_line .own hfirst (by decide +kernel) "rows"
  exact ⟨hline, hread (by decide +kernel)⟩

/-- Two Kelvin signs, each of three bytes and of one byte in lower case, and a table with text in
it on the next line. -/
def signsAndTable : List Char :=
  "\u212A\u212A\n<table>x</table>".toList

/-- The same behind a single Kelvin sign. -/
def signAndTable : List Char :=
  "\u212A\n<table>x</table>".toList

/-- The table is said to be on the line of the signs in front of it. Behind a single sign its
place falls within the sign, and the reading breaks. -/
theorem first_table_missed :
    StandsFirst "<table".toList "\u212A\u212A\n".toList signsAndTable
      ∧ newlines "\u212A\u212A\n".toList = 1
      ∧ readStructural .own signsAndTable "rows" = some (.error (.tableText "rows" 1))
      ∧ StandsFirst "<table".toList "\u212A\n".toList signAndTable
      ∧ ¬ IsBoundary signAndTable (lowercaseLength "\u212A\n".toList)
      ∧ readStructural .own signAndTable "rows" = none := by
  have hfound (source : List Char) (h : source = signsAndTable ∨ source = signAndTable) :
      ((Readers.own.document ((walkOf source "rows").placeholders.hide
        source)).foundTableText = true) := by
    rcases h with rfl | rfl <;> decide +kernel
  have hline : tableLine? signsAndTable = some 1 := by decide +kernel
  refine ⟨beforeFolded?_eq_some_iff.mp (by decide +kernel), by decide +kernel, ?_,
    beforeFolded?_eq_some_iff.mp (by decide +kernel), by decide +kernel, ?_⟩
  · rw [readStructural, hline]
    exact if_pos (hfound _ (.inl rfl))
  · exact readStructural_eq_none_iff.mpr ⟨hfound _ (.inr rfl), by decide +kernel⟩

end Mustache
