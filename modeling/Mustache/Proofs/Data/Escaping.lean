import Mathlib.Data.List.Basic
import Mustache.Proofs.Text.Decimal
import Mustache.Render.Renderer

/-!
Markup in what an interpolation prints.

An escaped interpolation writes the markup characters of a string as references. The text holds
none of them bare, an ampersand only where a reference starts, and gives the string back when
the references are read in one pass (`escapes_escapeMarkup`). Values of other kinds are printed
as they are: numbers, booleans and objects print without markup characters, whatever they hold,
but the strings in an array are printed unescaped. So markup gets through in arrays and in no
other way (`markup_only_of_arrays`).
-/
set_option autoImplicit false

namespace Mustache

open Json

namespace Text

/-! ## References -/

/-- The characters that open or close a tag or a quoted value. -/
def bareMarkup : List Char :=
  ['<', '>', '"']

/-- The references that escaping writes. -/
def references : List String :=
  ["&amp;", "&lt;", "&quot;", "&gt;"]

/-- Reads the references that escaping writes, in one pass from left to right. -/
def readReferences : List Char → List Char
  | '&' :: 'a' :: 'm' :: 'p' :: ';' :: s => '&' :: readReferences s
  | '&' :: 'l' :: 't' :: ';' :: s => '<' :: readReferences s
  | '&' :: 'q' :: 'u' :: 'o' :: 't' :: ';' :: s => '"' :: readReferences s
  | '&' :: 'g' :: 't' :: ';' :: s => '>' :: readReferences s
  | c :: s => c :: readReferences s
  | [] => []

/-- Whether a text has no bare markup, each ampersand starts a reference, and the references
give a string back. -/
structure Escapes (text s : List Char) : Prop where
  bare : ∀ c ∈ text, c ∉ bareMarkup
  reference : ∀ before after, text = before ++ '&' :: after →
    ∃ reference ∈ references, reference.toList <+: '&' :: after
  back : readReferences text = s

/-- Whether a text has no markup character at all. -/
def IsPlain (text : List Char) : Prop :=
  ∀ c ∈ text, c ≠ '&' ∧ c ∉ bareMarkup

/-- Character by character; there are too many characters to try them all. -/
instance (text : List Char) : Decidable (IsPlain text) :=
  List.decidableBAll (fun c => c ≠ '&' ∧ c ∉ bareMarkup) text

/-- Whether a text has bare markup. -/
def HasMarkup (text : List Char) : Prop :=
  ∃ c ∈ text, c ∈ bareMarkup

/-- Replacing the four characters one after another is escaping: no later replacement finds
anything in the references of an earlier one. -/
theorem replacements_eq_escapeMarkup (s : List Char) :
    (((s.flatMap fun d => if d = '&' then "&amp;".toList else [d]).flatMap
      fun d => if d = '<' then "&lt;".toList else [d]).flatMap
      fun d => if d = '"' then "&quot;".toList else [d]).flatMap
      (fun d => if d = '>' then "&gt;".toList else [d]) = escapeMarkup s := by
  rw [List.flatMap_assoc, List.flatMap_assoc, List.flatMap_assoc]
  refine List.flatMap_congr fun c _ => ?_
  rw [markupEntity]
  split_ifs with hamp hlt hquot hgt
  · subst hamp
    rfl
  · subst hlt
    rfl
  · subst hquot
    rfl
  · subst hgt
    rfl
  · rw [List.flatMap_singleton, if_neg hlt, List.flatMap_singleton, if_neg hquot,
      List.flatMap_singleton, if_neg hgt]

/-- A character is written as a reference, which has one ampersand and no bare markup, or
else as it is. -/
theorem markupEntity_cases (c : Char) :
    (∃ name, markupEntity c = '&' :: name ∧ String.ofList ('&' :: name) ∈ references
        ∧ IsPlain name)
      ∨ markupEntity c = [c] ∧ c ≠ '&' ∧ c ∉ bareMarkup := by
  have hplain : ∀ reference ∈ references, IsPlain (reference.toList.drop 1) := by decide
  rw [markupEntity]
  split_ifs with hamp hlt hquot hgt
  · exact .inl ⟨_, rfl, by decide, hplain "&amp;" (by decide)⟩
  · exact .inl ⟨_, rfl, by decide, hplain "&lt;" (by decide)⟩
  · exact .inl ⟨_, rfl, by decide, hplain "&quot;" (by decide)⟩
  · exact .inl ⟨_, rfl, by decide, hplain "&gt;" (by decide)⟩
  · exact .inr ⟨rfl, hamp, by simp [bareMarkup, hlt, hgt, hquot]⟩

/-- What is no ampersand is read as it is. -/
theorem readReferences_cons {c : Char} (h : c ≠ '&') (s : List Char) :
    readReferences (c :: s) = c :: readReferences s := by
  rw [readReferences]
  all_goals
    rintro _ rfl
    exact absurd rfl h

/-- A character that is written is read back, whatever follows. -/
theorem readReferences_markupEntity (c : Char) (s : List Char) :
    readReferences (markupEntity c ++ s) = c :: readReferences s := by
  rw [markupEntity]
  split_ifs with hamp hlt hquot hgt
  · rw [hamp]
    rfl
  · rw [hlt]
    rfl
  · rw [hquot]
    rfl
  · rw [hgt]
    rfl
  · exact readReferences_cons hamp s

/-- The references of an escaped string give the string back. -/
theorem readReferences_escapeMarkup (s : List Char) : readReferences (escapeMarkup s) = s := by
  induction s with
  | nil => rfl
  | cons c s ih => rw [escapeMarkup, List.flatMap_cons, ← escapeMarkup,
      readReferences_markupEntity, ih]

theorem not_mem_escapeMarkup (s : List Char) : ∀ c ∈ escapeMarkup s, c ∉ bareMarkup := by
  intro c hc
  obtain ⟨d, -, hd⟩ := List.mem_flatMap.mp hc
  rcases markupEntity_cases d with ⟨name, hentity, -, hname⟩ | ⟨hentity, -, hbare⟩
  · rw [hentity] at hd
    rcases List.mem_cons.mp hd with rfl | hd
    · decide
    · exact (hname c hd).2
  · rw [hentity] at hd
    cases List.mem_singleton.mp hd
    exact hbare

/-- Each ampersand of an escaped string starts a reference. -/
theorem exists_reference {s before after : List Char}
    (h : escapeMarkup s = before ++ '&' :: after) :
    ∃ reference ∈ references, reference.toList <+: '&' :: after := by
  induction s generalizing before with
  | nil => exact absurd h.symm (List.append_ne_nil_of_right_ne_nil _ (List.cons_ne_nil _ _))
  | cons c s ih =>
      rw [escapeMarkup, List.flatMap_cons, ← escapeMarkup] at h
      rcases markupEntity_cases c with ⟨name, hentity, hmem, hname⟩ | ⟨hentity, hamp, -⟩
      · rw [hentity] at h
        cases before with
        | nil =>
            obtain ⟨-, hafter⟩ := List.cons.inj h
            refine ⟨_, hmem, escapeMarkup s, ?_⟩
            rw [String.toList_ofList, ← hafter]
            rfl
        | cons d before =>
            -- The name of a reference has no ampersand, so that it ends before this one.
            obtain ⟨-, hrest⟩ := List.cons.inj h
            rcases List.append_eq_append_iff.mp hrest with ⟨more, -, hs⟩ | ⟨more, hsplit, hs⟩
            · exact ih hs
            · cases more with
              | nil =>
                  have hrest : escapeMarkup s = [] ++ '&' :: after := hs.symm
                  exact ih hrest
              | cons e more =>
                  obtain ⟨rfl, -⟩ := List.cons.inj hs
                  have hin : '&' ∈ name := by
                    rw [hsplit]
                    exact List.mem_append_right _ List.mem_cons_self
                  exact absurd rfl (hname '&' hin).1
      · rw [hentity] at h
        cases before with
        | nil =>
            obtain ⟨rfl, -⟩ := List.cons.inj h
            exact absurd rfl hamp
        | cons d before => exact ih (List.cons.inj h).2

/-- An escaped string is written safely, and so that it can be read back. -/
theorem escapes_escapeMarkup (s : List Char) : Escapes (escapeMarkup s) s where
  bare := not_mem_escapeMarkup s
  reference := fun _ _ h => exists_reference h
  back := readReferences_escapeMarkup s

/-! ## Plain text -/

theorem isPlain_nil : IsPlain [] :=
  fun _ hc => absurd hc List.not_mem_nil

theorem IsPlain.cons {c : Char} {s : List Char} (hc : c ≠ '&' ∧ c ∉ bareMarkup)
    (hs : IsPlain s) : IsPlain (c :: s) :=
  List.forall_mem_cons.mpr ⟨hc, hs⟩

theorem IsPlain.append {s t : List Char} (hs : IsPlain s) (ht : IsPlain t) : IsPlain (s ++ t) :=
  List.forall_mem_append.mpr ⟨hs, ht⟩

theorem IsPlain.of_subset {s t : List Char} (ht : IsPlain t) (h : s ⊆ t) : IsPlain s :=
  fun c hc => ht c (h hc)

theorem IsPlain.not_hasMarkup {s : List Char} (h : IsPlain s) : ¬ HasMarkup s :=
  fun ⟨c, hc, hmarkup⟩ => (h c hc).2 hmarkup

theorem Escapes.not_hasMarkup {text s : List Char} (h : Escapes text s) : ¬ HasMarkup text :=
  fun ⟨c, hc, hmarkup⟩ => h.bare c hc hmarkup

/-- A numeral is plain. -/
theorem isPlain_decimal (n : Nat) : IsPlain (decimal n) := by
  have hdigit : ∀ d < 10, digitChar d ≠ '&' ∧ digitChar d ∉ bareMarkup := by decide
  intro c hc
  obtain ⟨d, hd, rfl⟩ := exists_digit_of_mem_decimal n c hc
  exact hdigit d hd

end Text

open Text

/-! ## Numbers -/

theorem isPlain_zeros (n : Nat) : IsPlain (List.replicate n '0') := by
  intro c hc
  rw [List.eq_of_mem_replicate hc]
  decide

/-- A magnitude without an exponent is plain. -/
theorem Decimal.isPlain_positional (d : Decimal) : IsPlain d.positional := by
  have hdigits : IsPlain d.digitText := isPlain_decimal d.digits
  simp only [positional]
  split_ifs
  · exact hdigits.append (isPlain_zeros _)
  · exact (hdigits.of_subset (List.take_subset _ _)).append
      (.cons (by decide) (hdigits.of_subset (List.drop_subset _ _)))
  · exact .cons (by decide) (.cons (by decide) ((isPlain_zeros _).append hdigits))

/-- A magnitude with an exponent is plain. -/
theorem Decimal.isPlain_scientific (d : Decimal) : IsPlain d.scientific := by
  have hdigits : IsPlain d.digitText := isPlain_decimal d.digits
  have hfraction : IsPlain (if (d.digitText.drop 1).isEmpty then []
      else '.' :: d.digitText.drop 1) := by
    split_ifs
    · exact isPlain_nil
    · exact .cons (by decide) (hdigits.of_subset (List.drop_subset _ _))
  have hsign : ∀ p : Prop, [Decidable p] → (if p then '+' else '-') ≠ '&'
      ∧ (if p then '+' else '-') ∉ bareMarkup := by
    intro p _
    split_ifs <;> decide
  exact ((hdigits.of_subset (List.take_subset _ _)).append hfraction).append
    (.cons (by decide) (.cons (hsign _) (isPlain_decimal _)))

theorem Json.Number.isPlain_printed (n : Number) : IsPlain n.printed.toList := by
  cases n with
  | int n =>
      rw [printed, String.toList_ofList, integerText]
      split_ifs
      · exact .cons (by decide) (isPlain_decimal _)
      · exact isPlain_decimal _
  | double x =>
      -- Digits, a point, an exponent and signs are the only characters of either form.
      have hmagnitude : IsPlain (if -6 < x.shortest.pointAt ∧ x.shortest.pointAt ≤ 21
          then x.shortest.positional else x.shortest.scientific) := by
        split_ifs
        · exact x.shortest.isPlain_positional
        · exact x.shortest.isPlain_scientific
      rw [printed, String.toList_ofList, Binary64.text]
      split_ifs
      · exact .cons (by decide) isPlain_nil
      · exact .cons (by decide) hmagnitude
      · exact hmagnitude

/-! ## Interpolations -/

theorem isPlain_printed {value : Value} (hstr : ∀ s, value ≠ .str s)
    (harr : ∀ items, value ≠ .arr items) : IsPlain value.printed.toList := by
  have hwords : ∀ word ∈ ["null", "true", "false", "[object Object]"], IsPlain word.toList := by
    decide
  cases value with
  | null => exact hwords "null" (by decide)
  | bool b =>
      rw [Value.printed]
      split_ifs
      · exact hwords "true" (by decide)
      · exact hwords "false" (by decide)
  | num n =>
      rw [Value.printed]
      exact n.isPlain_printed
  | str s => exact absurd rfl (hstr s)
  | arr items => exact absurd rfl (harr items)
  | obj members => exact hwords "[object Object]" (by decide)

/-- A found string is written with references. -/
theorem escapes_printed_settle (s : String) :
    Escapes (printed (settle true (some (.str s)))).toList s.toList := by
  rw [settle, if_pos rfl, printed, Value.printed, String.toList_ofList]
  exact escapes_escapeMarkup s.toList

/-- What is found that is neither a string nor an array, or not found at all, prints plain
text. -/
theorem isPlain_printed_settle {found : Option Value} (hstr : ∀ s, found ≠ some (.str s))
    (harr : ∀ items, found ≠ some (.arr items)) :
    IsPlain (printed (settle true found)).toList := by
  have hempty : IsPlain (printed (some (.str ""))).toList := isPlain_nil
  cases found with
  | none => exact hempty
  | some value =>
      have hvalue : IsPlain value.printed.toList :=
        isPlain_printed (fun s h => hstr s (congrArg some h))
          fun items h => harr items (congrArg some h)
      -- A string and a number are kept, and all else if it counts as true.
      unfold settle
      split
      · rename_i s hfound
        exact absurd hfound (hstr s)
      · rename_i n hfound
        rw [← hfound]
        exact hvalue
      · split_ifs
        · exact hvalue
        · exact hempty

/-- Data that have markup in a string and in an array. -/
def markedData : Value :=
  .obj [("note", .obj [("body", .str "R&D <\"x\">")]), ("tags", .arr [.str "<b>", .null])]

/-- Let an expression be a path. If it leads to a string, an escaped interpolation writes it
with references. If it leads to a value that is neither a string nor an array, or to none, the
text has no markup character. So the text has bare markup exactly if the path leads to an
array that prints some. -/
theorem markup_only_of_arrays (scope : Value) {expression : String} (hne : expression ≠ "")
    (hdot : expression.toList.head? ≠ some '.') :
    (∀ s, walk scope (pathKeys expression) = some (.str s) →
        Escapes (interpolate scope expression true).toList s.toList)
      ∧ ((∀ s, walk scope (pathKeys expression) ≠ some (.str s)) →
        (∀ items, walk scope (pathKeys expression) ≠ some (.arr items)) →
        IsPlain (interpolate scope expression true).toList)
      ∧ (HasMarkup (interpolate scope expression true).toList ↔
        ∃ items, walk scope (pathKeys expression) = some (.arr items)
          ∧ HasMarkup (Value.arr items).printed.toList) := by
  rw [interpolate, lookup_of_path hne hdot]
  -- From here on it only matters what was found, not where.
  generalize walk scope (pathKeys expression) = found
  have hstring : ∀ s, found = some (.str s) →
      Escapes (printed (settle true found)).toList s.toList := by
    rintro s rfl
    exact escapes_printed_settle s
  refine ⟨hstring, isPlain_printed_settle, ?_⟩
  constructor
  · intro hmarkup
    by_cases harr : ∃ items, found = some (.arr items)
    · obtain ⟨items, rfl⟩ := harr
      exact ⟨items, rfl, hmarkup⟩
    · by_cases hstr : ∃ s, found = some (.str s)
      · obtain ⟨s, hs⟩ := hstr
        exact absurd hmarkup (hstring s hs).not_hasMarkup
      · have hplain := isPlain_printed_settle (fun s h => hstr ⟨s, h⟩)
          fun items h => harr ⟨items, h⟩
        exact absurd hmarkup hplain.not_hasMarkup
  · rintro ⟨items, rfl, hmarkup⟩
    exact hmarkup

/-- A marked string is escaped; the same markup in an array is not. -/
theorem markup_only_of_arrays_of_note :
    Escapes (interpolate markedData "note.body" true).toList "R&D <\"x\">".toList
      ∧ IsPlain (interpolate markedData "note" true).toList
      ∧ HasMarkup (interpolate markedData "tags" true).toList := by
  refine ⟨?_, ?_, ?_⟩
  · exact (markup_only_of_arrays markedData (by decide) (by decide)).1 _ rfl
  · exact (markup_only_of_arrays markedData (by decide) (by decide)).2.1
      (fun s h => nomatch h) (fun items h => nomatch h)
  · exact (markup_only_of_arrays markedData (by decide) (by decide)).2.2.mpr
      ⟨[.str "<b>", .null], rfl, '<', by decide, by decide⟩

end Mustache
