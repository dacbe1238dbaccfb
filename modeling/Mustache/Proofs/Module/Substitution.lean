import Mustache.Proofs.Module.Assembly

/-!
What is left of a text once its marks are filled in.

Which marks a text has does not depend on what they stand for: the text is taken apart at the
leftmost marks, one behind another, and no mark starts in the text between them. Filling in
copies that text and puts each value in the place of its mark, once; a value is not looked at
(`substitute_eq_filledIn`, by induction on the marks). The wrapper of a module has the two
marks that it is meant to have and no others, so that a module is its wrapper around its
functions and its body, whatever the body holds (`assembly_verbatim`).
-/
set_option autoImplicit false

namespace Mustache

/-! ## Marks in a text -/

/-- A mark as it is written. -/
def markText (name : List Char) : List Char :=
  '{' :: '{' :: (name ++ ['}', '}'])

/-- Whether a text can be the name of a mark. -/
structure IsMarkName (name : List Char) : Prop where
  nonempty : name ≠ []
  free : '}' ∉ name

def StartsWithMark (s : List Char) : Prop :=
  ∃ name, IsMarkName name ∧ markText name <+: s

/-- Whether no mark starts within a part of a text that `rest` follows. -/
def FreeOfMarks (part rest : List Char) : Prop :=
  ∀ front back, part = front ++ back → back ≠ [] → ¬ StartsWithMark (back ++ rest)

/-- What a text becomes whose marks are given by their names, each with the text in front of
it, and that ends in `tail`: a mark gives way to its value, or stays as it is written. -/
def filledIn (value? : List Char → Option (List Char)) :
    (marks : List (List Char × List Char)) → (tail : List Char) → List Char
  | [], tail => tail
  | (gap, name) :: marks, tail =>
      gap ++ ((value? name).getD (markText name) ++ filledIn value? marks tail)

def withMarks (marks : List (List Char × List Char)) (tail : List Char) : List Char :=
  filledIn (fun _ => none) marks tail

/-- Whether marks are, one behind another, the leftmost ones of their text. -/
def LeftmostMarks : (marks : List (List Char × List Char)) → (tail : List Char) → Prop
  | [], tail => FreeOfMarks tail []
  | (gap, name) :: marks, tail =>
      FreeOfMarks gap (markText name ++ withMarks marks tail) ∧ IsMarkName name
        ∧ LeftmostMarks marks tail

/-- Whether a text is taken apart at its leftmost marks. -/
structure MarkedAt (s : List Char) (marks : List (List Char × List Char)) (tail : List Char) :
    Prop where
  spells : withMarks marks tail = s
  leftmost : LeftmostMarks marks tail

/-! ## Reading marks -/

theorem markText_of_readMark {s name rest : List Char} (h : readMark? s = some (name, rest)) :
    IsMarkName name ∧ s = markText name ++ rest := by
  unfold readMark? at h
  split at h
  · next s =>
      split at h
      · next c more rest' htake hdrop =>
          simp only [Option.some.injEq, Prod.mk.injEq] at h
          obtain ⟨rfl, rfl⟩ := h
          -- The name goes up to the first closing brace.
          have hall : ∀ d ∈ c :: more, d ≠ '}' := by
            rw [← htake]
            intro d hd
            exact of_decide_eq_true (List.all_eq_true.mp List.all_takeWhile d hd)
          have hspells := List.takeWhile_append_dropWhile (p := (· ≠ '}')) (l := s)
          rw [htake, hdrop] at hspells
          refine ⟨⟨List.cons_ne_nil c more, fun hmem => hall _ hmem rfl⟩, ?_⟩
          rw [← hspells]
          simp [markText]
      · cases h
  · cases h

/-- A mark is read where one stands, and nowhere else. -/
theorem readMark?_eq_none_iff {s : List Char} : readMark? s = none ↔ ¬ StartsWithMark s := by
  constructor
  · rintro hnone ⟨name, hname, rest, rfl⟩
    have hread := readMark?_mark hname.nonempty hname.free rest
    rw [markText] at hnone
    simp only [List.cons_append, List.append_assoc, List.nil_append] at hnone
    rw [hread] at hnone
    cases hnone
  · intro hstart
    cases hread : readMark? s with
    | none => rfl
    | some found =>
        obtain ⟨name, rest⟩ := found
        obtain ⟨hname, heq⟩ := markText_of_readMark hread
        exact absurd ⟨name, hname, rest, heq.symm⟩ hstart

/-! ## Parts without marks -/

theorem freeOfMarks_nil (rest : List Char) : FreeOfMarks [] rest := by
  intro front back heq hback
  exact absurd (List.append_eq_nil_iff.mp heq.symm).2 hback

/-- A part without marks stays one if a character at which no mark starts comes in front. -/
theorem FreeOfMarks.cons {c : Char} {part rest : List Char} (h : FreeOfMarks part rest)
    (hstart : ¬ StartsWithMark (c :: (part ++ rest))) : FreeOfMarks (c :: part) rest := by
  intro front back heq hback
  cases front with
  | nil =>
      rw [List.nil_append] at heq
      rwa [← heq]
  | cons d front =>
      obtain ⟨rfl, hpart⟩ := List.cons.inj heq
      exact h front back hpart hback

theorem FreeOfMarks.head {c : Char} {part rest : List Char} (h : FreeOfMarks (c :: part) rest) :
    ¬ StartsWithMark (c :: (part ++ rest)) :=
  h [] (c :: part) rfl (List.cons_ne_nil c part)

theorem FreeOfMarks.tail {c : Char} {part rest : List Char} (h : FreeOfMarks (c :: part) rest) :
    FreeOfMarks part rest := by
  intro front back heq hback
  exact h (c :: front) back (by rw [heq, List.cons_append]) hback

/-- Text without two opening braces in a row, at its end either, has no mark. -/
theorem freeOfMarks_of_isUnmarked {part : List Char} (h : isUnmarked part = true)
    (rest : List Char) : FreeOfMarks part rest := by
  induction part with
  | nil => exact freeOfMarks_nil rest
  | cons c part ih =>
      have hnone := readMark?_eq_none h rest
      exact (ih (isUnmarked_of_cons h)).cons (readMark?_eq_none_iff.mp hnone)

/-! ## Filling in -/

variable (value? : List Char → Option (List Char))

/-- A part without marks is copied. -/
theorem substitute_free {part rest : List Char} (h : FreeOfMarks part rest) :
    substitute value? (part ++ rest) = part ++ substitute value? rest := by
  induction part with
  | nil => rfl
  | cons c part ih =>
      have hnone : readMark? (c :: (part ++ rest)) = none := readMark?_eq_none_iff.mpr h.head
      rw [List.cons_append, substitute]
      split
      · next heq =>
          rw [hnone] at heq
          cases heq
      · rw [ih h.tail, List.cons_append]

/-- A mark gives way to its value, if it has one, and stays as it is otherwise. -/
theorem substitute_markText {name : List Char} (hname : IsMarkName name) (rest : List Char) :
    substitute value? (markText name ++ rest)
      = (value? name).getD (markText name) ++ substitute value? rest := by
  have hread : readMark? ('{' :: '{' :: (name ++ ['}', '}'] ++ rest)) = some (name, rest) := by
    rw [List.append_assoc]
    exact readMark?_mark hname.nonempty hname.free rest
  rw [markText, List.cons_append, List.cons_append, substitute]
  split
  · next heq =>
      rw [hread] at heq
      cases heq
      rfl
  · next heq =>
      rw [hread] at heq
      cases heq

/-- Filling in puts each value in the place of its mark. -/
theorem substitute_eq_filledIn {s : List Char} {marks : List (List Char × List Char)}
    {tail : List Char} (h : MarkedAt s marks tail) :
    substitute value? s = filledIn value? marks tail := by
  obtain ⟨rfl, hleftmost⟩ := h
  induction marks with
  | nil =>
      have hfree : FreeOfMarks tail [] := hleftmost
      have hcopied := substitute_free value? hfree
      rw [List.append_nil, substitute, List.append_nil] at hcopied
      exact hcopied
  | cons mark marks ih =>
      obtain ⟨gap, name⟩ := mark
      obtain ⟨hgap, hname, hrest⟩ := hleftmost
      have hspells : withMarks ((gap, name) :: marks) tail
          = gap ++ (markText name ++ withMarks marks tail) := rfl
      rw [hspells, substitute_free value? hgap, substitute_markText value? hname, ih hrest,
        filledIn]

/-- A character at which no mark starts goes to the text in front of the first mark. -/
theorem MarkedAt.cons {c : Char} {s : List Char} {marks : List (List Char × List Char)}
    {tail : List Char} (h : MarkedAt s marks tail) (hstart : ¬ StartsWithMark (c :: s)) :
    ∃ marks tail, MarkedAt (c :: s) marks tail := by
  obtain ⟨rfl, hleftmost⟩ := h
  cases marks with
  | nil =>
      refine ⟨[], c :: tail, rfl, hleftmost.cons ?_⟩
      rwa [List.append_nil]
  | cons mark marks =>
      obtain ⟨gap, name⟩ := mark
      obtain ⟨hgap, hname, hrest⟩ := hleftmost
      exact ⟨(c :: gap, name) :: marks, tail, rfl, hgap.cons hstart, hname, hrest⟩

/-- Every text can be taken apart at its leftmost marks. -/
theorem exists_markedAt (s : List Char) : ∃ marks tail, MarkedAt s marks tail := by
  cases s with
  | nil => exact ⟨[], [], rfl, freeOfMarks_nil []⟩
  | cons c s =>
      cases hread : readMark? (c :: s) with
      | none =>
          obtain ⟨marks, tail, h⟩ := exists_markedAt s
          exact h.cons (readMark?_eq_none_iff.mp hread)
      | some found =>
          -- The text goes on behind the whole mark, so that the recursion is on its length.
          obtain ⟨name, rest⟩ := found
          obtain ⟨hname, heq⟩ := markText_of_readMark hread
          have hshort := length_lt_of_readMark hread
          obtain ⟨marks, tail, hspells, hleftmost⟩ := exists_markedAt rest
          refine ⟨([], name) :: marks, tail, ?_, freeOfMarks_nil _, hname, hleftmost⟩
          rw [heq, ← hspells]
          rfl
termination_by s.length
decreasing_by
  · exact Nat.lt_succ_self s.length
  · exact hshort

/-! ## Modules -/

/-- The marks of a wrapper, each with the text in front of it. -/
def wrapperMarks : List (List Char × List Char) :=
  [(moduleStart, "helperFunctions".toList), (moduleMiddle ++ functionStart, "render".toList)]

/-- What stands behind the marks of a wrapper. -/
def wrapperTail (target : Target) : List Char :=
  functionEnd target ++ moduleEnd

theorem wrapper_markedAt (target : Target) :
    MarkedAt (wrapper target).toList wrapperMarks (wrapperTail target) := by
  have htail : isUnmarked (wrapperTail target) = true := by
    cases target <;> decide
  have hname (name : String) (hname : name.toList ≠ [] ∧ '}' ∉ name.toList) :
      IsMarkName name.toList := ⟨hname.1, hname.2⟩
  refine ⟨?_, freeOfMarks_of_isUnmarked (by decide) _, hname _ (by decide),
    freeOfMarks_of_isUnmarked (by decide) _, hname _ (by decide),
    freeOfMarks_of_isUnmarked htail _⟩
  rw [wrapper_eq]
  simp only [withMarks, wrapperMarks, filledIn, markText, Option.getD_none, List.append_assoc,
    List.cons_append, List.nil_append, wrapperTail]

/-- Marks are filled in as they stand in a text, whatever they stand for: the text is taken
apart at its leftmost marks, each gives way to its value or stays, and nothing else changes.
So the code of a module is its wrapper with the functions and the body in the places of its
two marks, for every body; and the code of different bodies is different. -/
theorem assembly_verbatim :
    (∀ s : List Char, (∃ marks tail, MarkedAt s marks tail)
        ∧ ∀ marks tail, MarkedAt s marks tail →
          ∀ value?, substitute value? s = filledIn value? marks tail)
      ∧ ∀ (target : Target) (options : Options) (usesBlock : Bool),
        MarkedAt (wrapper target).toList
            [(moduleStart, "helperFunctions".toList),
              (moduleMiddle ++ functionStart, "render".toList)]
            (functionEnd target ++ moduleEnd)
          ∧ ∀ body : String,
            (assemble body usesBlock target options).code.toList
                = moduleStart ++ ((Helper.sources options (Helper.select usesBlock)).toList
                  ++ (moduleMiddle ++ (functionStart
                    ++ (body.toList ++ (functionEnd target ++ moduleEnd)))))
              ∧ ∀ other : String, other ≠ body →
                (assemble other usesBlock target options).code
                  ≠ (assemble body usesBlock target options).code := by
  refine ⟨fun s => ⟨exists_markedAt s, fun marks tail h value? => ?_⟩, ?_⟩
  · exact substitute_eq_filledIn value? h
  · intro target options usesBlock
    refine ⟨wrapper_markedAt target, fun body => ⟨?_, fun other hne hcode => hne ?_⟩⟩
    · exact assemble_code body usesBlock target options
    · -- The same text stands around both bodies.
      have hlists := congrArg String.toList hcode
      rw [assemble_code, assemble_code] at hlists
      have hbodies := List.append_cancel_left (List.append_cancel_left
        (List.append_cancel_left (List.append_cancel_left hlists)))
      exact String.toList_injective (List.append_cancel_right hbodies)

/-- A value that spells a mark is not filled in again, and neither is a body that spells both
marks of its wrapper. -/
theorem assembly_verbatim_of_marks :
    substitute (fun name => if name = ['x'] then some "{{y}}".toList else none)
        "a {{x}} b {{y}}".toList = "a {{y}} b {{y}}".toList
      ∧ (assemble "{{render}}{{helperFunctions}}$1" false .flat .default).code.toList
        = moduleStart ++ (Helper.safeAccessSource.toList
          ++ (moduleMiddle ++ (functionStart
            ++ ("{{render}}{{helperFunctions}}$1".toList ++ (functionEnd .flat ++ moduleEnd)))))
      ∧ (assemble "{{render}}" false .flat .default).code
        ≠ (assemble "{{render}}{{helperFunctions}}$1" false .flat .default).code := by
  obtain ⟨hfill, hassemble⟩ := assembly_verbatim
  have hname (c : Char) (hc : c ≠ '}') : IsMarkName [c] :=
    ⟨List.cons_ne_nil c [], fun hmem => hc (List.mem_singleton.mp hmem).symm⟩
  have hmarked : MarkedAt "a {{x}} b {{y}}".toList
      [("a ".toList, ['x']), (" b ".toList, ['y'])] [] :=
    ⟨by decide, freeOfMarks_of_isUnmarked (by decide) _, hname 'x' (by decide),
      freeOfMarks_of_isUnmarked (by decide) _, hname 'y' (by decide), freeOfMarks_nil []⟩
  obtain ⟨hcode, hother⟩ :=
    (hassemble .flat .default false).2 "{{render}}{{helperFunctions}}$1"
  have halone (text : String) : "\n\n".intercalate [text] = text := rfl
  have hlookup : Helper.sources .default (Helper.select false) = Helper.safeAccessSource :=
    halone Helper.safeAccessSource
  rw [hlookup] at hcode
  refine ⟨((hfill _).2 _ _ hmarked _).trans ?_, hcode, hother "{{render}}" (by decide)⟩
  decide

end Mustache
