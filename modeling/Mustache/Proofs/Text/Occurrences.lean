import Mathlib.Data.List.Basic
import Mathlib.Data.List.Infix
import Mustache.Text.Search

/-!
Where a word stands in a text.

A word of several lines stands across a line end only if the line in front of it ends as the
first line of the word does. So a text can be counted through from line to line: behind a part
in which no line ends so, the count starts afresh (`occurrences_append_of_absent`).
-/
set_option autoImplicit false

namespace Mustache.Text

theorem occurrences_pos_iff {word s : List Char} : 0 < occurrences word s ↔ word <:+: s := by
  induction s with
  | nil =>
      rw [occurrences, List.infix_nil]
      cases word <;> simp
  | cons c s ih =>
      rw [occurrences, List.infix_cons_iff, ← ih, ← List.isPrefixOf_iff_prefix]
      split_ifs with h
      · simp only [h, true_or, iff_true]
        omega
      · simp [h]

theorem occursIn_iff {word s : List Char} : occursIn word s = true ↔ word <:+: s := by
  rw [← occurrences_pos_iff, occursIn, bne_iff_ne, Nat.pos_iff_ne_zero]

theorem occurrences_eq_zero_iff {word s : List Char} :
    occurrences word s = 0 ↔ ¬ word <:+: s := by
  rw [← occurrences_pos_iff, Nat.not_lt, Nat.le_zero]

/-! ## Words of several lines -/

section

variable {first more s t : List Char}

/-- Texts with the same first line up to its end have the same first line. -/
theorem firstLine_eq {x y : List Char} (hfirst : '\n' ∉ first) (hs : '\n' ∉ s)
    (h : first ++ '\n' :: x = s ++ '\n' :: y) : first = s := by
  have htake {line : List Char} (hline : '\n' ∉ line) (rest : List Char) :
      (line ++ '\n' :: rest).takeWhile (· ≠ '\n') = line := by
    rw [List.takeWhile_append_of_pos, List.takeWhile_cons_of_neg (by simp), List.append_nil]
    exact fun c hc => decide_eq_true fun heq => hline (heq ▸ hc)
  rw [← htake hfirst x, h, htake hs]

/-- A word does not start in a part whose lines all end in another way than its first line. -/
theorem not_prefix_of_absent (hfirst : '\n' ∉ first) (h : ¬ first ++ ['\n'] <:+: s ++ ['\n']) :
    ¬ first ++ '\n' :: more <+: s ++ '\n' :: t := by
  rintro ⟨rest, hrest⟩
  obtain ⟨line, behind, hs, hline⟩ :=
    List.eq_append_cons_of_mem (List.mem_append_right s (List.mem_singleton.mpr rfl))
  have hwhole : s ++ '\n' :: t = line ++ '\n' :: (behind ++ t) := by
    have hmore := congrArg (· ++ t) hs
    simpa using hmore
  rw [List.append_assoc, List.cons_append, hwhole] at hrest
  obtain rfl := firstLine_eq hfirst hline hrest
  exact h ⟨[], behind, by simpa using hs.symm⟩

/-- Behind a part whose lines all end in another way than the first line of a word, the word
occurs as often as in the whole. -/
theorem occurrences_append_of_absent (hfirst : '\n' ∉ first)
    (h : ¬ first ++ ['\n'] <:+: s ++ ['\n']) :
    occurrences (first ++ '\n' :: more) (s ++ '\n' :: t)
      = occurrences (first ++ '\n' :: more) t := by
  have hskip {c : Char} {rest : List Char} (hnot : ¬ first ++ '\n' :: more <+: c :: rest) :
      occurrences (first ++ '\n' :: more) (c :: rest)
        = occurrences (first ++ '\n' :: more) rest := by
    rw [occurrences, if_neg (mt List.isPrefixOf_iff_prefix.mp hnot), Nat.zero_add]
  induction s with
  | nil => exact hskip (not_prefix_of_absent hfirst h)
  | cons c s ih =>
      have hnot : ¬ first ++ '\n' :: more <+: c :: (s ++ '\n' :: t) :=
        not_prefix_of_absent hfirst h
      rw [List.cons_append, hskip hnot]
      exact ih fun hwithin => h (hwithin.trans (List.suffix_cons c _).isInfix)

/-- A word whose first line does not come back in it is found once where it stands. -/
theorem occurrences_self_append {word : List Char} (hfirst : '\n' ∉ first)
    (hword : word = first ++ '\n' :: more)
    (honce : occurrences (first ++ ['\n']) (word ++ s ++ ['\n']) = 1) :
    occurrences word (word ++ s ++ '\n' :: t) = 1 + occurrences word t := by
  have hhere {short : List Char} (hshort : short <+: word) (rest : List Char) :
      occurrences short (word ++ s ++ rest) = 1 + occurrences short (word.tail ++ s ++ rest) := by
    cases word with
    | nil => exact absurd hword.symm (List.append_ne_nil_of_right_ne_nil _ (List.cons_ne_nil _ _))
    | cons c behind =>
        have hprefix := List.isPrefixOf_iff_prefix.mpr
          (hshort.trans ((List.prefix_append _ s).trans (List.prefix_append _ rest)))
        rw [List.cons_append, List.cons_append] at hprefix ⊢
        rw [occurrences, if_pos hprefix, List.tail_cons]
  have hdeclared : first ++ ['\n'] <+: word := ⟨more, by rw [hword]; simp⟩
  -- The first line stands at the start already, so it is nowhere behind the first character.
  have hbehind : ¬ first ++ ['\n'] <:+: word.tail ++ s ++ ['\n'] := by
    rw [hhere hdeclared] at honce
    exact occurrences_eq_zero_iff.mp (by omega)
  have hrest := @occurrences_append_of_absent first more _ t hfirst hbehind
  rw [← hword] at hrest
  rw [hhere List.prefix_rfl, hrest]

end

/-! ## Line ends -/

/-- Whether no line of a text ends in a word, for what stands in front of each line feed in the
text itself. -/
def EndsOtherwise (word s : List Char) : Prop :=
  ∀ front back, s = front ++ '\n' :: back →
    ∃ ending, ending <:+ front ∧ ¬ ending <:+ word ∧ ¬ word <:+ ending

section

variable {word s t : List Char}

theorem endsOtherwise_of_not_mem (h : '\n' ∉ s) : EndsOtherwise word s :=
  fun _ _ heq => absurd (heq ▸ List.mem_append_right _ List.mem_cons_self) h

theorem endsOtherwise_line {ending : List Char} (hfree : '\n' ∉ ending)
    (hword : ¬ ending <:+ word) (hending : ¬ word <:+ ending) :
    EndsOtherwise word (ending ++ ['\n']) := by
  intro front back heq
  obtain ⟨rfl, -, -⟩ := (List.append_cons_inj_of_notMem hfree List.not_mem_nil).mp heq
  exact ⟨ending, List.suffix_rfl, hword, hending⟩

/-- Each part answers for its own line feeds. -/
theorem EndsOtherwise.append (hs : EndsOtherwise word s) (ht : EndsOtherwise word t) :
    EndsOtherwise word (s ++ t) := by
  intro front back heq
  rcases List.append_eq_append_iff.mp heq with ⟨middle, rfl, hback⟩ | ⟨middle, rfl, hrest⟩
  · obtain ⟨ending, hending, hneither⟩ := ht middle back hback
    exact ⟨ending, hending.trans (List.suffix_append s middle), hneither⟩
  · cases middle with
    | nil =>
        obtain ⟨ending, hending, hneither⟩ := ht [] back hrest.symm
        exact ⟨ending, hending.trans (List.nil_suffix), hneither⟩
    | cons c middle =>
        obtain ⟨rfl, -⟩ := List.cons.inj hrest
        exact hs front middle rfl

theorem EndsOtherwise.of_append (h : EndsOtherwise word (s ++ t)) : EndsOtherwise word s :=
  fun front back heq => h front (back ++ t) (by rw [heq, List.append_assoc, List.cons_append])

/-- A text whose lines end otherwise does not hold the word at the end of a line. -/
theorem EndsOtherwise.not_within (h : EndsOtherwise word s) : ¬ word ++ ['\n'] <:+: s := by
  rintro ⟨front, back, heq⟩
  obtain ⟨ending, hending, hword, hother⟩ := h (front ++ word) back (by simpa using heq.symm)
  rcases List.suffix_or_suffix_of_suffix hending (List.suffix_append front word) with hin | hin
  · exact hword hin
  · exact hother hin

end

end Mustache.Text
