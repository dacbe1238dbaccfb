import Mustache.Module.Body
import Mustache.Proofs.Template.Pattern
import Mustache.Render.Renderer

/-!
Newlines that are dropped.

A newline run is a pattern: a carriage return or nothing, a line feed, and as many blanks
as there are. Dropping newlines while going over a text, as the renderer does, and dropping
the runs that are found in it, as emitted code does, both leave what is left of the text
once every leftmost match of the pattern is removed. All three keep the same equations
(`RemovesRuns`): a text that starts with a run goes on behind the run, any other character
stays, and nothing is left of nothing. These leave no choice (`RemovesRuns.unique`).
-/
set_option autoImplicit false

namespace Mustache

open Text

/-! ## Removing matches -/

/-- The text without the matches of a pattern, each of them the first way of the leftmost
place where the pattern matches behind the one before. A match of nothing removes nothing. -/
def Pattern.remove (p : Pattern) : List Char → List Char
  | [] => []
  | c :: s =>
      match p.first? (c :: s) with
      | none => c :: p.remove s
      | some found =>
          if found.rest.length < (c :: s).length then p.remove found.rest else c :: p.remove s
termination_by s => s.length
decreasing_by
  · exact Nat.lt_succ_self s.length
  · assumption
  · exact Nat.lt_succ_self s.length

/-- A newline with the blanks behind it. -/
def newlineRun : Pattern :=
  .andThen (.optional (· == '\r')) (.andThen (.one (· == '\n')) (.many isBlank))

variable {c : Char} {s : List Char}

theorem Pattern.remove_of_none {p : Pattern} (h : p.first? (c :: s) = none) :
    p.remove (c :: s) = c :: p.remove s := by
  rw [remove, h]

theorem Pattern.remove_of_some {p : Pattern} {found : TagReading}
    (h : p.first? (c :: s) = some found) (hrest : found.rest.length ≤ s.length) :
    p.remove (c :: s) = p.remove found.rest := by
  rw [remove, h]
  exact if_pos (Nat.lt_succ_of_le hrest)

/-! ## Matches of a newline run -/

theorem many_first? (class' : Char → Bool) (s : List Char) :
    (Pattern.many class').first? s = some ⟨s.takeWhile class', [], s.dropWhile class'⟩ := by
  have hsplits : (splits class' s).head? = some (s.takeWhile class', s.dropWhile class') := by
    induction s with
    | nil => rfl
    | cons c s ih =>
        rw [splits]
        by_cases hc : class' c = true
        · rw [if_pos hc, List.head?_append, List.head?_map, ih, List.takeWhile_cons_of_pos hc,
            List.dropWhile_cons_of_pos hc]
          rfl
        · rw [if_neg hc, List.takeWhile_cons_of_neg hc, List.dropWhile_cons_of_neg hc]
          rfl
  rw [Pattern.first?, Pattern.ways, List.head?_map, hsplits]
  rfl

/-- A line feed and the blanks behind it, without a carriage return. -/
def lineFeedRun : Pattern :=
  .andThen (.one (· == '\n')) (.many isBlank)

theorem lineFeedRun_first? (s : List Char) :
    lineFeedRun.first? ('\n' :: s)
      = some ⟨'\n' :: s.takeWhile isBlank, [], s.dropWhile isBlank⟩ := by
  rw [lineFeedRun, first?_one_andThen, many_first?]
  rfl

theorem lineFeedRun_first?_of_ne (h : s.head? ≠ some '\n') : lineFeedRun.first? s = none := by
  cases s with
  | nil => rfl
  | cons c s =>
      have hc : (c == '\n') = false := beq_false_of_ne fun hc => h (congrArg some hc)
      rw [lineFeedRun, first?_one_andThen, hc]
      rfl

/-- Where no carriage return stands, a run starts with its line feed. -/
theorem newlineRun_first?_of_ne (h : c ≠ '\r') :
    newlineRun.first? (c :: s) = lineFeedRun.first? (c :: s) := by
  have hways : (Pattern.optional (· == '\r')).ways (c :: s) = [⟨[], [], c :: s⟩] := by
    simp [Pattern.ways, splitOne, h]
  rw [newlineRun, first?_andThen, hways]
  simp [lineFeedRun]

/-- A carriage return is taken if a line feed follows it; without one, the run would have to
start with the carriage return itself. -/
theorem newlineRun_first?_return (s : List Char) :
    newlineRun.first? ('\r' :: s)
      = (lineFeedRun.first? s).map fun found => ⟨'\r' :: found.text, found.key, found.rest⟩ := by
  have hways : (Pattern.optional (· == '\r')).ways ('\r' :: s)
      = [⟨['\r'], [], s⟩, ⟨[], [], '\r' :: s⟩] := rfl
  have hself : lineFeedRun.first? ('\r' :: s) = none := lineFeedRun_first?_of_ne (by simp)
  rw [newlineRun, first?_andThen, hways, ← lineFeedRun]
  cases hfound : lineFeedRun.first? s <;> simp [hfound, hself]

/-! ## The equations of the removal -/

/-- What is left of a text without its newline runs, by how the text starts. -/
structure RemovesRuns (left : List Char → List Char) : Prop where
  nil : left [] = []
  lineFeed : ∀ s, left ('\n' :: s) = left (s.dropWhile isBlank)
  pair : ∀ s, left ('\r' :: '\n' :: s) = left (s.dropWhile isBlank)
  other : ∀ c s, c ≠ '\n' → ¬ (c = '\r' ∧ s.head? = some '\n') → left (c :: s) = c :: left s

theorem length_dropWhile_isBlank_le (s : List Char) :
    (s.dropWhile isBlank).length ≤ s.length :=
  (List.dropWhile_sublist isBlank).length_le

theorem removesRuns_remove : RemovesRuns newlineRun.remove where
  nil := by rw [Pattern.remove]
  lineFeed s := by
    have hfound := (newlineRun_first?_of_ne (by decide)).trans (lineFeedRun_first? s)
    exact Pattern.remove_of_some hfound (length_dropWhile_isBlank_le s)
  pair s := by
    have hfound := newlineRun_first?_return ('\n' :: s)
    rw [lineFeedRun_first?] at hfound
    exact Pattern.remove_of_some hfound (Nat.le_succ_of_le (length_dropWhile_isBlank_le s))
  other c s hc hpair := by
    refine Pattern.remove_of_none ?_
    by_cases hreturn : c = '\r'
    · subst hreturn
      rw [newlineRun_first?_return, lineFeedRun_first?_of_ne fun hnext => hpair ⟨rfl, hnext⟩]
      rfl
    · rw [newlineRun_first?_of_ne hreturn]
      exact lineFeedRun_first?_of_ne fun hhead => hc (Option.some.inj hhead)

/-- The equations leave no choice. -/
theorem RemovesRuns.unique {left left' : List Char → List Char} (h : RemovesRuns left)
    (h' : RemovesRuns left') (s : List Char) : left s = left' s := by
  -- Behind a run the text is shorter by more than one character, so that the induction is on
  -- the length.
  induction hlength : s.length using Nat.strongRecOn generalizing s with
  | _ length ih =>
      have hbehind (t : List Char) (ht : t.length < length) :
          left (t.dropWhile isBlank) = left' (t.dropWhile isBlank) :=
        ih _ (Nat.lt_of_le_of_lt (length_dropWhile_isBlank_le t) ht) _ rfl
      cases s with
      | nil => rw [h.nil, h'.nil]
      | cons c s =>
          have hshort : s.length < length := hlength ▸ Nat.lt_succ_self _
          by_cases hc : c = '\n'
          · rw [hc, h.lineFeed, h'.lineFeed, hbehind s hshort]
          · by_cases hpair : c = '\r' ∧ s.head? = some '\n'
            · obtain ⟨hreturn, hnext⟩ := hpair
              obtain ⟨rest, rfl⟩ := List.head?_eq_some_iff.mp hnext
              have hrest : rest.length < length := Nat.lt_trans (Nat.lt_succ_self _) hshort
              rw [hreturn, h.pair, h'.pair, hbehind rest hrest]
            · rw [h.other c s hc hpair, h'.other c s hc hpair, ih _ hshort s rfl]

/-! ## Going over a text -/

/-- Behind a line feed the blanks are skipped. -/
theorem collapseFrom_true (s : List Char) :
    collapseFrom true s = collapse (s.dropWhile isBlank) := by
  induction s with
  | nil => rfl
  | cons c s ih =>
      by_cases hc : isBlank c = true
      · rw [List.dropWhile_cons_of_pos hc, ← ih, collapseFrom, hc, Bool.and_self, if_pos rfl]
      · rw [List.dropWhile_cons_of_neg hc, collapse, collapseFrom, collapseFrom,
          Bool.eq_false_iff.mpr hc, Bool.and_false, Bool.and_false]

theorem removesRuns_collapse : RemovesRuns collapse where
  nil := rfl
  lineFeed s := collapseFrom_true s
  pair s := collapseFrom_true s
  other c s hc hpair := by
    rw [collapse, collapseFrom, Bool.false_and, if_neg Bool.false_ne_true, if_neg hc,
      if_neg hpair]
    rfl

/-- The renderer leaves a text without its newline runs. -/
theorem collapse_eq_remove (s : List Char) : collapse s = newlineRun.remove s :=
  removesRuns_collapse.unique removesRuns_remove s

/-- Text without a line feed stays as it is. -/
theorem collapse_of_not_mem (h : '\n' ∉ s) : collapse s = s := by
  induction s with
  | nil => rfl
  | cons c s ih =>
      rw [List.mem_cons, not_or] at h
      have hpair : ¬ (c = '\r' ∧ s.head? = some '\n') :=
        fun hpair => h.2 (List.mem_of_head? hpair.2)
      rw [removesRuns_collapse.other c s (Ne.symm h.1) hpair, ih h.2]

/-- No line feed is left. -/
theorem not_mem_collapse (s : List Char) : '\n' ∉ collapse s := by
  have hfrom (skipping : Bool) : '\n' ∉ collapseFrom skipping s := by
    induction s generalizing skipping with
    | nil => exact List.not_mem_nil
    | cons c s ih =>
        rw [collapseFrom]
        split_ifs with hblank hc hpair
        · exact ih true
        · exact ih true
        · exact ih false
        · exact List.not_mem_cons_of_ne_of_not_mem (Ne.symm hc) (ih false)
  exact hfrom false

/-! ## Dropping runs -/

theorem dropRunsFrom_eq (inside : Nat) (s : List Char) :
    dropRunsFrom inside s = dropNewlineRuns (s.drop inside) := by
  induction inside generalizing s with
  | zero => rfl
  | succ inside ih =>
      cases s with
      | nil => rfl
      | cons c s => exact ih s

theorem drop_length_takeWhile (s : List Char) :
    s.drop (s.takeWhile isBlank).length = s.dropWhile isBlank := by
  have hsplit : s.takeWhile isBlank ++ s.dropWhile isBlank = s := List.takeWhile_append_dropWhile
  exact (congrArg (List.drop _) hsplit.symm).trans List.drop_left

theorem dropNewlineRuns_of_length {inside : Nat} (h : newlineRunLength (c :: s) = inside + 1) :
    dropNewlineRuns (c :: s) = dropNewlineRuns (s.drop inside) := by
  rw [dropNewlineRuns, dropRunsFrom, h]
  exact dropRunsFrom_eq inside s

/-- A run starts with a line feed, or with a carriage return and a line feed. -/
theorem newlineRunLength_eq_zero (hc : c ≠ '\n') (hpair : ¬ (c = '\r' ∧ s.head? = some '\n')) :
    newlineRunLength (c :: s) = 0 := by
  rw [newlineRunLength.eq_def]
  split
  · rename_i heq
    cases heq
    exact absurd ⟨rfl, rfl⟩ hpair
  · rename_i heq
    cases heq
    exact absurd rfl hc
  · rfl

theorem removesRuns_dropNewlineRuns : RemovesRuns dropNewlineRuns where
  nil := rfl
  lineFeed s := by
    have hlength : newlineRunLength ('\n' :: s) = (s.takeWhile isBlank).length + 1 :=
      Nat.add_comm 1 _
    rw [dropNewlineRuns_of_length hlength, drop_length_takeWhile]
  pair s := by
    have hlength : newlineRunLength ('\r' :: '\n' :: s) = (s.takeWhile isBlank).length + 1 + 1 :=
      Nat.add_comm 2 _
    rw [dropNewlineRuns_of_length hlength, List.drop_succ_cons, drop_length_takeWhile]
  other c s hc hpair := by
    rw [dropNewlineRuns, dropRunsFrom, newlineRunLength_eq_zero hc hpair]
    rfl

/-- Emitted code holds a text without its newline runs. -/
theorem dropNewlineRuns_eq_remove (s : List Char) : dropNewlineRuns s = newlineRun.remove s :=
  removesRuns_dropNewlineRuns.unique removesRuns_remove s

/-! ## Literals -/

/-- A literal is emitted in a structural template as the renderer renders it. -/
theorem literalText_structural (value : String) :
    literalText .structural value = collapse value.toList :=
  removesRuns_dropNewlineRuns.unique removesRuns_collapse value.toList

theorem toList_collapsed (value : String) : (collapsed value).toList = collapse value.toList :=
  String.toList_ofList

theorem collapsed_eq_empty_iff (value : String) :
    collapsed value = "" ↔ collapse value.toList = [] := by
  rw [← toList_collapsed, String.toList_eq_nil_iff]

/-- The renderer and the emitter leave the same of a literal of a structural template: the text
without its newline runs. It holds no line feed, has no newline run to lose, and where nothing
is left of it, there and only there the emitted code has no fragment for it. -/
theorem literals_lose_newline_runs (value : String) :
    (collapsed value).toList = newlineRun.remove value.toList
      ∧ literalText .structural value = newlineRun.remove value.toList
      ∧ '\n' ∉ (collapsed value).toList
      ∧ collapsed (collapsed value) = collapsed value
      ∧ (literalFragment? .structural value = none ↔ collapsed value = "")
      ∧ ∀ fragment, literalFragment? .structural value = some fragment →
        fragment = .whole (.text (collapsed value)) := by
  have hemitted : String.ofList (literalText .structural value) = collapsed value := by
    rw [literalText_structural, collapsed]
  refine ⟨?_, dropNewlineRuns_eq_remove value.toList, ?_, ?_, ?_, fun fragment hfragment => ?_⟩
  · rw [toList_collapsed, collapse_eq_remove]
  · rw [toList_collapsed]
    exact not_mem_collapse value.toList
  · rw [collapsed, toList_collapsed, collapse_of_not_mem (not_mem_collapse value.toList), collapsed]
  · rw [literalFragment?, collapsed_eq_empty_iff, ← literalText_structural]
    split_ifs with hempty
    · exact iff_of_true rfl hempty.2
    · exact iff_of_false not_false fun hnil => hempty ⟨rfl, hnil⟩
  · rw [literalFragment?] at hfragment
    split_ifs at hfragment
    cases hfragment
    rw [hemitted]

example : newlineRun.remove "\r\r\n \r\n\u2003a\rb\n".toList = "\ra\rb".toList := by
  decide +kernel

end Mustache
