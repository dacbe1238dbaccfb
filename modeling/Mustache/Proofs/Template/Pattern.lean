import Mathlib.Tactic.Common
import Mustache.Template.Scan

/-!
The tag as a pattern.

A pattern may match a text in several ways. `ways` lists them in the order in which
a matcher that backtracks comes to them, so that its answer is the first of the
list. The tag of a template is such a pattern, and the main statement is
`readTag?_eq_first`: reading a tag without going back finds the first way of the
pattern, or nothing if it has none.
-/
set_option autoImplicit false

namespace Mustache

open Text

/-! ## Patterns -/

/-- A pattern over characters. -/
inductive Pattern where
  /-- One character of a class. -/
  | one (class' : Char → Bool)
  /-- Any number of characters of a class, as many as possible. -/
  | many (class' : Char → Bool)
  /-- A character of a class, or nothing; the character if possible. -/
  | optional (class' : Char → Bool)
  /-- One pattern after another. -/
  | andThen (first second : Pattern)
  /-- A pattern whose match is the key. -/
  | captured (inner : Pattern)

/-- The ways to split the characters of a class off a text, the longest first. -/
def splits (class' : Char → Bool) : List Char → List (List Char × List Char)
  | [] => [([], [])]
  | c :: s =>
      (if class' c then (splits class' s).map fun (taken, rest) => (c :: taken, rest) else [])
        ++ [([], c :: s)]

/-- The first character of a text split off, if it is of a class. -/
def splitOne (class' : Char → Bool) : List Char → List (List Char × List Char)
  | [] => []
  | c :: s => if class' c then [([c], s)] else []

/-- The ways in which a pattern matches the start of a text, in the order in which
they are tried. -/
def Pattern.ways : Pattern → List Char → List TagReading
  | .one class', s => (splitOne class' s).map fun (taken, rest) => ⟨taken, [], rest⟩
  | .many class', s => (splits class' s).map fun (taken, rest) => ⟨taken, [], rest⟩
  | .optional class', s =>
      (splitOne class' s ++ [([], s)]).map fun (taken, rest) => ⟨taken, [], rest⟩
  | .andThen first second, s =>
      (first.ways s).flatMap fun way =>
        (second.ways way.rest).map fun next =>
          ⟨way.text ++ next.text, way.key ++ next.key, next.rest⟩
  | .captured inner, s => (inner.ways s).map fun way => { way with key := way.text }

/-- What a matcher that backtracks answers: the first way. -/
def Pattern.first? (p : Pattern) (s : List Char) : Option TagReading :=
  (p.ways s).head?

/-! ## The tag -/

/-- The closing braces of a tag: two of them, and a third one if it is there. -/
def closingPattern : Pattern :=
  .andThen (.one (· == '}')) (.andThen (.one (· == '}')) (.optional (· == '}')))

/-- The key of a tag and its closing braces: one or more characters other than a
closing brace are the key. -/
def keyPattern : Pattern :=
  .andThen (.captured (.andThen (.one (· ≠ '}')) (.many (· ≠ '}')))) closingPattern

/-- A tag: two opening braces, blanks, and the key with the closing braces. -/
def tagPattern : Pattern :=
  .andThen (.one (· == '{')) (.andThen (.one (· == '{'))
    (.andThen (.many isBlank) keyPattern))

/-! ## The first way -/

/-- The first way of a sequence is found by trying the ways of its first part. -/
theorem first?_andThen (first second : Pattern) (s : List Char) :
    (Pattern.andThen first second).first? s
      = (first.ways s).findSome? fun way => (second.first? way.rest).map fun next =>
          ⟨way.text ++ next.text, way.key ++ next.key, next.rest⟩ := by
  simp only [Pattern.first?, Pattern.ways, List.head?_flatMap, List.head?_map]

/-- A single character leaves a sequence no choice. -/
theorem first?_one_andThen (class' : Char → Bool) (second : Pattern) (c : Char) (s : List Char) :
    (Pattern.andThen (.one class') second).first? (c :: s)
      = if class' c then (second.first? s).map fun next => ⟨c :: next.text, next.key, next.rest⟩
        else none := by
  rw [first?_andThen, Pattern.ways, splitOne]
  split_ifs <;> simp

/-- If nothing goes on before a character of the class, then only the longest way
does. -/
theorem findSome?_splits {α : Type} (class' : Char → Bool) (s : List Char)
    (f : List Char × List Char → Option α)
    (h : ∀ taken c rest, class' c = true → f (taken, c :: rest) = none) :
    (splits class' s).findSome? f = f (s.takeWhile class', s.dropWhile class') := by
  induction s generalizing f with
  | nil => simp [splits]
  | cons c s ih =>
      rw [splits]
      by_cases hc : class' c = true
      · have hmore := ih (fun split => f (c :: split.1, split.2))
          fun taken d rest hd => h (c :: taken) d rest hd
        rw [if_pos hc, List.findSome?_append, List.findSome?_map, List.takeWhile_cons_of_pos hc,
          List.dropWhile_cons_of_pos hc]
        simp only [Function.comp_def, List.findSome?_singleton, h [] c s hc, Option.or_none]
        exact hmore
      · simp [hc]

/-! ## Closing braces -/

theorem closingPattern_first? (s : List Char) :
    closingPattern.first? s = match s with
      | '}' :: '}' :: after =>
          some ⟨'}' :: '}' :: thirdBrace after, [], after.drop (thirdBrace after).length⟩
      | _ => none := by
  have hthird (after : List Char) : (Pattern.optional (· == '}')).first? after
      = some ⟨thirdBrace after, [], after.drop (thirdBrace after).length⟩ := by
    cases after with
    | nil => rfl
    | cons c after =>
        by_cases hc : c = '}' <;> simp [Pattern.first?, Pattern.ways, splitOne, thirdBrace, hc]
  match s with
  | [] => rfl
  | [c] =>
      rw [closingPattern, first?_one_andThen]
      by_cases hc : c = '}' <;> simp [hc, Pattern.first?, Pattern.ways, splitOne]
  | c :: d :: after =>
      rw [closingPattern, first?_one_andThen, first?_one_andThen, hthird]
      by_cases hc : c = '}' <;> by_cases hd : d = '}' <;> simp [hc, hd]

/-- No closing braces stand where another character does. -/
theorem closingPattern_first?_of_ne {c : Char} (hc : c ≠ '}') (s : List Char) :
    closingPattern.first? (c :: s) = none := by
  rw [closingPattern, first?_one_andThen]
  simp [hc]

/-! ## Keys -/

theorem keyPattern_first? (s : List Char) :
    keyPattern.first? s = if s.takeWhile (· ≠ '}') = [] then none
      else (closingPattern.first? (s.dropWhile (· ≠ '}'))).map fun next =>
        ⟨s.takeWhile (· ≠ '}') ++ next.text, s.takeWhile (· ≠ '}') ++ next.key, next.rest⟩ := by
  cases s with
  | nil => rfl
  | cons c s =>
      rw [keyPattern, first?_andThen]
      by_cases hc : c = '}'
      · simp [hc, Pattern.ways, splitOne]
      -- A shorter key would leave a character that is no closing brace in front of them.
      · have hlongest := findSome?_splits (· ≠ '}') s
          (fun split => (closingPattern.first? split.2).map fun next =>
            (⟨c :: split.1 ++ next.text, c :: split.1 ++ next.key, next.rest⟩ : TagReading))
          fun taken d rest hd => by
            rw [closingPattern_first?_of_ne (by simpa using hd)]
            rfl
        simpa [hc, Pattern.ways, splitOne, Function.comp_def, List.findSome?_map] using hlongest

/-! ## Blanks -/

theorem ne_closeBrace_of_isBlank {c : Char} (h : isBlank c = true) : c ≠ '}' := by
  rintro rfl
  rw [isBlank_closeBrace] at h
  exact Bool.false_ne_true h

/-- Blanks stand before the next closing brace. -/
theorem dropWhile_isBlank (s : List Char) :
    (s.dropWhile isBlank).dropWhile (· ≠ '}') = s.dropWhile (· ≠ '}') := by
  induction s with
  | nil => rfl
  | cons c s ih =>
      by_cases hc : isBlank c = true
      · rw [List.dropWhile_cons_of_pos hc, ih, List.dropWhile_cons_of_pos]
        simpa using ne_closeBrace_of_isBlank hc
      · rw [List.dropWhile_cons_of_neg hc]

/-- A blank is taken first, and given back if nothing else leads on. -/
theorem blanks_first?_of_isBlank {c : Char} (hc : isBlank c = true) (s : List Char) :
    (Pattern.andThen (.many isBlank) keyPattern).first? (c :: s)
      = (((Pattern.andThen (.many isBlank) keyPattern).first? s).map fun next =>
          (⟨c :: next.text, next.key, next.rest⟩ : TagReading)).or
        (keyPattern.first? (c :: s)) := by
  rw [first?_andThen, first?_andThen, Pattern.ways, splits, if_pos hc, List.map_append,
    List.findSome?_append]
  congr 1
  · simp only [Pattern.ways, List.findSome?_map, List.map_map, List.map_findSome?]
    congr 1
    funext way
    simp [Function.comp_def]
  · simp

/-- A key that starts with no blank is read as it is. -/
theorem blanks_first?_of_not_isBlank {c : Char} (hc : ¬ isBlank c = true) (s : List Char) :
    (Pattern.andThen (.many isBlank) keyPattern).first? (c :: s) = keyPattern.first? (c :: s) := by
  rw [first?_andThen, Pattern.ways, splits, if_neg hc]
  simp

/-- A key is empty only if there is nothing between the braces. -/
theorem tagKey_eq_nil {blanks body : List Char} (h : tagKey blanks body = []) :
    blanks = [] ∧ body = [] := by
  cases body with
  | nil =>
      cases hlast : blanks.getLast? with
      | none => exact ⟨List.getLast?_eq_none_iff.mp hlast, rfl⟩
      | some c => simp [tagKey, hlast] at h
  | cons c body => simp [tagKey] at h

/-- Another blank in front of a key is no part of it. -/
theorem tagKey_cons {blanks body : List Char} (c : Char) (h : tagKey blanks body ≠ []) :
    tagKey (c :: blanks) body = tagKey blanks body := by
  cases body with
  | nil =>
      cases blanks with
      | nil => simp [tagKey] at h
      | cons d blanks => simp [tagKey]
  | cons d body => simp [tagKey]

/-- Without characters of a class at its start, a text stays whole. -/
theorem dropWhile_eq_self {class' : Char → Bool} {s : List Char} (h : s.takeWhile class' = []) :
    s.dropWhile class' = s := by
  have hsplit := List.takeWhile_append_dropWhile (p := class') (l := s)
  rwa [h, List.nil_append] at hsplit

/-- Blanks in front of a key are skipped, and the last of them is given back where
nothing else is left for the key. -/
theorem blanks_first? (s : List Char) :
    (Pattern.andThen (.many isBlank) keyPattern).first? s
      = (closingPattern.first? (s.dropWhile (· ≠ '}'))).bind fun next =>
          let blanks := s.takeWhile isBlank
          let body := (s.dropWhile isBlank).takeWhile (· ≠ '}')
          if (tagKey blanks body).isEmpty then none
          else some ⟨blanks ++ body ++ next.text, tagKey blanks body ++ next.key, next.rest⟩ := by
  induction s with
  | nil => rfl
  | cons c s ih =>
      by_cases hc : isBlank c = true
      · have hne := ne_closeBrace_of_isBlank hc
        have hdrop : (c :: s).dropWhile (· ≠ '}') = s.dropWhile (· ≠ '}') := by simp [hne]
        have htake : (c :: s).takeWhile (· ≠ '}') = c :: s.takeWhile (· ≠ '}') := by simp [hne]
        rw [blanks_first?_of_isBlank hc, ih, keyPattern_first?, List.takeWhile_cons_of_pos hc,
          List.dropWhile_cons_of_pos hc, hdrop, htake, if_neg (List.cons_ne_nil _ _)]
        cases hnext : closingPattern.first? (s.dropWhile (· ≠ '}')) with
        | none => rfl
        | some next =>
            -- The blank is given back only where it is the whole key.
            by_cases hkey : tagKey (s.takeWhile isBlank)
                ((s.dropWhile isBlank).takeWhile (· ≠ '}')) = []
            · obtain ⟨hblanks, hbody⟩ := tagKey_eq_nil hkey
              have hsame : s.dropWhile isBlank = s := dropWhile_eq_self hblanks
              rw [hsame] at hbody
              simp only [Option.bind_some, hblanks, hsame, hbody]
              rfl
            · have hfull : (tagKey (s.takeWhile isBlank)
                  ((s.dropWhile isBlank).takeWhile (· ≠ '}'))).isEmpty = false := by
                rw [List.isEmpty_eq_false_iff]
                exact hkey
              simp only [Option.bind_some, tagKey_cons c hkey, hfull, Bool.false_eq_true, if_false,
                Option.map_some, Option.some_or, List.cons_append]
      · rw [blanks_first?_of_not_isBlank hc, keyPattern_first?, List.takeWhile_cons_of_neg hc,
          List.dropWhile_cons_of_neg hc]
        cases hnext : closingPattern.first? ((c :: s).dropWhile (· ≠ '}')) with
        | none => simp
        | some next =>
            cases hbody : (c :: s).takeWhile (· ≠ '}') <;> simp [tagKey]

/-! ## Reading a tag -/

/-- The first way of the pattern, spelled out. -/
theorem tagPattern_first? (s : List Char) :
    tagPattern.first? ('{' :: '{' :: s)
      = ((Pattern.andThen (.many isBlank) keyPattern).first? s).map fun next =>
          ⟨'{' :: '{' :: next.text, next.key, next.rest⟩ := by
  rw [tagPattern, first?_one_andThen, first?_one_andThen, if_pos (by rfl), if_pos (by rfl),
    Option.map_map]
  rfl

/-- Without two opening braces the pattern has no way. -/
theorem tagPattern_first?_of_ne {s : List Char} (h : ∀ rest, s ≠ '{' :: '{' :: rest) :
    tagPattern.first? s = none := by
  cases s with
  | nil => rfl
  | cons c s =>
      rw [tagPattern, first?_one_andThen]
      by_cases hc : c = '{'
      · cases s with
        | nil => simp [hc, first?_andThen, Pattern.ways, splitOne]
        | cons d s =>
            have hd : d ≠ '{' := fun hd => h s (by rw [hc, hd])
            simp [hc, first?_one_andThen, hd]
      · simp [hc]

/-- Ending a tag takes what the closing braces take. -/
theorem closeTag?_eq (blanks body s : List Char) :
    closeTag? blanks body s
      = ((closingPattern.first? s).bind fun next =>
          if (tagKey blanks body).isEmpty then none
          else some (⟨blanks ++ body ++ next.text, tagKey blanks body ++ next.key, next.rest⟩
            : TagReading)).map
          fun next => ⟨'{' :: '{' :: next.text, next.key, next.rest⟩ := by
  by_cases hbraces : ∃ after, s = '}' :: '}' :: after
  · obtain ⟨after, rfl⟩ := hbraces
    simp only [closingPattern_first?, closeTag?, Option.bind_some, List.append_nil]
    by_cases hkey : (tagKey blanks body).isEmpty = true
    · rw [if_pos hkey, if_pos hkey]
      rfl
    · rw [if_neg hkey, if_neg hkey]
      rfl
  -- Without two closing braces neither side reads anything, whatever the key.
  · have hne : ∀ after, s ≠ '}' :: '}' :: after := fun after heq => hbraces ⟨after, heq⟩
    have hfirst : closingPattern.first? s = none := by
      rw [closingPattern_first?]
      split
      · exact absurd rfl (hne _)
      · rfl
    rw [hfirst, closeTag?]
    · rfl
    · exact hne

theorem readTag?_eq_first (s : List Char) : readTag? s = tagPattern.first? s := by
  unfold readTag?
  split
  · next s =>
      rw [tagPattern_first?, blanks_first?, dropWhile_isBlank, closeTag?_eq]
  · next h => exact (tagPattern_first?_of_ne fun rest hs => h rest hs).symm

end Mustache
