import Mathlib.Data.List.TakeWhile
import Mustache.Proofs.Template.Boundary
import Mustache.Proofs.Template.Place

/-!
Tags read by their places.

A template can be read without taking it apart: a cursor moves over its bytes, and only what
lies between two places is sliced out. `readTagAt?` reads a tag in this way at the place of its
opening braces. Each of its slices is checked. None is refused, wherever two opening braces
stand, and what it reads is the tag that is read from the text there (`readTagAt?_reads`); the
places that it notes lie between characters.
-/
set_option autoImplicit false

namespace Mustache

open Text

/-! ## Places of words -/

/-- The byte of a text at which a word first stands. -/
def wordPlace? (word : List Char) : List Char → Option Nat
  | [] => if word.isEmpty then some 0 else none
  | c :: s =>
      if word.isPrefixOf (c :: s) then some 0
      else (wordPlace? word s).map (c.utf8Size + ·)

/-- Whether a word starts nowhere in the first part of a text, which goes on with a rest. -/
def StartsNowhere (word front rest : List Char) : Prop :=
  ∀ before behind, front = before ++ behind → behind ≠ [] → ¬ word <+: behind ++ rest

theorem startsNowhere_nil (word rest : List Char) : StartsNowhere word [] rest := by
  intro before behind hnil hne
  exact absurd (List.append_eq_nil_iff.mp hnil.symm).2 hne

theorem startsNowhere_cons {word front rest : List Char} {c : Char}
    (hfirst : ¬ word <+: c :: (front ++ rest)) (h : StartsNowhere word front rest) :
    StartsNowhere word (c :: front) rest := by
  intro before behind hsplit hne
  cases before with
  | nil =>
      rw [List.nil_append] at hsplit
      rwa [← hsplit, List.cons_append]
  | cons d before => exact h before behind (List.cons.inj hsplit).2 hne

/-- The place of a word is behind a part of the text in which the word starts nowhere. -/
theorem wordPlace?_eq_some {word s : List Char} {place : Nat} (h : wordPlace? word s = some place) :
    ∃ front rest, s = front ++ (word ++ rest) ∧ byteLength front = place
      ∧ StartsNowhere word front (word ++ rest) := by
  induction s generalizing place with
  | nil =>
      rw [wordPlace?] at h
      split_ifs at h with hempty
      cases h
      exact ⟨[], [], by rw [List.isEmpty_iff.mp hempty]; rfl, rfl, startsNowhere_nil _ _⟩
  | cons c s ih =>
      rw [wordPlace?] at h
      split_ifs at h with hprefix
      · cases h
        obtain ⟨rest, hrest⟩ := List.isPrefixOf_iff_prefix.mp hprefix
        exact ⟨[], rest, hrest.symm, rfl, startsNowhere_nil _ _⟩
      · obtain ⟨further, hfurther, rfl⟩ := Option.map_eq_some_iff.mp h
        obtain ⟨front, rest, rfl, rfl, hnowhere⟩ := ih hfurther
        refine ⟨c :: front, rest, rfl, rfl, startsNowhere_cons ?_ hnowhere⟩
        rwa [← List.isPrefixOf_iff_prefix]

theorem wordPlace?_eq_none {word s : List Char} (h : wordPlace? word s = none) :
    StartsNowhere word s [] := by
  induction s with
  | nil => exact startsNowhere_nil _ _
  | cons c s ih =>
      rw [wordPlace?] at h
      split_ifs at h with hprefix
      refine startsNowhere_cons ?_ (ih (Option.map_eq_none_iff.mp h))
      rwa [List.append_nil, ← List.isPrefixOf_iff_prefix]

theorem notMem_of_startsNowhere {c : Char} {front rest : List Char}
    (h : StartsNowhere [c] front rest) : c ∉ front := by
  intro hmem
  obtain ⟨before, behind, rfl⟩ := List.append_of_mem hmem
  exact h before (c :: behind) rfl (List.cons_ne_nil _ _) (List.prefix_append [c] (behind ++ rest))

/-! ## Blanks -/

/-- Passes the blanks of a text that starts at a byte. The result is the byte behind them, and
that of the last of them; if there is none, that of the last one before. -/
def skipBlanks (place : Nat) (last : Option Nat) : List Char → Nat × Option Nat
  | [] => (place, last)
  | c :: s =>
      if isBlank c then skipBlanks (place + c.utf8Size) (some place) s else (place, last)

theorem skipBlanks_eq (place : Nat) (last : Option Nat) (s : List Char) :
    skipBlanks place last s
      = (place + byteLength (s.takeWhile isBlank),
        if s.takeWhile isBlank = [] then last
        else some (place + byteLength (s.takeWhile isBlank).dropLast)) := by
  induction s generalizing place last with
  | nil => rfl
  | cons c s ih =>
      by_cases hc : isBlank c = true
      · rw [skipBlanks, if_pos hc, ih, List.takeWhile_cons_of_pos hc, if_neg (List.cons_ne_nil _ _),
          byteLength_cons, Nat.add_assoc]
        split_ifs with hnone
        · rw [hnone]
          rfl
        · rw [List.dropLast_cons_of_ne_nil hnone, byteLength_cons, Nat.add_assoc]
      · rw [skipBlanks, if_neg hc, List.takeWhile_cons_of_neg hc]
        rfl

/-! ## Tags -/

/-- A tag by the places that it takes in a template. -/
structure PlacedTag where
  start : Nat
  stop : Nat
  keyStart : Nat
  keyStop : Nat
  /-- What was sliced out as the key. -/
  key : List Char

/-- Ends a tag whose key lies between two places, if a closing pair of braces follows it. -/
def closeTagAt? (source : List Char) (opening keyStart keyStop : Nat) :
    Option (Option PlacedTag) := do
  let closing ← sliceFrom? source keyStop
  if ['}', '}'].isPrefixOf closing then
    let behind ← sliceFrom? source (keyStop + 2)
    let stop := if behind.head? = some '}' then keyStop + 3 else keyStop + 2
    let key ← slice? source keyStart keyStop
    some (some ⟨opening, stop, keyStart, keyStop, key⟩)
  else some none

/-- Reads the key of a tag and its closing braces, where a closing brace is at a distance from
the end of the blanks. If it stands right there, then the key is the last blank. -/
def readKeyAt? (source : List Char) (opening : Nat) (lastBlank : Option Nat)
    (bodyStart distance : Nat) : Option (Option PlacedTag) :=
  match if bodyStart + distance = bodyStart then lastBlank else some bodyStart with
  | none => some none
  | some keyStart => closeTagAt? source opening keyStart (bodyStart + distance)

/-- Reads the tag whose opening braces stand at a byte of a template. The outer result is
missing if a slice is refused, the inner one if there is no tag. -/
def readTagAt? (source : List Char) (opening : Nat) : Option (Option PlacedTag) := do
  let behind ← sliceFrom? source (opening + 2)
  let (bodyStart, lastBlank) := skipBlanks (opening + 2) none behind
  let body ← sliceFrom? source bodyStart
  match wordPlace? ['}'] body with
  | none => some none
  | some distance => readKeyAt? source opening lastBlank bodyStart distance

/-- Whether the places of a tag lie in a template and between its characters. -/
structure PlacedTag.WellPlaced (source : List Char) (tag : PlacedTag) : Prop where
  start : IsBoundary source tag.start
  stop : IsBoundary source tag.stop
  keyStart : IsBoundary source tag.keyStart
  keyStop : IsBoundary source tag.keyStop
  start_lt_stop : tag.start < tag.stop
  /-- The key is what lies between its places. -/
  key : slice? source tag.keyStart tag.keyStop = some tag.key
  key_ne_nil : tag.key ≠ []
  brace_notMem_key : '}' ∉ tag.key

/-- Whether a tag by its places is one that was read behind a part of a template. -/
structure PlacedTag.Reads (source front : List Char) (tag : PlacedTag) (t : TagReading) : Prop where
  wellPlaced : tag.WellPlaced source
  start : tag.start = byteLength front
  stop : tag.stop = byteLength front + byteLength t.text
  key : tag.key = t.key

/-! ## Closing braces -/

theorem closeTag?_eq_none_of_key {blanks body s : List Char} (hkey : tagKey blanks body = []) :
    closeTag? blanks body s = none := by
  unfold closeTag?
  split
  · rw [hkey]
    rfl
  · rfl

theorem byteLength_thirdBrace (s : List Char) :
    byteLength (thirdBrace s) = if s.head? = some '}' then 1 else 0 := by
  unfold thirdBrace
  split_ifs with hthird
  · obtain ⟨rest, rfl⟩ := List.head?_eq_some_iff.mp hthird
    rfl
  · rw [List.take_zero]
    rfl

theorem closeTag?_braces {blanks body key : List Char} (hkey : tagKey blanks body = key)
    (hne : key ≠ []) (behind : List Char) :
    closeTag? blanks body ('}' :: '}' :: behind)
      = some
        { text := '{' :: '{' :: (blanks ++ body ++ '}' :: '}' :: thirdBrace behind)
          key := key
          rest := behind.drop (thirdBrace behind).length } := by
  have hnonempty : key.isEmpty = false := List.isEmpty_eq_false_iff.mpr hne
  unfold closeTag?
  rw [hkey, hnonempty]
  rfl

/-- A key that closing braces follow ends a tag, none of whose slices is refused. -/
theorem closeTagAt?_braces (lead key behind : List Char) (opening : Nat) :
    closeTagAt? (lead ++ (key ++ '}' :: '}' :: behind)) opening (byteLength lead)
        (byteLength lead + byteLength key)
      = some (some
        { start := opening
          stop := byteLength lead + byteLength key + 2 + byteLength (thirdBrace behind)
          keyStart := byteLength lead
          keyStop := byteLength lead + byteLength key
          key := key }) := by
  have hkey := slice?_append lead key ('}' :: '}' :: behind)
  have hclosing := sliceFrom?_append (lead ++ key) ('}' :: '}' :: behind)
  have hbehind := sliceFrom?_append (lead ++ key ++ ['}', '}']) behind
  have hbraces : byteLength ['}', '}'] = 2 := rfl
  rw [List.append_assoc, byteLength_append] at hclosing
  rw [List.append_assoc, List.append_assoc, List.cons_append, List.cons_append, List.nil_append,
    byteLength_append, byteLength_append, hbraces] at hbehind
  have hstop : (if behind.head? = some '}' then byteLength lead + byteLength key + 3
      else byteLength lead + byteLength key + 2)
        = byteLength lead + byteLength key + 2 + byteLength (thirdBrace behind) := by
    rw [byteLength_thirdBrace]
    split_ifs <;> rfl
  -- Each slice starts and ends behind some of the parts that the text is put together from.
  have hpair : ['}', '}'].isPrefixOf ('}' :: '}' :: behind) = true := rfl
  simp only [closeTagAt?, hclosing, hpair, hbehind, hkey, hstop, Option.bind_eq_bind,
    Option.bind_some, if_true]

/-- A key that no closing braces follow ends no tag, and no slice is refused. -/
theorem closeTagAt?_of_ne (lead key : List Char) {s : List Char} (opening : Nat)
    (h : ∀ behind, s ≠ '}' :: '}' :: behind) :
    closeTagAt? (lead ++ (key ++ s)) opening (byteLength lead)
        (byteLength lead + byteLength key)
      = some none := by
  have hclosing := sliceFrom?_append (lead ++ key) s
  rw [List.append_assoc, byteLength_append] at hclosing
  have hbraces : ¬ ['}', '}'].isPrefixOf s = true := by
    rw [List.isPrefixOf_iff_prefix]
    rintro ⟨behind, rfl⟩
    exact h behind rfl
  unfold closeTagAt?
  rw [hclosing, Option.bind_eq_bind, Option.bind_some, if_neg hbraces]

/-- The places of a tag that closing braces end. -/
theorem reads_of_braces {front before key behind : List Char} {t : TagReading}
    (htext : t.text = '{' :: '{' :: (before ++ (key ++ '}' :: '}' :: thirdBrace behind)))
    (hkey : t.key = key) (hrest : t.rest = behind.drop (thirdBrace behind).length)
    (hne : key ≠ []) (hbrace : '}' ∉ key) :
    let lead := front ++ (['{', '{'] ++ before)
    PlacedTag.Reads (lead ++ (key ++ '}' :: '}' :: behind)) front
      { start := byteLength front
        stop := byteLength lead + byteLength key + 2 + byteLength (thirdBrace behind)
        keyStart := byteLength lead
        keyStop := byteLength lead + byteLength key
        key := key } t := by
  intro lead
  have hsource : lead ++ (key ++ '}' :: '}' :: behind) = front ++ (t.text ++ t.rest) := by
    rw [htext, hrest]
    simp [lead, thirdBrace_append_drop]
  have hstop : byteLength lead + byteLength key + 2 + byteLength (thirdBrace behind)
      = byteLength front + byteLength t.text := by
    have hbraces : '{'.utf8Size = 1 ∧ '}'.utf8Size = 1 := ⟨rfl, rfl⟩
    rw [htext]
    simp only [lead, byteLength_append, byteLength_cons, byteLength_nil, hbraces]
    omega
  have hpos : 0 < byteLength t.text := by
    apply byteLength_pos
    rw [htext]
    exact List.cons_ne_nil _ _
  refine ⟨⟨⟨front, _, hsource, rfl⟩, ?_, ⟨lead, _, rfl, rfl⟩, ?_, ?_, slice?_append _ _ _, hne,
    hbrace⟩, rfl, hstop, hkey.symm⟩
  · refine ⟨front ++ t.text, t.rest, ?_, ?_⟩
    · rw [hsource, List.append_assoc]
    · rw [byteLength_append, hstop]
  · exact ⟨lead ++ key, _, (List.append_assoc _ _ _).symm, byteLength_append _ _⟩
  · rw [hstop]
    exact Nat.lt_add_of_pos_right hpos

/-! ## Opening braces -/

section

variable {source front s : List Char}

/-- A key that is found by its places is closed as in the text. -/
theorem closeTagAt?_reads {blanks body before key : List Char}
    (hsource : source = front ++ (['{', '{'] ++ before) ++ (key ++ s))
    (hspelled : blanks ++ body = before ++ key) (hkey : tagKey blanks body = key)
    (hne : key ≠ []) (hbrace : '}' ∉ key) {keyStart keyStop : Nat}
    (hkeyStart : keyStart = byteLength (front ++ (['{', '{'] ++ before)))
    (hkeyStop : keyStop = keyStart + byteLength key) :
    ∃ found, closeTagAt? source (byteLength front) keyStart keyStop = some found
      ∧ Option.Rel (PlacedTag.Reads source front) found (closeTag? blanks body s) := by
  subst hsource hkeyStart hkeyStop
  by_cases hbraces : ∃ behind, s = '}' :: '}' :: behind
  · obtain ⟨behind, rfl⟩ := hbraces
    refine ⟨_, closeTagAt?_braces _ key behind _, ?_⟩
    rw [closeTag?_braces hkey hne, hspelled, List.append_assoc before]
    exact .some (reads_of_braces rfl rfl rfl hne hbrace)
  · have hne : ∀ behind, s ≠ '}' :: '}' :: behind := fun behind heq => hbraces ⟨behind, heq⟩
    refine ⟨_, closeTagAt?_of_ne _ key _ hne, ?_⟩
    rw [closeTag?]
    · exact .none
    · exact hne

/-- A key is found by its places behind the blanks, or as the last of them. -/
theorem readKeyAt?_reads {blanks body : List Char}
    (hsource : source = front ++ (['{', '{'] ++ blanks) ++ (body ++ '}' :: s))
    (hblanks : '}' ∉ blanks) (hbody : '}' ∉ body) {bodyStart : Nat}
    (hbodyStart : bodyStart = byteLength (front ++ (['{', '{'] ++ blanks))) :
    ∃ found, readKeyAt? source (byteLength front)
        (if blanks = [] then none
          else some (byteLength (front ++ (['{', '{'] ++ blanks.dropLast))))
        bodyStart (byteLength body) = some found
      ∧ Option.Rel (PlacedTag.Reads source front) found (closeTag? blanks body ('}' :: s)) := by
  unfold readKeyAt?
  by_cases hempty : body = []
  · subst hempty
    rw [if_pos (by rw [byteLength_nil, Nat.add_zero])]
    -- Of blanks alone the last one is the key.
    rcases List.eq_nil_or_concat blanks with rfl | ⟨before, last, hlast⟩
    · rw [if_pos rfl, closeTag?_eq_none_of_key rfl]
      exact ⟨none, rfl, .none⟩
    · rw [List.concat_eq_append] at hlast
      subst hlast
      rw [if_neg (List.append_ne_nil_of_right_ne_nil _ (List.cons_ne_nil _ _)),
        List.dropLast_concat]
      have hkey : tagKey (before ++ [last]) [] = [last] := by
        rw [tagKey, List.getLast?_concat]
        rfl
      have hbrace : '}' ∉ [last] := fun hmem => hblanks (List.mem_append_right _ hmem)
      refine closeTagAt?_reads ?_ (List.append_nil _) hkey (List.cons_ne_nil _ _) hbrace rfl ?_
      · rw [hsource]
        simp only [List.append_assoc, List.nil_append]
      · rw [hbodyStart, byteLength_nil, Nat.add_zero, ← byteLength_append, List.append_assoc,
          List.append_assoc]
  · have hpos := byteLength_pos hempty
    have hkey : tagKey blanks body = body := by
      rw [tagKey, List.isEmpty_eq_false_iff.mpr hempty]
      rfl
    rw [if_neg (by omega)]
    exact closeTagAt?_reads hsource rfl hkey hempty hbody hbodyStart rfl

/-- The tag that is read behind blanks from a body up to a closing brace. -/
theorem readTag?_body {body rest : List Char}
    (hbody : s.dropWhile isBlank = body ++ '}' :: rest) (hbrace : '}' ∉ body) :
    readTag? ('{' :: '{' :: s) = closeTag? (s.takeWhile isBlank) body ('}' :: rest) := by
  have hfree : ∀ c ∈ body, decide (c ≠ '}') = true := by
    intro c hc
    exact decide_eq_true fun heq => hbrace (heq ▸ hc)
  have htake : ('}' :: rest).takeWhile (· ≠ '}') = [] := rfl
  have hdrop : ('}' :: rest).dropWhile (· ≠ '}') = '}' :: rest := rfl
  rw [readTag?, hbody, List.takeWhile_append_of_pos hfree, List.dropWhile_append_of_pos hfree,
    htake, hdrop, List.append_nil]

/-- No tag is read without a closing brace. -/
theorem readTag?_unclosed (hbrace : '}' ∉ s.dropWhile isBlank) :
    readTag? ('{' :: '{' :: s) = none := by
  have hnone : (s.dropWhile isBlank).dropWhile (· ≠ '}') = [] := by
    rw [List.dropWhile_eq_nil_iff]
    intro c hc
    exact decide_eq_true fun heq => hbrace (heq ▸ hc)
  rw [readTag?, hnone]
  rfl

/-- Behind two opening braces a tag is read by its places as it is read from the text. -/
theorem readTagAt?_reads (hsource : source = front ++ '{' :: '{' :: s) :
    ∃ found, readTagAt? source (byteLength front) = some found
      ∧ Option.Rel (PlacedTag.Reads source front) found (readTag? ('{' :: '{' :: s)) := by
  have hplaces (text : List Char) :
      byteLength front + 2 + byteLength text = byteLength (front ++ (['{', '{'] ++ text)) := by
    rw [byteLength_append, byteLength_append, ← Nat.add_assoc]
    rfl
  have hbehind : sliceFrom? source (byteLength front + 2) = some s := by
    have hslice := sliceFrom?_append (front ++ ['{', '{']) s
    rwa [List.append_assoc, byteLength_append, List.cons_append, List.cons_append,
      List.nil_append, ← hsource] at hslice
  have hspelled : source = front ++ (['{', '{'] ++ s.takeWhile isBlank) ++ s.dropWhile isBlank := by
    rw [hsource, List.append_assoc, List.append_assoc, List.takeWhile_append_dropWhile]
    rfl
  have hbody : sliceFrom? source (byteLength (front ++ (['{', '{'] ++ s.takeWhile isBlank)))
      = some (s.dropWhile isBlank) := by
    rw [hspelled]
    exact sliceFrom?_append _ _
  unfold readTagAt?
  simp only [hbehind, skipBlanks_eq, hplaces, hbody, Option.bind_eq_bind, Option.bind_some]
  -- The reader of texts takes characters up to the first closing brace; the one by places looks
  -- for that brace. Blanks are no braces, so both find the same one.
  cases hplace : wordPlace? ['}'] (s.dropWhile isBlank) with
  | none =>
      refine ⟨none, rfl, ?_⟩
      rw [readTag?_unclosed (notMem_of_startsNowhere (wordPlace?_eq_none hplace))]
      exact .none
  | some distance =>
      obtain ⟨body, rest, hdrop, rfl, hnowhere⟩ := wordPlace?_eq_some hplace
      have hbrace := notMem_of_startsNowhere hnowhere
      have hblank : '}' ∉ s.takeWhile isBlank := by
        intro hmem
        have hall := List.mem_takeWhile_imp hmem
        rw [isBlank_closeBrace] at hall
        cases hall
      rw [readTag?_body hdrop hbrace]
      refine readKeyAt?_reads ?_ hblank hbrace rfl
      rw [hspelled, hdrop]
      rfl

end

end Mustache
