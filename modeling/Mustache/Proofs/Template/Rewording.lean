import Mathlib.Data.List.TakeWhile
import Mathlib.Data.List.Forall2
import Mustache.Proofs.Template.Decomposition

/-!
Close tags with other names.

A close tag may say anything between its slash and its closing braces, since a block is
closed by place alone. Where a template is reworded in this way, it is cut into the same
pieces as before, but for the names in its close tags (`alike_of_reworded`). The point is
that no tag reads beyond the next closing brace: a pair of opening braces that started no
tag in front of a close tag still starts none, and the tag itself ends where it did.
-/
set_option autoImplicit false

namespace Mustache

open Text

/-! ## Rewording -/

/-- A close tag as written, with another name between its slash and its closing braces. -/
def Tag.named (tag : Tag) (name : List Char) : List Char :=
  tag.text.takeWhile (· ≠ '/') ++ '/' :: (name ++ tag.text.dropWhile (· ≠ '}'))

/-- What may stand for a piece of a template: the piece as it is, or a close tag with
another name that has no closing brace. -/
inductive Segment.Reworded : Segment → List Char → Prop
  | same (segment : Segment) : Segment.Reworded segment segment.text
  | close {tag : Tag} {name : List Char} (hclose : tag.sigil = .blockClose) (hname : '}' ∉ name) :
      Segment.Reworded (.tag tag) (tag.named name)

/-- Whether a template is another one with other names in some of its close tags. -/
def Reworded (source other : List Char) : Prop :=
  ∃ texts, List.Forall₂ Segment.Reworded (scan source) texts ∧ other = texts.flatten

/-- Whether two pieces are alike: the same text, or tags that do the same. The names of
close tags do not count. -/
inductive Segment.Alike : Segment → Segment → Prop
  | literal (text : List Char) : Segment.Alike (.literal text) (.literal text)
  | tag {a b : Tag} (hsigil : a.sigil = b.sigil)
      (hexpression : a.sigil ≠ .blockClose → a.expression = b.expression) :
      Segment.Alike (.tag a) (.tag b)

/-! ## Reading up to the next closing brace -/

/-- What stands between the braces of a tag, read as a key. -/
def keyOf (inside : List Char) : List Char :=
  tagKey (inside.takeWhile isBlank) (inside.dropWhile isBlank)

/-- Text in braces that holds no closing brace is a tag, whatever follows it. -/
theorem readTag?_spelled {inside : List Char} (hne : inside ≠ []) (hinside : '}' ∉ inside)
    (after : List Char) :
    readTag? ('{' :: '{' :: (inside ++ '}' :: '}' :: after))
      = some
        { text := '{' :: '{' :: (inside ++ '}' :: '}' :: thirdBrace after)
          key := keyOf inside
          rest := after.drop (thirdBrace after).length } := by
  have hbrace : ¬ isBlank '}' = true := by
    rw [isBlank_closeBrace]
    exact Bool.false_ne_true
  have hblanks : (inside ++ '}' :: '}' :: after).takeWhile isBlank = inside.takeWhile isBlank := by
    rw [List.takeWhile_append]
    split_ifs with hall
    · rw [List.takeWhile_cons_of_neg hbrace, List.append_nil]
      exact ((List.takeWhile_prefix isBlank).eq_of_length hall).symm
    · rfl
  have hbody : (inside ++ '}' :: '}' :: after).dropWhile isBlank
      = inside.dropWhile isBlank ++ '}' :: '}' :: after := by
    rw [List.dropWhile_append]
    split_ifs with hnone
    · rw [List.dropWhile_cons_of_neg hbrace, List.isEmpty_iff.mp hnone, List.nil_append]
    · rfl
  -- The reader stops at the closing brace, since none is inside.
  have hfree : ∀ c ∈ inside.dropWhile isBlank, (decide (c ≠ '}')) = true := by
    intro c hc
    have hmem := (List.dropWhile_suffix isBlank).mem hc
    exact decide_eq_true fun heq => hinside (heq ▸ hmem)
  have hkey : (keyOf inside).isEmpty = false := by
    rw [List.isEmpty_eq_false_iff]
    intro hnil
    obtain ⟨htake, hdrop⟩ := tagKey_eq_nil hnil
    apply hne
    rw [← List.takeWhile_append_dropWhile (p := isBlank) (l := inside), htake, hdrop]
    rfl
  have htake : ('}' :: '}' :: after).takeWhile (· ≠ '}') = [] := rfl
  have hdrop : ('}' :: '}' :: after).dropWhile (· ≠ '}') = '}' :: '}' :: after := rfl
  unfold readTag?
  simp only [hblanks, hbody]
  rw [List.takeWhile_append_of_pos hfree, List.dropWhile_append_of_pos hfree, htake, hdrop,
    List.append_nil]
  unfold closeTag?
  rw [← keyOf, hkey, List.takeWhile_append_dropWhile]
  rfl

/-- A tag is text in braces that holds no closing brace. -/
theorem exists_spelled {s : List Char} {t : TagReading} (h : readTag? s = some t) :
    ∃ inside after, inside ≠ [] ∧ '}' ∉ inside
      ∧ s = '{' :: '{' :: (inside ++ '}' :: '}' :: after) := by
  unfold readTag? at h
  split at h
  · next s =>
      rw [dropWhile_isBlank] at h
      unfold closeTag? at h
      split at h
      · next after hdrop =>
          have hsplit := List.takeWhile_append_dropWhile (p := (· ≠ '}')) (l := s)
          rw [hdrop] at hsplit
          refine ⟨s.takeWhile (· ≠ '}'), after, ?_, ?_, ?_⟩
          · intro hnil
            -- Right behind the opening braces the first closing one leaves an empty key.
            rw [hnil, List.nil_append] at hsplit
            rw [← hsplit] at h
            simp [tagKey, isBlank_closeBrace] at h
          · intro hmem
            simpa using List.mem_takeWhile_imp hmem
          · rw [hsplit]
      · cases h
  · cases h

/-- Where opening braces start no tag in front of one, they start none either in front of
other text that begins with a brace: if there is a closing brace before that text, the
next one settles it, and if there is none, the tag would have been taken along. -/
theorem readTag?_none_of_none {w inside after : List Char} (hw : w ≠ []) (hinside : '}' ∉ inside)
    (h : readTag? (w ++ '{' :: '{' :: (inside ++ '}' :: '}' :: after)) = none) (y : List Char) :
    readTag? (w ++ '{' :: y) = none := by
  by_contra hsome
  obtain ⟨t, ht⟩ := Option.ne_none_iff_exists'.mp hsome
  obtain ⟨inner, behind, hne, hinner, hspelled⟩ := exists_spelled ht
  -- Suppose a tag starts at `w`. It is closed within `w`, or it goes on to the braces behind it,
  -- and then it would have been read with the other text as well.
  match w with
  | [] => exact hw rfl
  | [c] =>
      obtain ⟨rfl, -⟩ := List.cons.inj hspelled
      have hread := readTag?_spelled (List.cons_ne_nil '{' inside) (by simpa using hinside) after
      rw [List.singleton_append, ← List.cons_append, hread] at h
      cases h
  | c :: d :: u =>
      rw [List.cons_append, List.cons_append, List.cons.injEq, List.cons.injEq] at hspelled
      obtain ⟨rfl, rfl, htail⟩ := hspelled
      rw [List.cons_append, List.cons_append] at h
      rcases List.append_eq_append_iff.mp htail with ⟨more, rfl, -⟩ | ⟨more, rfl, hmore⟩
      · have hlong : u ++ '{' :: '{' :: inside ≠ [] := by simp
        have hfree : '}' ∉ u ++ '{' :: '{' :: inside := by
          simpa [hinside] using fun hu => hinner (List.mem_append_left more hu)
        have hread := readTag?_spelled hlong hfree after
        rw [List.append_assoc, List.cons_append, List.cons_append, h] at hread
        cases hread
      · -- Both closing braces stand before the text, since that begins with an opening one.
        match more with
        | [] => simp at hmore
        | [e] => simp at hmore
        | e :: f :: v =>
            rw [List.cons_append, List.cons_append, List.cons.injEq, List.cons.injEq] at hmore
            obtain ⟨rfl, rfl, -⟩ := hmore
            have hread := readTag?_spelled hne hinner
              (v ++ '{' :: '{' :: (inside ++ '}' :: '}' :: after))
            rw [List.append_assoc, List.cons_append, List.cons_append, hread] at h
            cases h

/-! ## The leftmost tag -/

/-- With another tag in the place of the leftmost one, that is the leftmost one. -/
theorem splitAtTag_replaced {s y : List Char} {t u : TagReading} (h : (splitAtTag s).2 = some t)
    (hread : readTag? ('{' :: y) = some u) :
    splitAtTag ((splitAtTag s).1 ++ '{' :: y) = ((splitAtTag s).1, some u) := by
  induction s with
  | nil => cases h
  | cons c s ih =>
      cases hfirst : readTag? (c :: s) with
      | some v =>
          simp only [splitAtTag, hfirst, List.nil_append, hread]
      | none =>
          simp only [splitAtTag, hfirst] at h
          -- The text before the tag starts none in front of it, and so none in front of another.
          have hspells := splitAtTag_spells s
          rw [h] at hspells
          dsimp only at hspells
          obtain ⟨inside, after, -, hinside, hspelled⟩ := exists_spelled (readTag?_of_splitAtTag h)
          rw [hspelled] at hspells
          have hbefore : readTag? (c :: (splitAtTag s).1
              ++ '{' :: '{' :: (inside ++ '}' :: '}' :: after)) = none := by
            rw [List.cons_append, hspells, hfirst]
          have hnone := readTag?_none_of_none (List.cons_ne_nil _ _) hinside hbefore y
          simp only [splitAtTag, hfirst]
          rw [List.cons_append] at hnone
          simp only [List.cons_append, splitAtTag, hnone, ih h]

/-! ## Reworded tags -/

/-- The third brace of a tag depends on the character that follows the two. -/
theorem thirdBrace_append {after other : List Char}
    (h : other.head? = (after.drop (thirdBrace after).length).head?) :
    thirdBrace (thirdBrace after ++ other) = thirdBrace after := by
  unfold thirdBrace at h ⊢
  by_cases hbrace : after.head? = some '}'
  · obtain ⟨rest, rfl⟩ := List.head?_eq_some_iff.mp hbrace
    rfl
  · simp only [if_neg hbrace, List.take_zero, List.length_nil, List.drop_zero] at h
    simp only [if_neg hbrace, List.take_zero, List.nil_append, h]

theorem keyOf_append {blanks : List Char} (hblanks : ∀ c ∈ blanks, isBlank c = true) {c : Char}
    (hc : isBlank c = false) (name : List Char) : keyOf (blanks ++ c :: name) = c :: name := by
  have hstop : ¬ isBlank c = true := by
    rw [hc]
    exact Bool.false_ne_true
  unfold keyOf
  rw [List.dropWhile_append_of_pos hblanks, List.dropWhile_cons_of_neg hstop]
  rfl

/-- A key that starts with a character that is no blank stands behind blanks. -/
theorem exists_blanks_of_keyOf {inside name : List Char} {c : Char} (hc : isBlank c = false)
    (h : keyOf inside = c :: name) :
    ∃ blanks, (∀ d ∈ blanks, isBlank d = true) ∧ inside = blanks ++ c :: name := by
  have hblanks : ∀ d ∈ inside.takeWhile isBlank, isBlank d = true :=
    fun d hd => List.mem_takeWhile_imp hd
  unfold keyOf tagKey at h
  split_ifs at h with hempty
  · -- A key of blanks alone starts with a blank.
    cases hlast : (inside.takeWhile isBlank).getLast? with
    | none =>
        rw [hlast] at h
        cases h
    | some d =>
        rw [hlast] at h
        cases h
        rw [hblanks c (List.mem_of_getLast? hlast)] at hc
        cases hc
  · refine ⟨inside.takeWhile isBlank, hblanks, ?_⟩
    rw [← h, List.takeWhile_append_dropWhile]

/-- The key of a tag that closes a block starts with a slash. -/
theorem exists_of_blockClose {key : List Char} (h : Sigil.ofKey key = .blockClose) :
    ∃ name, key = '/' :: name := by
  unfold Sigil.ofKey at h
  split at h
  case h_2 name => exact ⟨name, rfl⟩
  all_goals cases h

/-- A close tag with another name has the blanks and the braces that it had. -/
theorem named_spelled {blanks old third : List Char} (hblanks : ∀ c ∈ blanks, isBlank c = true)
    (hinside : '}' ∉ blanks ++ '/' :: old) (start : Nat) (key name : List Char) :
    (⟨start, '{' :: '{' :: (blanks ++ '/' :: old ++ '}' :: '}' :: third), key⟩ : Tag).named name
      = '{' :: '{' :: (blanks ++ '/' :: name ++ '}' :: '}' :: third) := by
  have hslash : ∀ c ∈ '{' :: '{' :: blanks, decide (c ≠ '/') = true := by
    intro c hc
    apply decide_eq_true
    rintro rfl
    have hmem : '/' ∈ blanks := by simpa using hc
    exact absurd (hblanks '/' hmem) (by decide)
  have hbrace : ∀ c ∈ '{' :: '{' :: (blanks ++ '/' :: old), decide (c ≠ '}') = true := by
    intro c hc
    apply decide_eq_true
    rintro rfl
    exact hinside (by simpa using hc)
  -- The slash is the first in the tag, as the blanks before it have none, and the closing braces
  -- are the first behind it.
  have hfront : ('{' :: '{' :: (blanks ++ '/' :: old ++ '}' :: '}' :: third)).takeWhile (· ≠ '/')
      = '{' :: '{' :: blanks := by
    rw [List.append_assoc, ← List.cons_append, ← List.cons_append,
      List.takeWhile_append_of_pos hslash]
    exact List.append_nil _
  have hback : ('{' :: '{' :: (blanks ++ '/' :: old ++ '}' :: '}' :: third)).dropWhile (· ≠ '}')
      = '}' :: '}' :: third := by
    rw [← List.cons_append, ← List.cons_append, List.dropWhile_append_of_pos hbrace]
    rfl
  unfold Tag.named
  rw [hfront, hback]
  simp

/-- A tag, or a close tag with another name, is read again in front of other text that
begins as the text behind it. -/
theorem exists_reading_of_reworded {s other written : List Char} {t : TagReading} {start : Nat}
    (h : readTag? s = some t)
    (hwritten : Segment.Reworded (.tag ⟨start, t.text, t.key⟩) written)
    (hother : other.head? = t.rest.head?) :
    ∃ key, readTag? (written ++ other) = some ⟨written, key, other⟩
      ∧ ∀ start', Segment.Alike (.tag ⟨start, t.text, t.key⟩) (.tag ⟨start', written, key⟩) := by
  obtain ⟨inside, after, hne, hinside, rfl⟩ := exists_spelled h
  rw [readTag?_spelled hne hinside] at h
  cases h
  have hthird := thirdBrace_append hother
  -- Whatever is in the braces, the tag ends with the same braces as before.
  have hread {inner : List Char} (hinner : inner ≠ []) (hfree : '}' ∉ inner) :
      readTag? ('{' :: '{' :: (inner ++ '}' :: '}' :: thirdBrace after) ++ other)
        = some ⟨'{' :: '{' :: (inner ++ '}' :: '}' :: thirdBrace after), keyOf inner, other⟩ := by
    have hspelled := readTag?_spelled hinner hfree (thirdBrace after ++ other)
    rw [hthird, List.drop_left] at hspelled
    rw [← hspelled]
    simp
  cases hwritten with
  | same => exact ⟨keyOf inside, hread hne hinside, fun start' => .tag rfl fun _ => rfl⟩
  | @close _ name hclose hname =>
      obtain ⟨old, hkey⟩ := exists_of_blockClose hclose
      have hslash : isBlank '/' = false := by decide
      obtain ⟨blanks, hblanks, rfl⟩ := exists_blanks_of_keyOf hslash hkey
      have hfree : '}' ∉ blanks ++ '/' :: name := by
        rw [List.mem_append, List.mem_cons, not_or, not_or] at hinside ⊢
        exact ⟨hinside.1, hinside.2.1, hname⟩
      rw [named_spelled hblanks hinside]
      refine ⟨keyOf (blanks ++ '/' :: name), hread (by simp) hfree, fun start' => ?_⟩
      have hsame : (⟨start',
          '{' :: '{' :: (blanks ++ '/' :: name ++ '}' :: '}' :: thirdBrace after),
          keyOf (blanks ++ '/' :: name)⟩ : Tag).sigil = .blockClose := by
        rw [Tag.sigil, keyOf_append hblanks hslash]
        rfl
      exact .tag (hclose.trans hsame.symm) fun hnot => absurd hclose hnot

/-! ## Reworded templates -/

theorem flatten_of_literalSegment {text : List Char} {texts : List (List Char)}
    (h : List.Forall₂ Segment.Reworded (literalSegment text) texts) : texts.flatten = text := by
  unfold literalSegment at h
  split_ifs at h with hempty
  · cases h
    exact (List.isEmpty_iff.mp hempty).symm
  · cases h with
    | cons hfirst hrest =>
        cases hrest
        cases hfirst
        exact List.append_nil _

theorem alike_literalSegment (text : List Char) :
    List.Forall₂ Segment.Alike (literalSegment text) (literalSegment text) := by
  unfold literalSegment
  split_ifs
  · exact .nil
  · exact .cons (.literal text) .nil

/-- The texts for the pieces of a text with a tag: the text in front of the tag, one for the
tag, and those for the pieces behind it. -/
theorem exists_of_reworded_tag {before : List Char} {tag : Tag} {rest : List Segment}
    {texts : List (List Char)}
    (h : List.Forall₂ Segment.Reworded (literalSegment before ++ .tag tag :: rest) texts) :
    ∃ written others, Segment.Reworded (.tag tag) written
      ∧ List.Forall₂ Segment.Reworded rest others
      ∧ texts.flatten = before ++ (written ++ others.flatten) := by
  unfold literalSegment at h
  split_ifs at h with hempty
  · obtain rfl := List.isEmpty_iff.mp hempty
    cases h with
    | cons hwritten hothers => exact ⟨_, _, hwritten, hothers, rfl⟩
  · cases h with
    | cons hfirst hmore =>
        cases hmore with
        | cons hwritten hothers =>
            cases hfirst
            exact ⟨_, _, hwritten, hothers, rfl⟩

/-- A reworded text begins as the text does. -/
theorem head?_of_reworded {start : Nat} {s : List Char} {texts : List (List Char)}
    (h : List.Forall₂ Segment.Reworded (scanFrom start s) texts) :
    texts.flatten.head? = s.head? := by
  cases hsplit : (splitAtTag s).2 with
  | none =>
      rw [scanFrom_of_none hsplit] at h
      rw [flatten_of_literalSegment h]
  | some t =>
      rw [scanFrom_of_some hsplit] at h
      obtain ⟨written, others, hwritten, -, hflatten⟩ := exists_of_reworded_tag h
      have hread := readTag?_of_splitAtTag hsplit
      have hspells := splitAtTag_spells s
      rw [hsplit] at hspells
      dsimp only at hspells
      -- Either text begins with what stands before the tag, or else with an opening brace.
      obtain ⟨inside, after, -, -, hold⟩ := exists_spelled hread
      obtain ⟨key, hagain, -⟩ := exists_reading_of_reworded hread hwritten rfl
      obtain ⟨inside', after', -, -, hnew⟩ := exists_spelled hagain
      have hne : written ≠ [] := text_ne_nil hagain
      have hbrace : written.head? = some '{' := by
        have hfirst : (written ++ t.rest).head? = written.head? :=
          List.head?_append_of_ne_nil written hne
        rw [← hfirst, hnew]
        rfl
      have hhead : s.head? = ((splitAtTag s).1 ++ (t.text ++ t.rest)).head? :=
        congrArg List.head? hspells.symm
      rw [hflatten, hhead, hold]
      cases (splitAtTag s).1 with
      | nil =>
          rw [List.nil_append, List.head?_append, hbrace]
          rfl
      | cons c before => rfl

/-- A reworded text is cut into the same pieces, but for the names of close tags. -/
theorem alike_of_reworded {start : Nat} {s : List Char} {texts : List (List Char)}
    (h : List.Forall₂ Segment.Reworded (scanFrom start s) texts) (start' : Nat) :
    List.Forall₂ Segment.Alike (scanFrom start s) (scanFrom start' texts.flatten) := by
  cases hsplit : (splitAtTag s).2 with
  | none =>
      rw [scanFrom_of_none hsplit] at h ⊢
      rw [flatten_of_literalSegment h, scanFrom_of_none hsplit]
      exact alike_literalSegment s
  | some t =>
      rw [scanFrom_of_some hsplit] at h ⊢
      obtain ⟨written, others, hwritten, hothers, hflatten⟩ := exists_of_reworded_tag h
      obtain ⟨key, hagain, halike⟩ := exists_reading_of_reworded (readTag?_of_splitAtTag hsplit)
        hwritten (head?_of_reworded hothers)
      obtain ⟨inside, after, -, -, hspelled⟩ := exists_spelled hagain
      -- The reworded tag is found at the place of the old one: nothing before it starts a tag with
      -- the new text either.
      have hleftmost : splitAtTag texts.flatten
          = ((splitAtTag s).1, some ⟨written, key, others.flatten⟩) := by
        rw [hflatten, hspelled]
        exact splitAtTag_replaced hsplit (hspelled ▸ hagain)
      have htag : (splitAtTag texts.flatten).2 = some ⟨written, key, others.flatten⟩ := by
        rw [hleftmost]
      have hshort := length_rest_lt_of_splitAtTag hsplit
      rw [scanFrom_of_some htag, hleftmost]
      exact List.rel_append (alike_literalSegment _)
        (.cons (halike _) (alike_of_reworded hothers _))
termination_by s.length

end Mustache
