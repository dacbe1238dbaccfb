import Mustache.Template.Scan
import Mustache.Text.Digits
import Mustache.Text.Search

/-!
Placeholders: plain words that stand for tags while a template is read as markup.

Markup knows nothing of tags, so before it is read each tag is replaced by a word
that bears the tag's number, and found again in what was read. The word starts in
a way that the template does not: its first letters are chosen with the least
salt that makes them new. What was read is split into text and placeholders again
from left to right; a word that spells a placeholder but bears the number of no
tag is text.
-/
set_option autoImplicit false

namespace Mustache.Placeholder

open Text

/-! ## Spelling -/

/-- How the words of a salt start. -/
def start : (salt : Nat) → List Char
  | 0 => "__stache_tag_".toList
  | salt + 1 => "__stache".toList ++ decimal (salt + 1) ++ "_tag_".toList

/-- How the words of a salt start up to the salt. -/
def commonStart : List Char := "__stache".toList

/-- The least salt whose words start as nothing in the source does (`Placeholder::for_source`).
Words of two salts do not start at the same place, so one more salt than there are places where such
a word may start is enough to choose from. -/
def saltFor (source : List Char) : Nat :=
  ((List.range (occurrences commonStart source + 1)).find? fun salt =>
    !occursIn (start salt) source).getD 0

/-- The placeholder of the tag of a number (`Placeholder::spell`). -/
def spell (start : List Char) (index : Nat) : List Char :=
  start ++ (decimal index ++ ['_', '_'])

/-- A template with placeholders for its tags, which are numbered from `index`
on. -/
def normalizeFrom (start : List Char) : (index : Nat) → List Segment → List Char
  | _, [] => []
  | index, .literal text :: rest => text ++ normalizeFrom start index rest
  | index, .tag _ :: rest => spell start index ++ normalizeFrom start (index + 1) rest

/-! ## Finding -/

/-- Reads a placeholder at the very start of a text: the digits of its number, and
what follows it. Digits of any script are taken. -/
def read? (start s : List Char) : Option (List Char × List Char) :=
  match stripStart? start s with
  | none => none
  | some rest =>
      match rest.takeWhile isDecimalDigit, rest.dropWhile isDecimalDigit with
      | d :: digits, '_' :: '_' :: after => some (d :: digits, after)
      | _, _ => none

/-- What follows a placeholder is shorter than the whole. -/
theorem length_lt_of_read {start s digits rest : List Char}
    (h : read? start s = some (digits, rest)) : rest.length < s.length := by
  unfold read? at h
  split at h
  · simp at h
  · rename_i t ht
    have hs : start ++ t = s := stripStart?_eq_some_iff.mp ht
    split at h
    · rename_i hdrop
      have hle := (List.dropWhile_suffix (l := t) isDecimalDigit).length_le
      simp only [Option.some.injEq, Prod.mk.injEq] at h
      obtain ⟨-, rfl⟩ := h
      rw [hdrop] at hle
      rw [← hs]
      simp only [List.length_append, List.length_cons] at hle ⊢
      omega
    · simp at h

/-- The text before the leftmost placeholder, and the placeholder if there is
one. -/
def splitAtPlaceholder (start : List Char) :
    List Char → List Char × Option (List Char × List Char)
  | [] => ([], none)
  | c :: s =>
      match read? start (c :: s) with
      | some found => ([], some found)
      | none => (c :: (splitAtPlaceholder start s).1, (splitAtPlaceholder start s).2)

/-- What follows the leftmost placeholder is shorter than the whole. -/
theorem length_lt_of_splitAtPlaceholder {start s digits rest : List Char}
    (h : (splitAtPlaceholder start s).2 = some (digits, rest)) : rest.length < s.length := by
  induction s with
  | nil => simp [splitAtPlaceholder] at h
  | cons c s ih =>
      cases hr : read? start (c :: s) with
      | some found =>
          simp only [splitAtPlaceholder, hr, Option.some.injEq] at h
          subst h
          exact length_lt_of_read hr
      | none =>
          simp only [splitAtPlaceholder, hr] at h
          have := ih h
          simp only [List.length_cons]
          omega

/-- A piece of a text that may hold placeholders. -/
inductive Piece where
  | text (chars : List Char)
  /-- A word that spells a placeholder, with the digits of its number. -/
  | word (digits : List Char)
  deriving DecidableEq, Repr

/-- The pieces of a text, in order. -/
def pieces (start s : List Char) : List Piece :=
  let before := (splitAtPlaceholder start s).1
  match _h : (splitAtPlaceholder start s).2 with
  | none => [.text before]
  | some (digits, rest) => .text before :: .word digits :: pieces start rest
termination_by s.length
decreasing_by exact length_lt_of_splitAtPlaceholder _h

/-- The tag of a number, if there is one. -/
def tagOf? (tags : List Tag) (digits : List Char) : Option Tag :=
  (readIndex? digits).bind fun index => tags[index]?

/-- The pieces with tags for the placeholders, behind text that is still to be
added to. -/
def resolve (start : List Char) (tags : List Tag) :
    (before : List Char) → List Piece → List Segment
  | before, [] => literalSegment before
  | before, .text chars :: rest => resolve start tags (before ++ chars) rest
  | before, .word digits :: rest =>
      match tagOf? tags digits with
      | some tag => literalSegment before ++ .tag tag :: resolve start tags [] rest
      | none => resolve start tags (before ++ (start ++ (digits ++ ['_', '_']))) rest

end Placeholder

/-! ## The placeholders of one template -/

/-- How the tags of a template are hidden (`Placeholder`): the start of the words, and the tags in
the order of their numbers. -/
structure Placeholders where
  start : List Char
  tags : List Tag

namespace Placeholders

def ofSource (source : List Char) : Placeholders where
  start := Placeholder.start (Placeholder.saltFor source)
  tags := tagsOf (scan source)

/-- The source with placeholders for its tags (`normalize_tags`). -/
def hide (p : Placeholders) (source : List Char) : List Char :=
  Placeholder.normalizeFrom p.start 0 (scan source)

/-- The text and the tags of a text with placeholders. -/
def reveal (p : Placeholders) (s : List Char) : List Segment :=
  Placeholder.resolve p.start p.tags [] (Placeholder.pieces p.start s)

/-- A text with the tags as written in place of their placeholders. -/
def restore (p : Placeholders) (s : List Char) : List Char :=
  (p.reveal s).flatMap Segment.text

/-- Whether a word in a text spells a placeholder, be it that of a tag or not. -/
def occurIn (p : Placeholders) (s : List Char) : Bool :=
  (Placeholder.splitAtPlaceholder p.start s).2.isSome

end Placeholders

end Mustache
