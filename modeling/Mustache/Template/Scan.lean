import Mustache.Template.Tag

/-!
Splitting a template into literal text and tags.

A tag is `{{`, blanks, one or more characters other than `}`, then `}}` and a
third `}` if there is one. Blanks before the key are skipped, except that a key
of blanks alone keeps the last of them. The scan takes the leftmost tag, goes on
after it, and loses no character: the pieces in order spell the source.
-/
set_option autoImplicit false

namespace Mustache

open Text

/-! ## One tag -/

/-- A tag that was read from the start of a text. -/
structure TagReading where
  /-- The tag as written. -/
  text : List Char
  /-- The key between its braces. -/
  key : List Char
  /-- What follows the tag. -/
  rest : List Char
  deriving DecidableEq, Repr

/-- The key of a tag whose braces hold `blanks` and then `body`. -/
def tagKey (blanks body : List Char) : List Char :=
  if body.isEmpty then blanks.getLast?.toList else body

/-- The third closing brace of a tag, if `s` starts with one. -/
def thirdBrace (s : List Char) : List Char :=
  s.take (if s.head? = some '}' then 1 else 0)

/-- Ends a tag whose braces hold `blanks` and then `body`, if a closing pair
follows. -/
def closeTag? (blanks body : List Char) : List Char → Option TagReading
  | '}' :: '}' :: after =>
      if (tagKey blanks body).isEmpty then none
      else some
        { text := '{' :: '{' :: (blanks ++ body ++ '}' :: '}' :: thirdBrace after)
          key := tagKey blanks body
          rest := after.drop (thirdBrace after).length }
  | _ => none

/-- Reads a tag at the very start of a text (`match_tag`). -/
def readTag? : List Char → Option TagReading
  | '{' :: '{' :: s =>
      closeTag? (s.takeWhile isBlank) ((s.dropWhile isBlank).takeWhile (· ≠ '}'))
        ((s.dropWhile isBlank).dropWhile (· ≠ '}'))
  | _ => none

theorem thirdBrace_append_drop (s : List Char) :
    thirdBrace s ++ s.drop (thirdBrace s).length = s := by
  unfold thirdBrace
  cases s with
  | nil => simp
  | cons c s => by_cases h : c = '}' <;> simp [h]

/-- What was between the braces, the closing pair and the rest are kept. -/
theorem text_append_rest_of_closeTag {blanks body s : List Char} {t : TagReading}
    (h : closeTag? blanks body s = some t) :
    t.text ++ t.rest = '{' :: '{' :: (blanks ++ (body ++ s)) := by
  unfold closeTag? at h
  split at h
  · split at h
    · simp at h
    · cases h
      simp [thirdBrace_append_drop]
  · simp at h

/-- A tag and what follows it spell the text that it was read from. -/
theorem text_append_rest {s : List Char} {t : TagReading} (h : readTag? s = some t) :
    t.text ++ t.rest = s := by
  unfold readTag? at h
  split at h
  · rw [text_append_rest_of_closeTag h, List.takeWhile_append_dropWhile,
      List.takeWhile_append_dropWhile]
  · simp at h

/-- A tag is never empty. -/
theorem text_ne_nil {s : List Char} {t : TagReading} (h : readTag? s = some t) : t.text ≠ [] := by
  unfold readTag? closeTag? at h
  split at h
  · split at h
    · split at h
      · simp at h
      · cases h; simp
    · simp at h
  · simp at h

/-- What follows a tag is shorter than the whole. -/
theorem length_rest_lt {s : List Char} {t : TagReading} (h : readTag? s = some t) :
    t.rest.length < s.length := by
  have hlen := congrArg List.length (text_append_rest h)
  have hpos := List.length_pos_iff.mpr (text_ne_nil h)
  simp only [List.length_append] at hlen
  omega

/-! ## The leftmost tag -/

/-- The text before the leftmost tag, and that tag if there is one (`find_tag`). -/
def splitAtTag : List Char → List Char × Option TagReading
  | [] => ([], none)
  | c :: s =>
      match readTag? (c :: s) with
      | some t => ([], some t)
      | none => (c :: (splitAtTag s).1, (splitAtTag s).2)

/-- What stands before the leftmost tag, the tag, and what follows it spell the
text. -/
theorem splitAtTag_spells (s : List Char) :
    (splitAtTag s).1 ++ (match (splitAtTag s).2 with
      | none => []
      | some t => t.text ++ t.rest) = s := by
  induction s with
  | nil => rfl
  | cons c s ih =>
      cases h : readTag? (c :: s) with
      | some t => simp [splitAtTag, h, text_append_rest h]
      | none => simpa [splitAtTag, h] using ih

/-- What follows the leftmost tag is shorter than the whole. -/
theorem length_rest_lt_of_splitAtTag {s : List Char} {t : TagReading}
    (h : (splitAtTag s).2 = some t) : t.rest.length < s.length := by
  induction s with
  | nil => simp [splitAtTag] at h
  | cons c s ih =>
      cases hr : readTag? (c :: s) with
      | some u =>
          simp only [splitAtTag, hr, Option.some.injEq] at h
          subst h
          exact length_rest_lt hr
      | none =>
          simp only [splitAtTag, hr] at h
          have := ih h
          simp only [List.length_cons]
          omega

/-! ## The whole template -/

/-- A literal piece, unless it is empty. -/
def literalSegment (text : List Char) : List Segment :=
  if text.isEmpty then [] else [.literal text]

/-- The pieces of a text that starts at byte `start` of its template. -/
def scanFrom (start : Nat) (s : List Char) : List Segment :=
  let before := (splitAtTag s).1
  match _h : (splitAtTag s).2 with
  | none => literalSegment before
  | some t =>
      let tag : Tag := ⟨start + byteLength before, t.text, t.key⟩
      literalSegment before ++ .tag tag :: scanFrom tag.stop t.rest
termination_by s.length
decreasing_by exact length_rest_lt_of_splitAtTag _h

/-- The pieces of a template, in order. -/
def scan (source : List Char) : List Segment :=
  scanFrom 0 source

/-- The tags of a template, in order. -/
def tagsOf (segments : List Segment) : List Tag :=
  segments.filterMap fun
    | .literal _ => none
    | .tag tag => some tag

end Mustache
