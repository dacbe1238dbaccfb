import Mathlib.Data.List.Induction
import Mustache.Proofs.Template.Place
import Mustache.Template.Builder

/-!
Which flat templates are read.

A flat template can be wrong in two ways only: a close tag stands where no block is open,
or a block is never closed. Both show in one count, that of the tags which open a block
less that of the tags which close one. A template is read if the count never falls below
zero and ends there. The first tag at which it falls below zero is the one that is
reported, whatever comes behind it. The builder's depth is this count as long as it is
not below zero; that is the invariant of one step, and of a row of them.
-/
set_option autoImplicit false

namespace Mustache

open Text

/-! ## The count -/

def Tag.opensBlock (tag : Tag) : Bool :=
  tag.sigil == .blockOpen || tag.sigil == .invertedOpen

def Tag.closesBlock (tag : Tag) : Bool :=
  tag.sigil == .blockClose

/-- The number of tags that open a block less that of tags that close one. -/
def balance (tags : List Tag) : Int :=
  tags.countP Tag.opensBlock - tags.countP Tag.closesBlock

/-- Whether the count is nowhere below zero while tags are counted one by one. -/
def NeverBelow (tags : List Tag) : Prop :=
  ∀ front, front <+: tags → 0 ≤ balance front

/-- Whether a tag, which stands behind others, is the first one at which the count is
below zero. -/
structure FirstStray (tags before : List Tag) (tag : Tag) : Prop where
  follows : before ++ [tag] <+: tags
  neverBelow : NeverBelow before
  below : balance (before ++ [tag]) < 0

@[simp] theorem balance_nil : balance [] = 0 := rfl

theorem balance_append (first rest : List Tag) :
    balance (first ++ rest) = balance first + balance rest := by
  rw [balance, balance, balance, List.countP_append, List.countP_append]
  omega

theorem balance_cons (tag : Tag) (rest : List Tag) :
    balance (tag :: rest) = balance [tag] + balance rest :=
  balance_append [tag] rest

/-- What a tag adds to the count. -/
theorem balance_singleton (tag : Tag) :
    balance [tag] = match tag.sigil with
      | .blockOpen | .invertedOpen => 1
      | .blockClose => -1
      | .inclusion | .comment | .raw | .plain => 0 := by
  cases hsigil : tag.sigil <;> simp [balance, Tag.opensBlock, Tag.closesBlock, hsigil]

theorem sigil_of_balance {tag : Tag} (h : balance [tag] < 0) : tag.sigil = .blockClose := by
  rw [balance_singleton] at h
  cases hsigil : tag.sigil with
  | blockClose => rfl
  | blockOpen | invertedOpen | inclusion | comment | raw | plain => simp [hsigil] at h

theorem FirstStray.closesBlock {tags before : List Tag} {tag : Tag}
    (h : FirstStray tags before tag) : tag.closesBlock = true := by
  have hbefore := h.neverBelow before List.prefix_rfl
  have hbelow := h.below
  rw [balance_append] at hbelow
  have hsigil : tag.sigil = .blockClose := sigil_of_balance (by omega)
  rw [Tag.closesBlock, hsigil]
  rfl

/-- Where the count falls below zero, there is a first tag at which it does. -/
theorem exists_firstStray {tags : List Tag} (h : ¬ NeverBelow tags) :
    ∃ before tag, FirstStray tags before tag := by
  induction tags using List.reverseRecOn with
  | nil =>
      refine absurd ?_ h
      intro front hfront
      rw [List.prefix_nil.mp hfront]
      exact Int.le_refl 0
  | append_singleton tags tag ih =>
      by_cases hbefore : NeverBelow tags
      · -- The last tag is the stray one, else all prefixes would be balanced.
        refine ⟨tags, tag, List.prefix_rfl, hbefore, ?_⟩
        by_contra hbelow
        refine h ?_
        intro front hfront
        rcases List.prefix_concat_iff.mp hfront with rfl | hfront
        · omega
        · exact hbefore front hfront
      · obtain ⟨before, stray, hstray⟩ := ih hbefore
        exact ⟨before, stray, hstray.follows.trans (List.prefix_append _ _),
          hstray.neverBelow, hstray.below⟩

/-! ## One step -/

namespace Builder

variable (source : List Char) (file : String)

@[simp] theorem depth_empty : empty.depth = 0 := rfl

@[simp] theorem depth_addNode (b : Builder) (node : Node) : (b.addNode node).depth = b.depth := rfl

@[simp] theorem depth_addLiteral (b : Builder) (text : List Char) :
    (b.addLiteral text).depth = b.depth := by
  rw [addLiteral]
  split_ifs <;> rfl

@[simp] theorem depth_openBlock (b : Builder) (kind : BlockKind) (expression : String)
    (location : Location) : (b.openBlock kind expression location).depth = b.depth + 1 := rfl

/-- Without an open block there is none to close. -/
theorem closeBlock?_of_depth {b : Builder} (h : b.depth = 0) : b.closeBlock? = none := by
  have hnil : b.enclosing = [] := by
    simpa [depth, scopes, ScopeStack.depth] using h
  rw [closeBlock?, hnil]

/-- The innermost open block can be closed. -/
theorem exists_closeBlock? {b : Builder} (h : 0 < b.depth) :
    ∃ closed, b.closeBlock? = some closed ∧ closed.depth + 1 = b.depth := by
  cases henclosing : b.enclosing with
  | nil => simp [depth, scopes, ScopeStack.depth, henclosing] at h
  | cons block rest =>
      refine ⟨_, by rw [closeBlock?, henclosing], ?_⟩
      simp [depth, scopes, ScopeStack.depth, henclosing]

/-- As long as a tag does not make the count fall below zero, it is acted on, and the depth
follows the count. -/
theorem addTag_of_balance {b : Builder} {tag : Tag} (h : 0 ≤ b.depth + balance [tag]) :
    ∃ next, b.addTag source file tag = .ok next ∧ (next.depth : Int) = b.depth + balance [tag] := by
  have hcount := balance_singleton tag
  rw [addTag]
  cases hsigil : tag.sigil with
  | blockOpen | invertedOpen =>
      simp only [hsigil] at hcount
      exact ⟨_, rfl, by rw [depth_openBlock]; omega⟩
  | blockClose =>
      simp only [hsigil] at hcount
      obtain ⟨closed, hclosed, hdepth⟩ := exists_closeBlock? (b := b) (by omega)
      refine ⟨closed, by rw [act, hclosed], by omega⟩
  | inclusion | comment | raw | plain =>
      simp only [hsigil] at hcount
      exact ⟨_, rfl, by simp [hcount]⟩

/-- A tag that makes the count fall below zero is a close tag that strays. -/
theorem addTag_of_stray {b : Builder} {tag : Tag} (h : b.depth + balance [tag] < 0) :
    b.addTag source file tag
      = .error (.unexpectedClose (String.ofList tag.expression) file (tag.location source)) := by
  have hsigil : tag.sigil = .blockClose := sigil_of_balance (by omega)
  have hcount := balance_singleton tag
  simp only [hsigil] at hcount
  rw [addTag, hsigil, act, closeBlock?_of_depth (by omega)]

/-! ## A run -/

theorem addSegments_literal (b : Builder) (text : List Char) (rest : List Segment) :
    b.addSegments source file (.literal text :: rest)
      = (b.addLiteral text).addSegments source file rest := rfl

theorem addSegments_tag (b : Builder) (tag : Tag) (rest : List Segment) :
    b.addSegments source file (.tag tag :: rest)
      = (b.addTag source file tag).bind fun next => next.addSegments source file rest := rfl

/-- As long as the count is not below zero, pieces are taken, and the depth follows the
count. -/
theorem addSegments_of_balance {b : Builder} {segments : List Segment}
    (h : ∀ front, front <+: tagsOf segments → 0 ≤ b.depth + balance front) :
    ∃ last, b.addSegments source file segments = .ok last
      ∧ (last.depth : Int) = b.depth + balance (tagsOf segments) := by
  induction segments generalizing b with
  | nil => exact ⟨b, rfl, by simp [tagsOf]⟩
  | cons segment rest ih =>
      cases segment with
      | literal text =>
          rw [addSegments_literal]
          rw [← depth_addLiteral b text] at h ⊢
          exact ih h
      | tag tag =>
          obtain ⟨next, hnext, hdepth⟩ := addTag_of_balance source file
            (h [tag] (List.prefix_append [tag] (tagsOf rest)))
          -- What holds of all fronts behind a first tag holds of the fronts of the rest, at the
          -- new depth.
          have hrest : ∀ front, front <+: tagsOf rest → 0 ≤ next.depth + balance front := by
            intro front hfront
            have hcons := h (tag :: front) (List.prefix_cons_inj tag |>.mpr hfront)
            rw [balance_cons] at hcons
            omega
          obtain ⟨last, hlast, hfinal⟩ := ih hrest
          refine ⟨last, ?_, ?_⟩
          · rw [addSegments_tag, hnext]
            exact hlast
          · have hcount : balance (tagsOf (.tag tag :: rest))
                = balance [tag] + balance (tagsOf rest) := balance_cons tag (tagsOf rest)
            omega

/-- The first tag that makes the count fall below zero ends the run. -/
theorem addSegments_of_stray {b : Builder} {segments : List Segment} {before : List Tag} {tag : Tag}
    (hfollows : before ++ [tag] <+: tagsOf segments)
    (hbefore : ∀ front, front <+: before → 0 ≤ b.depth + balance front)
    (hbelow : b.depth + balance (before ++ [tag]) < 0) :
    b.addSegments source file segments
      = .error (.unexpectedClose (String.ofList tag.expression) file (tag.location source)) := by
  induction segments generalizing b before with
  | nil => simp [tagsOf] at hfollows
  | cons segment rest ih =>
      cases segment with
      | literal text =>
          rw [addSegments_literal]
          exact ih hfollows (by rwa [depth_addLiteral]) (by rwa [depth_addLiteral])
      | tag next =>
          rw [addSegments_tag]
          have htags : tagsOf (.tag next :: rest) = next :: tagsOf rest := rfl
          rw [htags] at hfollows
          cases before with
          | nil =>
              obtain ⟨rfl, -⟩ := List.cons_prefix_cons.mp hfollows
              rw [addTag_of_stray source file hbelow]
              rfl
          -- The tags before the stray one never run out of blocks, so the builder gets past the
          -- first.
          | cons other before =>
              obtain ⟨rfl, hrest⟩ := List.cons_prefix_cons.mp hfollows
              have hstep := hbefore [other] (List.prefix_append [other] before)
              obtain ⟨b', hb', hdepth⟩ := addTag_of_balance source file hstep
              rw [hb']
              refine ih hrest ?_ ?_
              · intro front hfront
                have hcons := hbefore (other :: front) ((List.prefix_cons_inj other).mpr hfront)
                rw [balance_cons] at hcons
                omega
              · rw [List.cons_append, balance_cons] at hbelow
                omega

end Builder

/-! ## Flat templates -/

section

variable {source : List Char} (file : String)

/-- A template whose count is never below zero is read if the count ends at zero. -/
theorem exists_readFlat (hnever : NeverBelow (tagsOf (scan source)))
    (hzero : balance (tagsOf (scan source)) = 0) : ∃ nodes, readFlat source file = .ok nodes := by
  obtain ⟨last, hlast, hdepth⟩ :=
    Builder.addSegments_of_balance source file (b := .empty)
      (by simpa [NeverBelow] using hnever)
  have hclosed : last.enclosing = [] := by
    rw [hzero, Builder.depth_empty] at hdepth
    simpa [Builder.depth, Builder.scopes, ScopeStack.depth] using hdepth
  refine ⟨last.body.reverse, ?_⟩
  rw [readFlat, hlast]
  simp [bind, Except.bind, Builder.finish, hclosed]

/-- A template whose count is never below zero lacks the end of a block if the count ends
above zero. -/
theorem readFlat_of_pos (hnever : NeverBelow (tagsOf (scan source)))
    (hpos : 0 < balance (tagsOf (scan source))) :
    readFlat source file = .error (.missingEnd file) := by
  obtain ⟨last, hlast, hdepth⟩ :=
    Builder.addSegments_of_balance source file (b := .empty)
      (by simpa [NeverBelow] using hnever)
  have hopen : last.enclosing ≠ [] := by
    intro hnil
    simp [Builder.depth, Builder.scopes, ScopeStack.depth, hnil] at hdepth
    omega
  rw [readFlat, hlast]
  simp [bind, Except.bind, Builder.finish, hopen]

/-- The first tag that makes the count fall below zero is reported. -/
theorem readFlat_of_stray {before : List Tag} {tag : Tag}
    (h : FirstStray (tagsOf (scan source)) before tag) :
    readFlat source file
      = .error (.unexpectedClose (String.ofList tag.expression) file (tag.location source)) := by
  have hrun := Builder.addSegments_of_stray source file (b := .empty)
    h.follows (by simpa [NeverBelow] using h.neverBelow) (by simpa using h.below)
  rw [readFlat, hrun]
  rfl

end

/-! ## Reports -/

/-- Whether a report is about a close tag that strays in a template. -/
structure ReportsStray (source : List Char) (file : String) (tag : Tag) (report : Report) :
    Prop where
  code : report.code = "STACHE-E001"
  file : report.file = file
  /-- The tag is named by what it says, with its line. -/
  message : report.message = "Unexpected end of block: " ++ String.ofList tag.expression
    ++ " line " ++ toString report.location.line.toNat
  /-- The line counts the line feeds up to the end of the tag, the column the characters
  between the start of a line and the tag. -/
  place : ∃ front, tag.StandsBehind source front
    ∧ report.location.line.toNat = 1 + newlines (front ++ tag.text)
    ∧ ∃ line, EndsInLine front line ∧ report.location.column.toNat = 1 + line.length

theorem reportsStray {source : List Char} {tag : Tag} (file : String)
    (htag : tag ∈ tagsOf (scan source)) (hsize : byteLength source < UInt32.size - 1) :
    ReportsStray source file tag (TemplateError.unexpectedClose (String.ofList tag.expression)
      file (tag.location source)).report := by
  obtain ⟨front, hbehind⟩ := exists_standsBehind htag
  exact ⟨rfl, rfl, rfl, front, hbehind, hbehind.line hsize, hbehind.column hsize⟩

/-- A flat template is read if and only if its blocks balance. If they do not, the error is
the first one: if the count of open blocks falls below zero, the close tag at which it does
so first, whatever comes behind it, and otherwise a missing end, which has no place. There
are no other errors. -/
theorem readFlat_balance (source : List Char) (file : String)
    (hsize : byteLength source < UInt32.size - 1) :
    ((∃ nodes, readFlat source file = .ok nodes)
        ↔ NeverBelow (tagsOf (scan source)) ∧ balance (tagsOf (scan source)) = 0)
      ∧ (¬ NeverBelow (tagsOf (scan source)) →
        ∃ before tag error, FirstStray (tagsOf (scan source)) before tag
          ∧ tag.closesBlock = true
          ∧ readFlat source file = .error error ∧ ReportsStray source file tag error.report)
      ∧ (NeverBelow (tagsOf (scan source)) → 0 < balance (tagsOf (scan source)) →
        ∃ error, readFlat source file = .error error ∧ error.report.code = "STACHE-E002"
          ∧ error.report.location = ⟨0, 0⟩)
      ∧ ∀ error, readFlat source file = .error error →
        error.report.code = "STACHE-E001" ∨ error.report.code = "STACHE-E002" := by
  -- Three cases of the count settle what reading a template gives.
  by_cases hnever : NeverBelow (tagsOf (scan source))
  · have hnonneg := hnever _ List.prefix_rfl
    by_cases hzero : balance (tagsOf (scan source)) = 0
    · obtain ⟨nodes, hnodes⟩ := exists_readFlat file hnever hzero
      refine ⟨iff_of_true ⟨nodes, hnodes⟩ ⟨hnever, hzero⟩, absurd hnever, fun _ hpos => ?_, ?_⟩
      · omega
      · intro error herror
        rw [hnodes] at herror
        cases herror
    · have hread := readFlat_of_pos file hnever (by omega)
      refine ⟨iff_of_false ?_ fun h => hzero h.2, absurd hnever, fun _ _ => ?_, ?_⟩
      · rintro ⟨nodes, hnodes⟩
        rw [hread] at hnodes
        cases hnodes
      · exact ⟨_, hread, rfl, rfl⟩
      · intro error herror
        rw [hread] at herror
        cases herror
        exact .inr rfl
  · obtain ⟨before, tag, hstray⟩ := exists_firstStray hnever
    have hread := readFlat_of_stray file hstray
    have htag : tag ∈ tagsOf (scan source) :=
      hstray.follows.subset (List.mem_append_right before (List.mem_singleton_self tag))
    refine ⟨iff_of_false ?_ fun h => hnever h.1, fun _ => ?_, fun h => absurd h hnever, ?_⟩
    · rintro ⟨nodes, hnodes⟩
      rw [hread] at hnodes
      cases hnodes
    · exact ⟨before, tag, _, hstray, hstray.closesBlock, hread, reportsStray file htag hsize⟩
    · intro error herror
      rw [hread] at herror
      cases herror
      exact .inl rfl

/-- A template with a stray close tag on its second line and, behind it, a block that is
never closed: the close tag is reported. -/
theorem readFlat_balance_of_both :
    ∃ error, readFlat "one\n  {{/ items }}{{#a}}".toList "t" = .error error
      ∧ ReportsStray "one\n  {{/ items }}{{#a}}".toList "t"
        ⟨6, "{{/ items }}".toList, "/ items ".toList⟩ error.report := by
  have htags : tagsOf (scan "one\n  {{/ items }}{{#a}}".toList)
      = [⟨6, "{{/ items }}".toList, "/ items ".toList⟩, ⟨18, "{{#a}}".toList, "#a".toList⟩] := by
    decide +kernel
  have hbelow : balance [⟨6, "{{/ items }}".toList, "/ items ".toList⟩] < 0 := by decide
  obtain ⟨-, hstray, -, -⟩ :=
    readFlat_balance "one\n  {{/ items }}{{#a}}".toList "t" (by decide)
  rw [htags] at hstray
  obtain ⟨before, tag, error, hfirst, -, hread, hreport⟩ := hstray fun hnever =>
    absurd (hnever _ (List.prefix_append [_] [_])) (Int.not_le.mpr hbelow)
  refine ⟨error, hread, ?_⟩
  -- No tag behind the first can be the one, since the count is below zero before it.
  cases before with
  | nil =>
      obtain ⟨rfl, -⟩ := List.cons_prefix_cons.mp hfirst.follows
      exact hreport
  | cons other before =>
      obtain ⟨rfl, -⟩ := List.cons_prefix_cons.mp hfirst.follows
      exact absurd (hfirst.neverBelow _ (List.prefix_append [_] before)) (Int.not_le.mpr hbelow)

end Mustache
