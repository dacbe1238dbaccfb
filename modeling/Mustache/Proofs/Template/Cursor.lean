import Mustache.Proofs.Template.PlacedTag

/-!
A cursor over a template.

The scan of a template can be done by a cursor that moves over its bytes. Each step looks for
the next pair of opening braces and tries to read a tag there, or gives out a piece; all that
it reads is sliced out of the template by byte offsets, and each slice is checked. No step is
refused, and what a scan has given out and what is ahead of it make up the pieces of the
template at any time (`step?_sound` for a step, `after?_sound` for a run). Each step leaves less
to do, so that a run comes to the end (`exists_finished`).
-/
set_option autoImplicit false

namespace Mustache

open Text

/-! ## Steps -/

/-- The tag that stands at some places of a template. -/
def PlacedTag.toTag (source : List Char) (tag : PlacedTag) : Tag where
  start := tag.start
  text := slice source tag.start tag.stop
  key := tag.key

/-- A piece of a template, with its tag by places. -/
inductive PlacedPiece where
  | literal (text : List Char)
  | tag (tag : PlacedTag)

/-- The piece of a template. -/
def PlacedPiece.segment (source : List Char) : PlacedPiece → Segment
  | .literal text => .literal text
  | .tag t => .tag (t.toTag source)

/-- Where a scan stands. -/
structure Cursor where
  /-- The byte up to which pieces have been found. -/
  place : Nat
  /-- A tag that has been found, but was not given out since text stands in front of it. -/
  pending : Option PlacedTag
  /-- The byte from which opening braces are looked for, while they are. -/
  search : Option Nat
  /-- The pieces that have been given out, the last one first. -/
  pieces : List PlacedPiece

namespace Cursor

/-- A scan begins at the first byte. -/
def first : Cursor where
  place := 0
  pending := none
  search := none
  pieces := []

/-- The scan when it looks for opening braces from a byte on. -/
def lookFrom (c : Cursor) (search : Nat) : Cursor :=
  { c with search := some search }

/-- Goes on from the next pair of opening braces: with the tag that they start, if there is
one, else behind the first of them. Without opening braces all that is left is text. -/
def searchStep? (source : List Char) (c : Cursor) (search : Nat) : Option Cursor := do
  let ahead ← sliceFrom? source search
  match wordPlace? ['{', '{'] ahead with
  | none =>
      let text ← sliceFrom? source c.place
      some ⟨byteLength source, none, none, .literal text :: c.pieces⟩
  | some distance =>
      match ← readTagAt? source (search + distance) with
      | none => some (c.lookFrom (search + distance + 1))
      | some tag =>
          if c.place < tag.start then
            let text ← slice? source c.place tag.start
            some ⟨tag.stop, some tag, none, .literal text :: c.pieces⟩
          else some ⟨tag.stop, none, none, .tag tag :: c.pieces⟩

/-- One step of a scan, unless a slice is refused. A scan that has come to the end of the
template stays there. -/
def step? (source : List Char) (c : Cursor) : Option Cursor :=
  match c.pending, c.search with
  | some tag, _ => some { c with pending := none, pieces := .tag tag :: c.pieces }
  | none, some search => c.searchStep? source search
  | none, none =>
      some (if byteLength source ≤ c.place then c else c.lookFrom c.place)

/-- Where a scan stands after a number of steps, unless a slice was refused. -/
def after? (source : List Char) : (steps : Nat) → Option Cursor
  | 0 => some first
  | steps + 1 => (after? source steps).bind (step? source)

/-- Whether a scan has come to the end of the template and has given out all pieces. -/
def Finished (source : List Char) (c : Cursor) : Prop :=
  c.pending = none ∧ c.search = none ∧ byteLength source ≤ c.place

/-- The pieces that a scan has given out, in order. -/
def segments (source : List Char) (c : Cursor) : List Segment :=
  c.pieces.reverse.map (PlacedPiece.segment source)

/-! ## What a step preserves -/

/-- Whether a part of what is ahead of a scan has been searched: the leftmost tag is behind it,
and so is more of the template. -/
structure Searched (ahead before later : List Char) : Prop where
  spells : ahead = before ++ later
  later_ne_nil : later ≠ []
  leftmost : splitAtTag ahead = (before ++ (splitAtTag later).1, (splitAtTag later).2)

/-- Whether a scan that stands behind a part of a template goes as it should: what it has given
out and what is still ahead make up the scan of the template. -/
structure Sound (source front ahead : List Char) (c : Cursor) : Prop where
  spells : source = front ++ ahead
  place : c.place = byteLength front
  tags : ∀ tag, c.pending = some tag ∨ .tag tag ∈ c.pieces → tag.WellPlaced source
  search : ∀ search, c.search = some search →
    ∃ before later, search = byteLength (front ++ before) ∧ Searched ahead before later
  yields : c.segments source ++ (c.pending.toList.map fun tag => .tag (tag.toTag source))
    ++ scanFrom (byteLength front) ahead = scan source

/-- How much a scan has left to do. -/
def left (source : List Char) (c : Cursor) : Nat :=
  match c.pending, c.search with
  | some _, _ => 4 * (byteLength source - c.place) + 1
  | none, some search => 4 * (byteLength source - search) - 1
  | none, none => 4 * (byteLength source - c.place)

end Cursor

/-! ## The leftmost tag -/

/-- A tag starts with opening braces. -/
theorem readTag?_eq_none {s : List Char} (h : ¬ ['{', '{'] <+: s) : readTag? s = none := by
  rw [readTag?]
  rintro rest rfl
  exact h (List.prefix_append ['{', '{'] rest)

/-- No tag starts in text where no opening braces do. -/
theorem splitAtTag_append {front rest : List Char} (h : StartsNowhere ['{', '{'] front rest) :
    splitAtTag (front ++ rest) = (front ++ (splitAtTag rest).1, (splitAtTag rest).2) := by
  induction front with
  | nil => rfl
  | cons c front ih =>
      have hnone : readTag? (c :: (front ++ rest)) = none :=
        readTag?_eq_none (h [] (c :: front) rfl (List.cons_ne_nil _ _))
      have hfront : StartsNowhere ['{', '{'] front rest := by
        intro before behind hsplit hne
        exact h (c :: before) behind (congrArg (c :: ·) hsplit) hne
      rw [List.cons_append, splitAtTag, hnone, ih hfront]
      rfl

namespace Cursor

variable {source front ahead before later skipped rest : List Char} {c : Cursor}

theorem Sound.slice_later (h : Sound source front ahead c) (hs : Searched ahead before later) :
    sliceFrom? source (byteLength (front ++ before)) = some later := by
  rw [h.spells, hs.spells, ← List.append_assoc]
  exact sliceFrom?_append _ later

/-- Where no opening braces are left, the rest of the template is text. -/
theorem searchStep?_text (h : Sound source front ahead c) (hpending : c.pending = none)
    (hs : Searched ahead before later) (hnone : wordPlace? ['{', '{'] later = none) :
    ∃ next, c.searchStep? source (byteLength (front ++ before)) = some next
      ∧ Sound source source [] next ∧ next.Finished source := by
  have hlater := h.slice_later hs
  have htext : sliceFrom? source c.place = some ahead := by
    rw [h.place, h.spells]
    exact sliceFrom?_append front ahead
  have hstep : c.searchStep? source (byteLength (front ++ before))
      = some ⟨byteLength source, none, none, .literal ahead :: c.pieces⟩ := by
    simp only [searchStep?, hlater, hnone, htext, Option.bind_eq_bind, Option.bind_some]
  -- No braces are ahead, so the scan has one piece left.
  have htagless := splitAtTag_append (wordPlace?_eq_none hnone)
  rw [List.append_nil] at htagless
  have hscan : scanFrom (byteLength front) ahead = [.literal ahead] := by
    have hne : ahead ≠ [] := by
      rw [hs.spells]
      exact List.append_ne_nil_of_right_ne_nil _ hs.later_ne_nil
    rw [scanFrom_of_none (by rw [hs.leftmost, htagless]; rfl), literalSegment,
      if_neg (by rwa [List.isEmpty_iff])]
  refine ⟨_, hstep, ⟨(List.append_nil source).symm, rfl, ?_, ?_, ?_⟩, rfl, rfl, Nat.le_refl _⟩
  · rintro tag (hpend | hmem)
    · cases hpend
    · exact h.tags tag (.inr (by simpa using hmem))
  · intro search hsearch
    cases hsearch
  · have hyields := h.yields
    rw [hscan, hpending] at hyields
    rw [scanFrom_of_none rfl]
    simpa [segments, PlacedPiece.segment, literalSegment] using hyields

/-- Where opening braces start no tag, more of the template is searched. -/
theorem Searched.further (hs : Searched ahead before (skipped ++ '{' :: '{' :: rest))
    (hnowhere : StartsNowhere ['{', '{'] skipped ('{' :: '{' :: rest))
    (hnone : readTag? ('{' :: '{' :: rest) = none) :
    Searched ahead (before ++ (skipped ++ ['{'])) ('{' :: rest) := by
  have hnext : splitAtTag ('{' :: '{' :: rest)
      = ('{' :: (splitAtTag ('{' :: rest)).1, (splitAtTag ('{' :: rest)).2) := by
    rw [splitAtTag, hnone]
  refine ⟨?_, List.cons_ne_nil _ _, ?_⟩
  · rw [hs.spells, List.append_assoc, List.append_assoc]
    rfl
  · rw [hs.leftmost, splitAtTag_append hnowhere, hnext, List.append_assoc, List.append_assoc]
    rfl

/-- Where opening braces start a tag, that is the leftmost one. -/
theorem Searched.found {t : TagReading} (hs : Searched ahead before (skipped ++ '{' :: '{' :: rest))
    (hnowhere : StartsNowhere ['{', '{'] skipped ('{' :: '{' :: rest))
    (hread : readTag? ('{' :: '{' :: rest) = some t) :
    splitAtTag ahead = (before ++ skipped, some t) := by
  have hnext : splitAtTag ('{' :: '{' :: rest) = ([], some t) := by
    rw [splitAtTag, hread]
  rw [hs.leftmost, splitAtTag_append hnowhere, hnext, List.append_nil]

theorem toTag_of_reads {found : PlacedTag} {t : TagReading} (hreads : found.Reads source front t)
    (hsource : source = front ++ (t.text ++ rest)) :
    found.toTag source = ⟨byteLength front, t.text, t.key⟩ := by
  rw [PlacedTag.toTag, hreads.start, hreads.stop, hreads.key, hsource, slice_append]

/-- What a scan has given out, the text in front of the leftmost tag, that tag and the pieces
behind it make up the scan of the template. -/
theorem Sound.yields_found (h : Sound source front ahead c) (hpending : c.pending = none)
    {found : PlacedTag} {t : TagReading} (hsplit : splitAtTag ahead = (before, some t))
    (hreads : found.Reads source (front ++ before) t) :
    c.segments source ++ (literalSegment before ++ .tag (found.toTag source)
      :: scanFrom (byteLength (front ++ (before ++ t.text))) t.rest) = scan source := by
  have hahead := splitAtTag_spells ahead
  rw [hsplit] at hahead
  have hsource : source = front ++ before ++ (t.text ++ t.rest) := by
    rw [h.spells, ← hahead, List.append_assoc]
  have hscan : scanFrom (byteLength front) ahead
      = literalSegment before ++ .tag (found.toTag source)
        :: scanFrom (byteLength (front ++ (before ++ t.text))) t.rest := by
    rw [scanFrom_of_some (by rw [hsplit]), hsplit, toTag_of_reads hreads hsource,
      byteLength_append, byteLength_append, byteLength_append, Nat.add_assoc]
  have hyields := h.yields
  rw [hscan, hpending, Option.toList_none, List.map_nil, List.append_nil] at hyields
  exact hyields

/-- A search that finds a tag right at the cursor gives it out. -/
theorem Sound.found_here (h : Sound source front ahead c) (hpending : c.pending = none)
    {found : PlacedTag} {t : TagReading} (hsplit : splitAtTag ahead = ([], some t))
    (hreads : found.Reads source front t) :
    Sound source (front ++ t.text) t.rest ⟨found.stop, none, none, .tag found :: c.pieces⟩ := by
  have hahead := splitAtTag_spells ahead
  rw [hsplit] at hahead
  rw [← List.append_nil front] at hreads
  have hyields := h.yields_found hpending hsplit hreads
  rw [List.append_nil] at hreads
  refine ⟨?_, ?_, ?_, ?_, ?_⟩
  · rw [h.spells, ← hahead, List.append_assoc]
    rfl
  · rw [byteLength_append]
    exact hreads.stop
  · rintro tag (hpend | hmem)
    · cases hpend
    · rcases List.mem_cons.mp hmem with heq | hmem
      · cases heq
        exact hreads.wellPlaced
      · exact h.tags tag (.inr hmem)
  · intro search hsearch
    cases hsearch
  · simpa [segments, PlacedPiece.segment, literalSegment] using hyields

/-- A search that finds a tag behind some text gives out the text and keeps the tag. -/
theorem Sound.found_behind (h : Sound source front ahead c) (hpending : c.pending = none)
    {found : PlacedTag} {t : TagReading} (hsplit : splitAtTag ahead = (before, some t))
    (hreads : found.Reads source (front ++ before) t) (hne : before ≠ []) :
    Sound source (front ++ (before ++ t.text)) t.rest
      ⟨found.stop, some found, none, .literal before :: c.pieces⟩ := by
  have hahead := splitAtTag_spells ahead
  rw [hsplit] at hahead
  have hyields := h.yields_found hpending hsplit hreads
  refine ⟨?_, ?_, ?_, ?_, ?_⟩
  · rw [h.spells, ← hahead, List.append_assoc, List.append_assoc]
  · rw [← List.append_assoc, byteLength_append]
    exact hreads.stop
  · rintro tag (hpend | hmem)
    · cases hpend
      exact hreads.wellPlaced
    · exact h.tags tag (.inr (by simpa using hmem))
  · intro search hsearch
    cases hsearch
  · simpa [segments, PlacedPiece.segment, literalSegment, hne] using hyields

/-- Behind a tag a scan goes on, after it has given out the text in front of the tag. -/
theorem searchStep?_tag (h : Sound source front ahead c) (hpending : c.pending = none)
    {search distance : Nat} {found : PlacedTag} {t : TagReading}
    (hsplit : splitAtTag ahead = (before, some t))
    (hreads : found.Reads source (front ++ before) t)
    (hlater : sliceFrom? source search = some later)
    (hplace : wordPlace? ['{', '{'] later = some distance)
    (hread : readTagAt? source (search + distance) = some (some found)) :
    ∃ next, c.searchStep? source search = some next
      ∧ Sound source (front ++ (before ++ t.text)) t.rest next ∧ next.search = none := by
  by_cases hnone : before = []
  · subst hnone
    rw [List.append_nil] at hreads
    have hstart : ¬ c.place < found.start := by
      rw [h.place, hreads.start]
      exact Nat.lt_irrefl _
    have hstep : c.searchStep? source search
        = some ⟨found.stop, none, none, .tag found :: c.pieces⟩ := by
      simp only [searchStep?, hlater, hplace, hread, hstart, Option.bind_eq_bind,
        Option.bind_some, if_false]
    exact ⟨_, hstep, h.found_here hpending hsplit hreads, rfl⟩
  · have hstart : c.place < found.start := by
      have hpos := byteLength_pos hnone
      rw [h.place, hreads.start, byteLength_append]
      omega
    have htext : slice? source c.place found.start = some before := by
      have hahead := splitAtTag_spells ahead
      rw [hsplit] at hahead
      rw [h.place, hreads.start, byteLength_append, h.spells, ← hahead]
      exact slice?_append front before _
    have hstep : c.searchStep? source search
        = some ⟨found.stop, some found, none, .literal before :: c.pieces⟩ := by
      simp only [searchStep?, hlater, hplace, hread, hstart, htext, Option.bind_eq_bind,
        Option.bind_some, if_true]
    exact ⟨_, hstep, h.found_behind hpending hsplit hreads hnone, rfl⟩

/-- A search may be in any part of what is ahead up to the leftmost tag. -/
theorem Sound.lookFrom (h : Sound source front ahead c) {search : Nat}
    (hsearch : search = byteLength (front ++ before)) (hs : Searched ahead before later) :
    Sound source front ahead (c.lookFrom search) where
  spells := h.spells
  place := h.place
  tags := h.tags
  search := by
    intro other hother
    cases hother
    exact ⟨before, later, hsearch, hs⟩
  yields := h.yields

theorem left_of_search (hpending : c.pending = none) {search : Nat}
    (hsearch : c.search = some search) :
    c.left source = 4 * (byteLength source - search) - 1 := by
  rw [left, hpending, hsearch]

theorem left_lookFrom (hpending : c.pending = none) (search : Nat) :
    (c.lookFrom search).left source = 4 * (byteLength source - search) - 1 :=
  left_of_search (c := c.lookFrom search) hpending rfl

theorem left_le_of_no_search (hsearch : c.search = none) :
    c.left source ≤ 4 * (byteLength source - c.place) + 1 := by
  rw [left, hsearch]
  cases c.pending with
  | none => exact Nat.le_succ _
  | some tag => exact Nat.le_refl _

/-- A search goes on, finds the next tag or comes to the end of the template; no slice of it is
refused. -/
theorem searchStep?_sound (h : Sound source front ahead c) (hpending : c.pending = none)
    (hs : Searched ahead before later) (hsearch : c.search = some (byteLength (front ++ before))) :
    ∃ next front' ahead', c.searchStep? source (byteLength (front ++ before)) = some next
      ∧ Sound source front' ahead' next
      ∧ (next.Finished source ∨ next.left source < c.left source) := by
  have hslice := h.slice_later hs
  have hleft : c.left source = 4 * (byteLength source - byteLength (front ++ before)) - 1 :=
    left_of_search hpending hsearch
  cases hplace : wordPlace? ['{', '{'] later with
  | none =>
      obtain ⟨next, hstep, hsound, hfinished⟩ := searchStep?_text h hpending hs hplace
      exact ⟨next, source, [], hstep, hsound, .inl hfinished⟩
  | some distance =>
      -- The braces are the first behind what was searched. If no tag starts there, the search goes
      -- on behind the first brace; what is left shrinks by it.
      obtain ⟨skipped, rest, rfl, rfl, hnowhere⟩ := wordPlace?_eq_some hplace
      have hsource : source = front ++ (before ++ skipped) ++ '{' :: '{' :: rest := by
        rw [h.spells, hs.spells, List.append_assoc, List.append_assoc]
        rfl
      have hopening : byteLength (front ++ before) + byteLength skipped
          = byteLength (front ++ (before ++ skipped)) := by
        rw [← byteLength_append, List.append_assoc]
      have hinside : byteLength (front ++ (before ++ skipped)) + 1 < byteLength source := by
        have hbraces : '{'.utf8Size = 1 := rfl
        rw [hsource, byteLength_append _ ('{' :: '{' :: rest), byteLength_cons, byteLength_cons,
          hbraces]
        omega
      obtain ⟨found, hread, hreads⟩ := readTagAt?_reads hsource
      cases htag : readTag? ('{' :: '{' :: rest) with
      | none =>
          rw [htag] at hreads
          cases hreads
          have hstep : c.searchStep? source (byteLength (front ++ before))
              = some (c.lookFrom (byteLength (front ++ (before ++ skipped)) + 1)) := by
            simp only [searchStep?, hslice, hplace, hopening, hread, Option.bind_eq_bind,
              Option.bind_some]
          have hbrace : byteLength (front ++ (before ++ skipped)) + 1
              = byteLength (front ++ (before ++ (skipped ++ ['{']))) := by
            simp only [byteLength_append, Nat.add_assoc]
            rfl
          refine ⟨_, front, ahead, hstep,
            h.lookFrom hbrace (hs.further hnowhere htag), .inr ?_⟩
          rw [hleft, left_lookFrom hpending]
          omega
      | some t =>
          rw [htag] at hreads
          cases hreads with
          | some hreads =>
              rw [← hopening] at hread
              obtain ⟨next, hstep, hsound, hnone⟩ :=
                searchStep?_tag h hpending (hs.found hnowhere htag) hreads hslice hplace hread
              refine ⟨next, _, _, hstep, hsound, .inr ?_⟩
              have hle : next.left source ≤ 4 * (byteLength source - next.place) + 1 :=
                left_le_of_no_search hnone
              have hpos := byteLength_pos (text_ne_nil htag)
              rw [hsound.place, ← List.append_assoc, byteLength_append] at hle
              omega

/-- A tag that was kept is given out. -/
theorem Sound.give (h : Sound source front ahead c) {tag : PlacedTag}
    (hpending : c.pending = some tag) :
    Sound source front ahead { c with pending := none, pieces := .tag tag :: c.pieces } := by
  refine ⟨h.spells, h.place, ?_, h.search, ?_⟩
  · rintro other (hpend | hmem)
    · cases hpend
    · rcases List.mem_cons.mp hmem with heq | hmem
      · cases heq
        exact h.tags tag (.inl hpending)
      · exact h.tags other (.inr hmem)
  · have hyields := h.yields
    rw [hpending] at hyields
    simpa [segments, PlacedPiece.segment] using hyields

/-- A step of a scan is never refused. It leads on as it should, and leaves less to do, unless
the scan has come to the end. -/
theorem step?_sound (h : Sound source front ahead c) :
    ∃ next front' ahead', c.step? source = some next ∧ Sound source front' ahead' next
      ∧ (next.Finished source ∨ next.left source < c.left source) := by
  -- A step gives out the tag that waits, goes on with a search, ends, or starts a search; each
  -- makes less of what is left.
  cases hpending : c.pending with
  | some tag =>
      refine ⟨_, front, ahead, by rw [step?, hpending], h.give hpending, .inr ?_⟩
      cases hsearch : c.search with
      | none => simp only [left, hpending, hsearch, Nat.lt_succ_self]
      | some search =>
          obtain ⟨before, later, rfl, -⟩ := h.search search hsearch
          simp only [left, hpending, hsearch, h.place, byteLength_append]
          omega
  | none =>
      cases hsearch : c.search with
      | some search =>
          obtain ⟨before, later, rfl, hs⟩ := h.search search hsearch
          obtain ⟨next, front', ahead', hstep, hnext⟩ := searchStep?_sound h hpending hs hsearch
          exact ⟨next, front', ahead', by rw [step?, hpending, hsearch]; exact hstep, hnext⟩
      | none =>
          by_cases hend : byteLength source ≤ c.place
          · refine ⟨c, front, ahead, ?_, h, .inl ⟨hpending, hsearch, hend⟩⟩
            rw [step?, hpending, hsearch]
            exact congrArg some (if_pos hend)
          · have hne : ahead ≠ [] := by
              rintro rfl
              rw [h.spells, List.append_nil, h.place] at hend
              exact hend (Nat.le_refl _)
            have hplace : c.place = byteLength (front ++ []) := by
              rw [h.place, List.append_nil]
            refine ⟨c.lookFrom c.place, front, ahead, ?_,
              h.lookFrom hplace ⟨rfl, hne, rfl⟩, .inr ?_⟩
            · rw [step?, hpending, hsearch]
              exact congrArg some (if_neg hend)
            · rw [left_lookFrom hpending, left, hpending, hsearch]
              dsimp only
              omega

/-! ## What a run preserves -/

theorem sound_first (source : List Char) : Sound source [] source first where
  spells := rfl
  place := rfl
  tags := by
    rintro tag (hpend | hmem)
    · cases hpend
    · cases hmem
  search := by
    intro search hsearch
    cases hsearch
  yields := rfl

/-- No step of a scan is refused, and all of them lead where they should. -/
theorem after?_sound (source : List Char) (steps : Nat) :
    ∃ c front ahead, after? source steps = some c ∧ Sound source front ahead c := by
  induction steps with
  | zero => exact ⟨first, [], source, rfl, sound_first source⟩
  | succ steps ih =>
      obtain ⟨c, front, ahead, hafter, hsound⟩ := ih
      obtain ⟨next, front', ahead', hstep, hnext, -⟩ := step?_sound hsound
      refine ⟨next, front', ahead', ?_, hnext⟩
      rw [after?, hafter, Option.bind_some, hstep]

/-- From wherever it stands, a scan comes to the end of the template. -/
theorem exists_finished {front ahead : List Char} {c : Cursor} {steps : Nat}
    (hafter : after? source steps = some c) (h : Sound source front ahead c) :
    ∃ steps last front' ahead', after? source steps = some last
      ∧ Sound source front' ahead' last ∧ last.Finished source := by
  obtain ⟨next, front', ahead', hstep, hnext, hprogress⟩ := step?_sound h
  have hthen : after? source (steps + 1) = some next := by
    rw [after?, hafter, Option.bind_some, hstep]
  rcases hprogress with hfinished | hless
  · exact ⟨steps + 1, next, front', ahead', hthen, hnext, hfinished⟩
  · exact exists_finished hthen hnext
termination_by c.left source

/-- At the end of the template a scan has given out its pieces. -/
theorem Sound.segments_of_finished (h : Sound source front ahead c)
    (hfinished : c.Finished source) :
    c.segments source = scan source := by
  obtain ⟨hpending, -, hend⟩ := hfinished
  have hnone : ahead = [] := by
    rw [h.place, h.spells, byteLength_append] at hend
    have hlength := length_le_byteLength ahead
    exact List.length_eq_zero_iff.mp (by omega)
  have hyields := h.yields
  rw [hpending, hnone, scanFrom_of_none rfl] at hyields
  simpa [literalSegment] using hyields

/-- Whether all places that a scan holds lie in the template and between its characters. -/
structure OnBoundaries (source : List Char) (c : Cursor) : Prop where
  place : IsBoundary source c.place
  search : ∀ search, c.search = some search → IsBoundary source search
  tags : ∀ tag, c.pending = some tag ∨ .tag tag ∈ c.pieces → tag.WellPlaced source

theorem Sound.onBoundaries (h : Sound source front ahead c) : c.OnBoundaries source where
  place := ⟨front, ahead, h.spells, h.place.symm⟩
  search := by
    intro search hsearch
    obtain ⟨before, later, hplace, hs⟩ := h.search search hsearch
    refine ⟨front ++ before, later, ?_, hplace.symm⟩
    rw [h.spells, hs.spells, List.append_assoc]
  tags := h.tags

end Cursor

end Mustache
