import Mustache.Proofs.Template.Balance

/-!
Trees written out.

A template tree can be written out as a row of marks: text and tags in the order in which
they stand, and for each block an opening mark, its body and a closing mark. A template
gives a row of marks as well, one for each piece of it that is no comment; a closing mark
stands for the block that is the innermost open one there, whatever the tag says. The two
rows are the same for every template that is read. The invariant is about trees that are
partly built: what a builder holds, written out from the outermost list to the innermost
one, is what the pieces so far give.
-/
set_option autoImplicit false

namespace Mustache

/-! ## Marks -/

/-- The tag that opened a block. -/
structure Opening where
  kind : BlockKind
  expression : String
  location : Location
  deriving DecidableEq, Repr

/-- What stands at one place of a template that is written out. -/
inductive Mark where
  | literal (text : String)
  /-- A tag that closes nothing. -/
  | tag (sigil : Sigil) (expression : String) (location : Location)
  /-- The end of a block; which block that is may be left out. -/
  | close (block : Option Opening)
  /-- An element, which no tag stands for. -/
  | element (name : String)
  deriving DecidableEq, Repr

/-- The mark with a block for the one that it ends. -/
def Mark.ending (block : Option Opening) : Mark → Mark
  | .close _ => .close block
  | mark => mark

def BlockKind.sigil : BlockKind → Sigil
  | .normal => .blockOpen
  | .inverted => .invertedOpen

/-- The mark of the tag that opened a block. -/
def Opening.mark (block : Opening) : Mark :=
  .tag block.kind.sigil block.expression block.location

mutual

/-- A node written out. -/
def Node.marks : Node → List Mark
  | .text value => [.literal value]
  | .interpolation expression escape location =>
      [.tag (if escape then .plain else .raw) expression location]
  | .block kind expression body location =>
      Opening.mark ⟨kind, expression, location⟩
        :: (marksOf body ++ [.close (some ⟨kind, expression, location⟩)])
  | .inclusion name location => [.tag .inclusion name location]
  | .element name _ _ => [.element name]

/-- A list of nodes written out. -/
def marksOf : List Node → List Mark
  | [] => []
  | node :: rest => node.marks ++ marksOf rest

end

/-! ## Pieces -/

/-- The block that a piece opens, if it opens one. -/
def Segment.opening? (source : List Char) : Segment → Option Opening
  | .literal _ => none
  | .tag t =>
      match t.sigil with
      | .blockOpen => some ⟨.normal, String.ofList t.expression, t.location source⟩
      | .invertedOpen => some ⟨.inverted, String.ofList t.expression, t.location source⟩
      | _ => none

/-- Whether a piece closes a block. -/
def Segment.closesBlock : Segment → Bool
  | .literal _ => false
  | .tag t => t.closesBlock

/-- The marks of a piece: none for a comment, and for a close tag one that does not say
what it ends. -/
def Segment.marks (source : List Char) : Segment → List Mark
  | .literal text => [.literal (String.ofList text)]
  | .tag t =>
      match t.sigil with
      | .comment => []
      | .blockClose => [.close none]
      | sigil => [.tag sigil (String.ofList t.expression) (t.location source)]

/-- The open blocks behind a piece, the innermost first. -/
def Segment.openBehind (source : List Char) (opened : List Opening) (segment : Segment) :
    List Opening :=
  if segment.closesBlock then opened.tail else (segment.opening? source).toList ++ opened

/-- The marks of pieces, where the blocks `opened` are open, the innermost first. A close
tag ends the innermost open block. -/
def nestedMarks (source : List Char) (opened : List Opening) : List Segment → List Mark
  | [] => []
  | segment :: rest =>
      (segment.marks source).map (Mark.ending opened.head?)
        ++ nestedMarks source (segment.openBehind source opened) rest

/-- With the blocks left out that they end, the marks of pieces are those of each piece. -/
theorem nestedMarks_ending (source : List Char) (opened : List Opening) (segments : List Segment) :
    (nestedMarks source opened segments).map (Mark.ending none)
      = segments.flatMap (Segment.marks source) := by
  induction segments generalizing opened with
  | nil => rfl
  | cons segment rest ih =>
      have hmarks : ((segment.marks source).map (Mark.ending opened.head?)).map (Mark.ending none)
          = segment.marks source := by
        cases segment with
        | literal text => rfl
        | tag tag =>
            rw [Segment.marks]
            cases tag.sigil <;> rfl
      rw [nestedMarks, List.map_append, hmarks, ih, List.flatMap_cons]

/-! ## Lists of nodes -/

@[simp] theorem marksOf_nil : marksOf [] = [] := by rw [marksOf]

@[simp] theorem marksOf_append (first rest : List Node) :
    marksOf (first ++ rest) = marksOf first ++ marksOf rest := by
  induction first with
  | nil => rw [List.nil_append, marksOf_nil, List.nil_append]
  | cons node first ih => rw [List.cons_append, marksOf, marksOf, ih, List.append_assoc]

@[simp] theorem marksOf_singleton (node : Node) : marksOf [node] = node.marks := by
  rw [marksOf, marksOf_nil, List.append_nil]

/-! ## Trees that are partly built -/

/-- The tag that opened a block which is still open. -/
def Scope.opening (scope : Scope) : Opening :=
  ⟨scope.kind, scope.expression, scope.location⟩

namespace Builder

/-- What stands before the body of the innermost open block, written out. -/
def enclosingMarks : List (Scope × List Node) → List Mark
  | [] => []
  | (scope, outer) :: rest =>
      enclosingMarks rest ++ (marksOf outer.reverse ++ [scope.opening.mark])

/-- What a builder holds, written out. -/
def marks (b : Builder) : List Mark :=
  enclosingMarks b.enclosing ++ marksOf b.body.reverse

/-- The tags that opened the blocks which are still open, the innermost first. -/
def openings (b : Builder) : List Opening :=
  b.scopes.map Scope.opening

theorem marks_addNode (b : Builder) (node : Node) :
    (b.addNode node).marks = b.marks ++ node.marks := by
  simp [marks, addNode]

theorem marks_openBlock (b : Builder) (kind : BlockKind) (expression : String)
    (location : Location) :
    (b.openBlock kind expression location).marks
      = b.marks ++ [Opening.mark ⟨kind, expression, location⟩] := by
  simp [marks, openBlock, enclosingMarks, Scope.opening]

/-- The block that is closed is the innermost one, and its end is written behind all else. -/
theorem marks_of_closeBlock? {b closed : Builder} (h : b.closeBlock? = some closed) :
    closed.marks = b.marks ++ [.close b.openings.head?] ∧ closed.openings = b.openings.tail := by
  obtain ⟨body, enclosing⟩ := b
  cases enclosing with
  | nil => simp [closeBlock?] at h
  | cons block rest =>
      obtain ⟨scope, outer⟩ := block
      simp only [closeBlock?, Option.some.injEq] at h
      subst h
      refine ⟨?_, rfl⟩
      simp [marks, enclosingMarks, openings, scopes, Scope.opening, Node.marks]

variable {source : List Char} {file : String}

/-- A tag adds its marks to what is written out, and opens or closes a block. -/
theorem marks_of_addTag {b next : Builder} {tag : Tag} (h : b.addTag source file tag = .ok next) :
    next.marks = b.marks
        ++ ((Segment.tag tag).marks source).map (Mark.ending b.openings.head?)
      ∧ next.openings = (Segment.tag tag).openBehind source b.openings := by
  rw [addTag] at h
  cases hsigil : tag.sigil with
  | blockOpen | invertedOpen =>
      rw [hsigil] at h
      cases h
      refine ⟨?_, ?_⟩
      · rw [marks_openBlock, Segment.marks, hsigil]
        rfl
      · rw [Segment.openBehind, Segment.closesBlock, Segment.opening?, Tag.closesBlock, hsigil]
        rfl
  | blockClose =>
      rw [hsigil, act] at h
      cases hclose : b.closeBlock? with
      | none => simp [hclose] at h
      | some closed =>
          rw [hclose] at h
          cases h
          -- The end is marked with the opening of the innermost block, which is open no more.
          obtain ⟨hmarks, hopenings⟩ := marks_of_closeBlock? hclose
          refine ⟨?_, ?_⟩
          · rw [hmarks, Segment.marks, hsigil]
            rfl
          · rw [hopenings, Segment.openBehind, Segment.closesBlock, Tag.closesBlock, hsigil]
            rfl
  | comment =>
      rw [hsigil] at h
      cases h
      refine ⟨?_, ?_⟩
      · rw [Segment.marks, hsigil, List.map_nil, List.append_nil]
      · rw [Segment.openBehind, Segment.closesBlock, Segment.opening?, Tag.closesBlock, hsigil]
        rfl
  | inclusion | raw | plain =>
      rw [hsigil] at h
      cases h
      refine ⟨?_, ?_⟩
      · rw [marks_addNode, Segment.marks, hsigil, Node.marks]
        rfl
      · rw [Segment.openBehind, Segment.closesBlock, Segment.opening?, Tag.closesBlock, hsigil]
        rfl

/-- Pieces add their marks to what is written out. -/
theorem marks_of_addSegments {b last : Builder} {segments : List Segment}
    (hliterals : ∀ text, .literal text ∈ segments → text ≠ [])
    (h : b.addSegments source file segments = .ok last) :
    last.marks = b.marks ++ nestedMarks source b.openings segments := by
  -- The marks behind a piece depend on the builder through its open blocks alone.
  induction segments generalizing b with
  | nil =>
      cases h
      rw [nestedMarks, List.append_nil]
  | cons segment rest ih =>
      have hrest : ∀ text, .literal text ∈ rest → text ≠ [] :=
        fun text htext => hliterals text (List.mem_cons_of_mem segment htext)
      cases segment with
      | literal text =>
          have hnode : b.addLiteral text = b.addNode (.text (String.ofList text)) :=
            if_neg (by simpa using hliterals text List.mem_cons_self)
          rw [addSegments_literal, hnode] at h
          rw [ih hrest h, marks_addNode, Node.marks, List.append_assoc]
          rfl
      | tag tag =>
          rw [addSegments_tag] at h
          cases hstep : b.addTag source file tag with
          | error e =>
              rw [hstep] at h
              cases h
          | ok next =>
              rw [hstep] at h
              obtain ⟨hmarks, hopenings⟩ := marks_of_addTag hstep
              rw [ih hrest h, hmarks, hopenings, nestedMarks, List.append_assoc]

/-- A builder that is finished has written out its tree. -/
theorem marks_of_finish {b : Builder} {nodes : List Node} (h : b.finish file = .ok nodes) :
    b.marks = marksOf nodes := by
  rw [finish] at h
  split_ifs at h with hclosed
  cases h
  rw [marks, List.isEmpty_iff.mp hclosed, enclosingMarks, List.nil_append]

end Builder

/-! ## Flat templates -/

/-- A flat template that is read loses nothing, doubles nothing and keeps its order. Its
tree, written out, gives the pieces of the template without the comments and the names of
close tags: the same literals, and the same tags with what they do, what they name and
where they stand. Each close tag ends the innermost block that is open there. -/
theorem readFlat_marks {source : List Char} {file : String} {nodes : List Node}
    (h : readFlat source file = .ok nodes) :
    (marksOf nodes).map (Mark.ending none) = (scan source).flatMap (Segment.marks source)
      ∧ marksOf nodes = nestedMarks source [] (scan source) := by
  have hliterals := (scanFrom_decomposes [] source).literals_nonempty
  rw [readFlat] at h
  cases hrun : Builder.empty.addSegments source file (scan source) with
  | error e =>
      rw [hrun] at h
      cases h
  | ok last =>
      rw [hrun] at h
      have hmarks : marksOf nodes = nestedMarks source [] (scan source) := by
        rw [← Builder.marks_of_finish h, Builder.marks_of_addSegments hliterals hrun]
        rfl
      refine ⟨?_, hmarks⟩
      rw [hmarks, nestedMarks_ending]

/-- Two nested blocks with a comment between them, of which both close tags bear the name
of the outer one. -/
theorem readFlat_marks_of_nested :
    ∃ nodes, readFlat "x{{#a}}{{! c }}{{^b}}{{{ d }}}{{/a}}{{/a}}".toList "t" = .ok nodes
      ∧ marksOf nodes
        = [.literal "x", .tag .blockOpen "a" ⟨1, 2⟩, .tag .invertedOpen "b" ⟨1, 16⟩,
            .tag .raw "d" ⟨1, 22⟩, .close (some ⟨.inverted, "b", ⟨1, 16⟩⟩),
            .close (some ⟨.normal, "a", ⟨1, 2⟩⟩)] := by
  have hok : (readFlat "x{{#a}}{{! c }}{{^b}}{{{ d }}}{{/a}}{{/a}}".toList "t").isOk = true := by
    decide +kernel
  cases hread : readFlat "x{{#a}}{{! c }}{{^b}}{{{ d }}}{{/a}}{{/a}}".toList "t" with
  | error e =>
      rw [hread] at hok
      cases hok
  | ok nodes =>
      refine ⟨nodes, rfl, ?_⟩
      rw [(readFlat_marks hread).2]
      decide +kernel

end Mustache
