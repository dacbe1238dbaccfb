import Mathlib.Data.List.DropRight
import Mathlib.Data.List.Induction
import Mustache.Path.Layout
import Mustache.Proofs.Text.Utf8

/-!
What the parts of a path tell.

The parts of a path are where it starts and what its segments stand for. Paths are joined,
cut and compared as texts, but the parts of the result follow from the parts of the paths
that it is made of (`Path.parts_join`, `Path.parts_parent`, `Path.parts_relativeTo`). So
whatever is said of parts holds of each spelling of a path.
-/
set_option autoImplicit false

namespace Mustache

/-! ## Segments -/

theorem splitSlashes_eq_splitOn (s : RawText) : splitSlashes s = s.splitOn slash := by
  induction s with
  | nil => rfl
  | cons c s ih =>
      rw [splitSlashes, ih, List.splitOn, List.splitOn, List.splitOnP_cons_eq_if_modifyHead]
      by_cases hslash : c = slash
      · simp [hslash]
      · have hne := List.splitOnP_ne_nil (· == slash) s
        cases hsplit : List.splitOnP (· == slash) s with
        | nil => exact absurd hsplit hne
        | cons first rest => simp [hslash]

theorem joinSlashes_eq_intercalate (segments : List RawText) :
    joinSlashes segments = [slash].intercalate segments := by
  induction segments with
  | nil => rfl
  | cons first rest ih =>
      cases rest with
      | nil => simp [joinSlashes]
      | cons second rest =>
          rw [joinSlashes, ih, List.intercalate_cons_cons, List.append_assoc]
          · rfl
          · exact List.cons_ne_nil second rest

theorem splitSlashes_ne_nil (s : RawText) : splitSlashes s ≠ [] := by
  rw [splitSlashes_eq_splitOn]
  exact List.splitOnP_ne_nil _ s

/-- A text without slashes is one segment. -/
theorem splitSlashes_of_not_mem {s : RawText} (h : slash ∉ s) : splitSlashes s = [s] := by
  rw [splitSlashes_eq_splitOn]
  refine List.splitOnP_eq_singleton fun c hc => ?_
  simpa using fun hslash : c = slash => h (hslash ▸ hc)

/-- A slash stands between the segments before it and those behind it. -/
theorem splitSlashes_append_slash (s t : RawText) :
    splitSlashes (s ++ slash :: t) = splitSlashes s ++ splitSlashes t := by
  simp only [splitSlashes_eq_splitOn]
  exact List.splitOnP_append_cons s t rfl

/-- Segments without slashes are found again. -/
theorem splitSlashes_joinSlashes {segments : List RawText} (hne : segments ≠ [])
    (h : ∀ segment ∈ segments, slash ∉ segment) :
    splitSlashes (joinSlashes segments) = segments := by
  rw [splitSlashes_eq_splitOn, joinSlashes_eq_intercalate]
  exact List.splitOn_intercalate slash h hne

theorem slash_not_mem_segment {s segment : RawText} (h : segment ∈ splitSlashes s) :
    slash ∉ segment := by
  induction s generalizing segment with
  | nil => simp_all [splitSlashes]
  | cons c s ih =>
      rw [splitSlashes] at h
      split_ifs at h with hslash
      · rcases List.mem_cons.mp h with rfl | hrest
        · exact List.not_mem_nil
        · exact ih hrest
      · cases hsplit : splitSlashes s with
        | nil => exact absurd hsplit (splitSlashes_ne_nil s)
        | cons first rest =>
            rw [hsplit] at h ih
            rcases List.mem_cons.mp h with rfl | hrest
            · rw [List.mem_cons, not_or]
              exact ⟨Ne.symm hslash, ih List.mem_cons_self⟩
            · exact ih (List.mem_cons_of_mem first hrest)

theorem joinSlashes_concat_append (segments : List RawText) (last t : RawText) :
    joinSlashes (segments ++ [last]) ++ t = joinSlashes (segments ++ [last ++ t]) := by
  induction segments with
  | nil => rfl
  | cons first rest ih =>
      cases rest with
      | nil => simp [joinSlashes]
      | cons second rest =>
          simp only [List.cons_append, joinSlashes, List.append_assoc] at ih ⊢
          rw [ih]

/-- Text without slashes adds to the last segment. -/
theorem splitSlashes_append {s t last : RawText} {segments : List RawText}
    (hs : splitSlashes s = segments ++ [last]) (ht : slash ∉ t) :
    splitSlashes (s ++ t) = segments ++ [last ++ t] := by
  rw [← joinSlashes_splitSlashes s, hs, joinSlashes_concat_append]
  refine splitSlashes_joinSlashes (by simp) fun segment hsegment => ?_
  have hmem {segment : RawText} (h : segment ∈ segments ++ [last]) : slash ∉ segment :=
    slash_not_mem_segment (hs ▸ h)
  rcases List.mem_append.mp hsegment with hinit | hlast
  · exact hmem (List.mem_append_left _ hinit)
  · obtain rfl := List.mem_singleton.mp hlast
    rw [List.mem_append, not_or]
    exact ⟨hmem (List.mem_append_right _ List.mem_cons_self), ht⟩

/-! ## Segments of text -/

theorem slash_mem_encodeUtf8 {s : List Char} : slash ∈ Text.encodeUtf8 s ↔ '/' ∈ s :=
  Text.byte_mem_encodeUtf8 (a := '/') (by decide) s

theorem slash_mem_of_mem_lossy {t : RawText} (h : '/' ∈ t.lossy) : slash ∈ t :=
  Text.byte_mem_of_mem_decodeLossy (a := '/') (by decide) h

/-- Whether a raw text is the form of some characters. -/
def RawText.IsText (t : RawText) : Prop :=
  ∃ s, t = Text.encodeUtf8 s

/-- Raw texts that are text are the same if they are read as the same. -/
theorem RawText.IsText.eq_of_lossy {t u : RawText} (ht : t.IsText) (hu : u.IsText)
    (h : t.lossy = u.lossy) : t = u := by
  obtain ⟨s, rfl⟩ := ht
  obtain ⟨r, rfl⟩ := hu
  rw [RawText.lossy, RawText.lossy, Text.decodeLossy_encodeUtf8, Text.decodeLossy_encodeUtf8] at h
  rw [h]

/-- Text without slashes in front adds to the first segment. -/
theorem splitSlashes_prepend {t : RawText} (ht : slash ∉ t) {s first : RawText}
    {rest : List RawText} (hs : splitSlashes s = first :: rest) :
    splitSlashes (t ++ s) = (t ++ first) :: rest := by
  induction t with
  | nil => exact hs
  | cons b t ih =>
      rw [List.mem_cons, not_or] at ht
      rw [List.cons_append, splitSlashes, if_neg (Ne.symm ht.1), ih ht.2]
      rfl

/-- The segments of characters are characters. -/
theorem isText_of_mem_splitSlashes {t segment : RawText} (ht : t.IsText)
    (h : segment ∈ splitSlashes t) : segment.IsText := by
  obtain ⟨s, rfl⟩ := ht
  induction s generalizing segment with
  | nil =>
      obtain rfl := List.mem_singleton.mp h
      exact ⟨[], rfl⟩
  | cons c s ih =>
      rw [Text.encodeUtf8_cons] at h
      by_cases hslash : c = '/'
      · subst hslash
        rcases List.mem_cons.mp h with rfl | hrest
        · exact ⟨[], rfl⟩
        · exact ih hrest
      · obtain ⟨first, rest, hsplit⟩ :=
          List.exists_cons_of_ne_nil (splitSlashes_ne_nil (Text.encodeUtf8 s))
        -- No byte of another character is that of a slash, so the cut falls between characters.
        have hnone : slash ∉ String.utf8EncodeChar c :=
          mt (Text.byte_mem_encodeChar (a := '/') (by decide) c).mp hslash
        rw [splitSlashes_prepend hnone hsplit] at h
        rw [hsplit] at ih
        rcases List.mem_cons.mp h with rfl | hrest
        · obtain ⟨front, rfl⟩ := ih List.mem_cons_self
          exact ⟨c :: front, rfl⟩
        · exact ih (List.mem_cons_of_mem first hrest)

/-! ## Parts of segments -/

namespace PathPart

/-- A part that a segment behind the first may stand for. -/
def Inner (part : PathPart) : Prop :=
  slash ∉ part.text ∧ ofSegment? part.text = some part

instance : DecidablePred Inner :=
  fun part => inferInstanceAs (Decidable (slash ∉ part.text ∧ ofSegment? part.text = some part))

theorem text_of_ofSegment? {segment : RawText} {part : PathPart}
    (h : ofSegment? segment = some part) : part.text = segment := by
  rw [ofSegment?] at h
  split_ifs at h with hsilent hup
  · cases h
    exact hup.symm
  · cases h
    rfl

theorem inner_of_ofSegment? {segment : RawText} {part : PathPart} (hslash : slash ∉ segment)
    (h : ofSegment? segment = some part) : part.Inner := by
  rw [Inner, text_of_ofSegment? h]
  exact ⟨hslash, h⟩

theorem not_inner_root : ¬ root.Inner := fun h => h.1 List.mem_cons_self

theorem not_inner_here : ¬ here.Inner := fun h => nomatch h.2

end PathPart

/-- What segments stand for. -/
def innerParts (segments : List RawText) : List PathPart :=
  segments.filterMap PathPart.ofSegment?

@[simp] theorem innerParts_nil : innerParts [] = [] := rfl

@[simp] theorem innerParts_append (first rest : List RawText) :
    innerParts (first ++ rest) = innerParts first ++ innerParts rest :=
  List.filterMap_append

theorem inner_of_mem_innerParts {segments : List RawText} (h : ∀ s ∈ segments, slash ∉ s)
    {part : PathPart} (hpart : part ∈ innerParts segments) : part.Inner := by
  obtain ⟨segment, hsegment, hof⟩ := List.mem_filterMap.mp hpart
  exact PathPart.inner_of_ofSegment? (h segment hsegment) hof

theorem innerParts_dropWhile (segments : List RawText) :
    innerParts (segments.dropWhile isSilent) = innerParts segments := by
  induction segments with
  | nil => rfl
  | cons first rest ih =>
      cases hsilent : isSilent first with
      | false => rw [List.dropWhile_cons_of_neg (by simp [hsilent])]
      | true =>
          rw [List.dropWhile_cons_of_pos hsilent, ih, innerParts, innerParts,
            List.filterMap_cons_none (Option.isNone_iff_eq_none.mp hsilent)]

theorem innerParts_dropSilentEnd (segments : List RawText) :
    innerParts (Path.dropSilentEnd segments) = innerParts segments := by
  have hreverse (list : List RawText) : innerParts list.reverse = (innerParts list).reverse :=
    List.filterMap_reverse
  rw [Path.dropSilentEnd, hreverse, innerParts_dropWhile, hreverse, List.reverse_reverse]

theorem dropSilentEnd_prefix_self (segments : List RawText) :
    Path.dropSilentEnd segments <+: segments :=
  List.rdropWhile_prefix isSilent segments

/-- The segment that is left at the end says something. -/
theorem exists_of_dropSilentEnd {segments : List RawText}
    (h : Path.dropSilentEnd segments ≠ []) : ∃ init last part,
      Path.dropSilentEnd segments = init ++ [last] ∧ PathPart.ofSegment? last = some part := by
  have hlast : isSilent ((Path.dropSilentEnd segments).getLast h) = false :=
    Bool.eq_false_iff.mpr (List.rdropWhile_last_not isSilent segments h)
  obtain ⟨part, hpart⟩ := Option.isSome_iff_exists.mp (Option.isNone_eq_false_iff.mp hlast)
  exact ⟨_, _, part, (List.dropLast_append_getLast h).symm, hpart⟩

theorem head_dropWhile_isSilent (segments : List RawText) {first : RawText}
    (h : first ∈ (segments.dropWhile isSilent).head?) : isSilent first = false := by
  have hnot := List.head?_dropWhile_not isSilent segments
  rw [Option.mem_def.mp h] at hnot
  exact hnot

/-- Behind parts come the parts that are left. -/
theorem innerParts_dropParts (count : Nat) (segments : List RawText) :
    innerParts (Path.dropParts count segments) = (innerParts segments).drop count := by
  induction count generalizing segments with
  | zero => rfl
  | succ count ih =>
      rw [Path.dropParts, ih, ← innerParts_dropWhile segments]
      cases hlist : segments.dropWhile isSilent with
      | nil => simp
      | cons first rest =>
          have hfirst : isSilent first = false :=
            head_dropWhile_isSilent segments (by rw [hlist]; rfl)
          obtain ⟨part, hpart⟩ :=
            Option.isSome_iff_exists.mp (Option.isNone_eq_false_iff.mp hfirst)
          rw [innerParts, innerParts, List.filterMap_cons_some hpart]
          rfl

theorem mem_of_mem_dropParts {count : Nat} {segments : List RawText} {segment : RawText}
    (h : segment ∈ Path.dropParts count segments) : segment ∈ segments := by
  induction count generalizing segments with
  | zero => exact h
  | succ count ih =>
      exact (List.dropWhile_sublist isSilent).mem ((List.drop_sublist 1 _).mem (ih h))

/-! ## First parts -/

/-- The part that the first segment of a path stands for. -/
def firstPart (first : RawText) : PathPart :=
  if first = [] then .root
  else if first = [point] then .here
  else if first = [point, point] then .up
  else .name first

theorem firstPart_eq_root {first : RawText} : firstPart first = .root ↔ first = [] := by
  rw [firstPart]
  split_ifs <;> simp_all

/-- The first segment stands for what it would stand for behind another, if that is
anything. -/
theorem ofSegment?_eq_firstPart {first : RawText} (hnil : first ≠ []) (hhere : first ≠ [point]) :
    PathPart.ofSegment? first = some (firstPart first) := by
  simp only [PathPart.ofSegment?, firstPart, hnil, hhere, or_self, if_false]
  split_ifs <;> rfl

/-- Whether parts spell a path: behind the first part come inner ones. -/
def Spelled : List PathPart → Prop
  | [] => True
  | first :: rest => (first = .root ∨ first = .here ∨ first.Inner) ∧ ∀ part ∈ rest, part.Inner

theorem Spelled.of_prefix {ps qs : List PathPart} (hps : Spelled ps) (h : qs <+: ps) :
    Spelled qs := by
  obtain ⟨rest, rfl⟩ := h
  cases qs with
  | nil => trivial
  | cons first qs => exact ⟨hps.1, fun part hpart => hps.2 part (List.mem_append_left rest hpart)⟩

/-! ## Paths -/

namespace Path

/-- The parts of a path are the part of its first segment and those of the others. -/
theorem parts_of_split {p : Path} {first : RawText} {rest : List RawText}
    (hsplit : splitSlashes p.text = first :: rest) (h : p.text ≠ []) :
    p.parts = firstPart first :: innerParts rest := by
  match first, rest with
  | [], [] =>
      rw [← joinSlashes_splitSlashes p.text, hsplit] at h
      exact absurd rfl h
  | [], second :: rest =>
      rw [parts, hsplit]
      rfl
  | c :: first, rest =>
      rw [parts, hsplit]
      by_cases hhere : c :: first = [point]
      · simp only [hhere, if_true]
        rfl
      · simp only [hhere, if_false]
        exact List.filterMap_cons_some (ofSegment?_eq_firstPart (List.cons_ne_nil c first) hhere)

theorem parts_eq_nil {p : Path} : p.parts = [] ↔ p.text = [] := by
  constructor
  · intro h
    by_contra hne
    obtain ⟨first, rest, hsplit⟩ := List.exists_cons_of_ne_nil (splitSlashes_ne_nil p.text)
    rw [parts_of_split hsplit hne] at h
    cases h
  · intro h
    rw [parts, h]
    rfl

theorem inner_of_mem {s : RawText} {part : PathPart}
    (h : part ∈ innerParts (splitSlashes s)) : part.Inner :=
  inner_of_mem_innerParts (fun _ => slash_not_mem_segment) h

/-- What stands before the inner parts of a path: the root if the path is absolute, and the
directory itself or nothing otherwise. -/
theorem parts_cases (p : Path) :
    (p.isAbsolute = true ∧ p.parts = .root :: innerParts (splitSlashes p.text))
      ∨ (p.isAbsolute = false ∧ (p.parts = .here :: innerParts (splitSlashes p.text)
        ∨ p.parts = innerParts (splitSlashes p.text))) := by
  cases htext : p.text with
  | nil => exact .inr ⟨by simp [isAbsolute, htext], .inr (parts_eq_nil.mpr htext)⟩
  | cons c s =>
      rw [← htext]
      have hne : p.text ≠ [] := htext ▸ List.cons_ne_nil c s
      by_cases hslash : c = slash
      · have hsplit : splitSlashes p.text = [] :: splitSlashes s := by
          rw [htext, splitSlashes, if_pos hslash]
        refine .inl ⟨by simp [isAbsolute, htext, hslash], ?_⟩
        rw [parts_of_split hsplit hne, hsplit]
        rfl
      · -- A first segment that is not empty is a point or a part like all others.
        refine .inr ⟨by simp [isAbsolute, htext, hslash], ?_⟩
        obtain ⟨first, rest, hsplit, hnil⟩ :
            ∃ first rest, splitSlashes p.text = first :: rest ∧ first ≠ [] := by
          rw [htext, splitSlashes, if_neg hslash]
          cases splitSlashes s with
          | nil => exact ⟨[c], [], rfl, List.cons_ne_nil c []⟩
          | cons first rest => exact ⟨c :: first, rest, rfl, List.cons_ne_nil c first⟩
        rw [parts_of_split hsplit hne, hsplit]
        by_cases hhere : first = [point]
        · rw [hhere]
          exact .inl rfl
        · exact .inr (List.filterMap_cons_some (ofSegment?_eq_firstPart hnil hhere)).symm

theorem isAbsolute_iff {p : Path} : p.isAbsolute = true ↔ p.parts.head? = some .root := by
  rcases p.parts_cases with ⟨habs, hparts⟩ | ⟨habs, hparts | hparts⟩
  · simp [habs, hparts]
  · simp [habs, hparts]
  · rw [habs, hparts]
    refine ⟨nofun, fun hhead => ?_⟩
    exact absurd (inner_of_mem (List.mem_of_head? hhead)) PathPart.not_inner_root

theorem parts_spelled (p : Path) : Spelled p.parts := by
  rcases p.parts_cases with ⟨-, hparts⟩ | ⟨-, hparts | hparts⟩
  · rw [hparts]
    exact ⟨.inl rfl, fun _ => inner_of_mem⟩
  · rw [hparts]
    exact ⟨.inr (.inl rfl), fun _ => inner_of_mem⟩
  · rw [hparts]
    have hinner : ∀ part ∈ innerParts (splitSlashes p.text), part.Inner := fun _ => inner_of_mem
    cases hlist : innerParts (splitSlashes p.text) with
    | nil => trivial
    | cons first rest =>
        rw [hlist] at hinner
        exact ⟨.inr (.inr (hinner first List.mem_cons_self)),
          fun part hpart => hinner part (List.mem_cons_of_mem first hpart)⟩

theorem inner_of_mem_tail {p : Path} {part : PathPart} (h : part ∈ p.parts.tail) :
    part.Inner := by
  have hspelled := p.parts_spelled
  cases hparts : p.parts with
  | nil =>
      rw [hparts] at h
      exact absurd h List.not_mem_nil
  | cons first rest =>
      rw [hparts] at h hspelled
      exact hspelled.2 part h

theorem isAbsolute_of_root_mem {p : Path} (h : .root ∈ p.parts) : p.isAbsolute = true := by
  rw [isAbsolute_iff]
  cases hparts : p.parts with
  | nil =>
      rw [hparts] at h
      exact absurd h List.not_mem_nil
  | cons first rest =>
      rw [hparts] at h
      rcases List.mem_cons.mp h with rfl | hrest
      · rfl
      · refine absurd (inner_of_mem_tail (p := p) ?_) PathPart.not_inner_root
        rw [hparts]
        exact hrest

theorem parts_of_inner {part : PathPart} (h : part.Inner) :
    (⟨part.text⟩ : Path).parts = [part] := by
  have hsplit : splitSlashes part.text = [part.text] := splitSlashes_of_not_mem h.1
  have hof : innerParts [part.text] = [part] := List.filterMap_cons_some h.2
  have hnil : part.text ≠ [] := fun hnil => by
    rw [hnil] at hof
    cases hof
  have hhere : part.text ≠ [point] := fun hhere => by
    rw [hhere] at hof
    cases hof
  have hfirst := ofSegment?_eq_firstPart hnil hhere
  rw [h.2] at hfirst
  rw [parts_of_split (p := ⟨part.text⟩) hsplit hnil, ← Option.some.inj hfirst]
  rfl

end Path

/-! ## Joining -/

def joinParts : List PathPart → List PathPart → List PathPart
  | _, .root :: rest => .root :: rest
  | [], second => second
  | part :: first, .here :: rest => part :: first ++ rest
  | part :: first, second => part :: first ++ second

theorem joinParts_nil (second : List PathPart) : joinParts [] second = second := by
  rcases second with - | ⟨_ | _ | _ | _, rest⟩ <;> rfl

theorem joinParts_here {first : List PathPart} (h : first ≠ []) (rest : List PathPart) :
    joinParts first (.here :: rest) = first ++ rest := by
  cases first with
  | nil => exact absurd rfl h
  | cons part first => rfl

theorem joinParts_root (first rest : List PathPart) :
    joinParts first (.root :: rest) = .root :: rest := by
  cases first <;> rfl

/-- Inner parts are added to those before them. -/
theorem joinParts_of_inner (first : List PathPart) {second : List PathPart}
    (h : ∀ part ∈ second, part.Inner) : joinParts first second = first ++ second := by
  cases first with
  | nil => exact joinParts_nil second
  | cons part first =>
      cases second with
      | nil => simp [joinParts]
      | cons second rest =>
          cases second with
          | root => exact absurd (h _ List.mem_cons_self) PathPart.not_inner_root
          | here => exact absurd (h _ List.mem_cons_self) PathPart.not_inner_here
          | up => rfl
          | name bytes => rfl

/-- Inner parts may be added before paths are joined or afterwards. -/
theorem joinParts_append (first second : List PathPart) {more : List PathPart}
    (h : ∀ part ∈ more, part.Inner) :
    joinParts first (second ++ more) = joinParts first second ++ more := by
  cases second with
  | nil =>
      have hnone : joinParts first [] = first := by cases first <;> simp [joinParts]
      rw [List.nil_append, joinParts_of_inner first h, hnone]
  | cons part second =>
      cases first with
      | nil => rw [joinParts_nil, joinParts_nil]
      | cons head first => cases part <;> simp [joinParts]

namespace Path

theorem parts_append_slash (s t : RawText) :
    (⟨s ++ slash :: t⟩ : Path).parts
      = (if s = [] then [.root] else (⟨s⟩ : Path).parts) ++ innerParts (splitSlashes t) := by
  have hne : (⟨s ++ slash :: t⟩ : Path).text ≠ [] := by simp
  by_cases hs : s = []
  · have hsplit : splitSlashes ((⟨s ++ slash :: t⟩ : Path).text) = [] :: splitSlashes t := by
      rw [hs]
      exact splitSlashes_append_slash [] t
    rw [parts_of_split hsplit hne, if_pos hs]
    rfl
  · obtain ⟨first, rest, hfirst⟩ := List.exists_cons_of_ne_nil (splitSlashes_ne_nil s)
    have hsplit : splitSlashes ((⟨s ++ slash :: t⟩ : Path).text)
        = first :: (rest ++ splitSlashes t) := by
      rw [splitSlashes_append_slash, hfirst, List.cons_append]
    rw [parts_of_split hsplit hne, if_neg hs, parts_of_split (p := ⟨s⟩) hfirst hs,
      innerParts_append, List.cons_append]

/-- A path that is not absolute adds its inner parts to a path that says something. -/
theorem parts_join_of_ne_nil {p q : Path} (hq : q.isAbsolute = false) (hp : p.text ≠ []) :
    (p.join q).parts = p.parts ++ innerParts (splitSlashes q.text) := by
  rw [join, hq]
  simp only [Bool.false_eq_true, if_false, hp, false_or]
  split_ifs with hlast
  · obtain ⟨s, hs⟩ := List.getLast?_eq_some_iff.mp hlast
    have hparts : p.parts = if s = [] then [.root] else (⟨s⟩ : Path).parts := by
      have h := parts_append_slash s []
      rw [← hs] at h
      exact h.trans (List.append_nil _)
    rw [hs, List.append_assoc, List.singleton_append, parts_append_slash, hparts]
  · rw [parts_append_slash, if_neg hp]

theorem parts_join (p q : Path) : (p.join q).parts = joinParts p.parts q.parts := by
  rcases q.parts_cases with ⟨habs, hparts⟩ | ⟨habs, hparts⟩
  · rw [join, if_pos habs, hparts, joinParts_root]
  · by_cases hp : p.text = []
    · have hjoin : p.join q = q := by simp [join, habs, hp]
      rw [hjoin, parts_eq_nil.mpr hp, joinParts_nil]
    · rw [parts_join_of_ne_nil habs hp]
      rcases hparts with hparts | hparts
      · rw [hparts, joinParts_here (mt parts_eq_nil.mp hp)]
      · rw [hparts, joinParts_of_inner _ fun _ => inner_of_mem]

/-- A path behind another starts at the root if one of the two does. -/
theorem isAbsolute_join (p q : Path) :
    (p.join q).isAbsolute = (q.isAbsolute || p.isAbsolute) := by
  rw [join]
  cases hq : q.isAbsolute with
  | true => rw [if_pos rfl, hq, Bool.true_or]
  | false =>
      rw [if_neg Bool.false_ne_true, Bool.false_or]
      cases hp : p.text with
      | nil => simp_all [isAbsolute]
      | cons c s => split_ifs <;> simp [isAbsolute, hp]

theorem parts_ofParts {ps : List PathPart} (h : Spelled ps) : (ofParts ps).parts = ps := by
  induction ps using List.reverseRec with
  | nil => rfl
  | append_singleton ps part ih =>
      have hprefix := ih (h.of_prefix (List.prefix_append ps [part]))
      have hconcat : ofParts (ps ++ [part]) = (ofParts ps).join ⟨part.text⟩ := by
        rw [ofParts, List.foldl_append]
        rfl
      rw [hconcat, parts_join, hprefix]
      cases ps with
      | nil =>
          rw [joinParts_nil]
          rcases h.1 with rfl | rfl | hinner
          · rfl
          · rfl
          · exact parts_of_inner hinner
      | cons first rest =>
          have hinner : part.Inner := h.2 part (List.mem_append_right rest List.mem_cons_self)
          rw [parts_of_inner hinner, joinParts_of_inner]
          simpa using hinner

/-! ## Parents -/

/-- A first segment with some of the segments behind it is split into them again. -/
theorem splitSlashes_kept {p : Path} {first : RawText} {rest kept : List RawText}
    (hsplit : splitSlashes p.text = first :: rest) (hkept : ∀ s ∈ kept, s ∈ rest) :
    splitSlashes (joinSlashes (first :: kept)) = first :: kept := by
  refine splitSlashes_joinSlashes (List.cons_ne_nil first kept) fun segment hsegment => ?_
  refine slash_not_mem_segment (s := p.text) ?_
  rw [hsplit]
  rcases List.mem_cons.mp hsegment with rfl | hmem
  · exact List.mem_cons_self
  · exact List.mem_cons_of_mem first (hkept segment hmem)

/-- The parent of a path whose first segment alone says something. -/
theorem parent?_of_first {p : Path} {first : RawText} {rest : List RawText}
    (hsplit : splitSlashes p.text = first :: rest) (h : dropSilentEnd rest = []) :
    p.parent? = if first = [] then none else some empty := by
  simp only [parent?, hsplit, h]

/-- The parent of a path with a last segment that says something. -/
theorem parent?_of_last {p : Path} {first last : RawText} {rest init : List RawText}
    (hsplit : splitSlashes p.text = first :: rest) (h : dropSilentEnd rest = init ++ [last]) :
    p.parent? = some (if first = [] ∧ dropSilentEnd init = [] then ⟨[slash]⟩
      else ⟨joinSlashes (first :: dropSilentEnd init)⟩) := by
  rw [parent?, hsplit]
  simp only [h]
  split
  · next heq => simp at heq
  · rw [List.dropLast_concat]
    split
    · next hinit => simp [hinit]
    · next hnot => rw [if_neg fun hboth => hnot hboth.1 hboth.2]

/-- A path has a parent unless it is the root or says nothing; the parent has its parts but
the last. -/
theorem parts_parent (p : Path) :
    (p.parent? = none ∧ (p.parts = [] ∨ p.parts = [.root]))
      ∨ ∃ directory, p.parent? = some directory ∧ directory.parts = p.parts.dropLast := by
  by_cases htext : p.text = []
  · refine .inl ⟨?_, .inl (parts_eq_nil.mpr htext)⟩
    rw [parent?, htext]
    rfl
  obtain ⟨first, rest, hsplit⟩ := List.exists_cons_of_ne_nil (splitSlashes_ne_nil p.text)
  have hparts := parts_of_split hsplit htext
  have hinner := innerParts_dropSilentEnd rest
  -- The parent ends before the last segment that says something. If there is none behind the
  -- first, the path is that first part alone.
  by_cases hnone : dropSilentEnd rest = []
  · rw [hnone] at hinner
    rw [parent?_of_first hsplit hnone, hparts, ← hinner]
    by_cases hfirst : first = []
    · exact .inl ⟨if_pos hfirst, .inr (by rw [firstPart_eq_root.mpr hfirst]; rfl)⟩
    · exact .inr ⟨empty, if_neg hfirst, rfl⟩
  · obtain ⟨init, last, part, hend, hlast⟩ := exists_of_dropSilentEnd hnone
    have hdrop : p.parts.dropLast = firstPart first :: innerParts (dropSilentEnd init) := by
      have hrest : innerParts rest = innerParts (dropSilentEnd init) ++ [part] := by
        rw [← hinner, hend, innerParts_append, innerParts_dropSilentEnd]
        simp [innerParts, hlast]
      rw [hparts, hrest, ← List.cons_append, List.dropLast_concat]
    refine .inr ⟨_, parent?_of_last hsplit hend, ?_⟩
    rw [hdrop]
    split_ifs with hroot
    · rw [hroot.1, hroot.2]
      rfl
    · have hkept : splitSlashes (joinSlashes (first :: dropSilentEnd init))
          = first :: dropSilentEnd init :=
        splitSlashes_kept hsplit fun s hs =>
          (dropSilentEnd_prefix_self rest).mem
            (hend ▸ List.mem_append_left _ ((dropSilentEnd_prefix_self init).mem hs))
      refine parts_of_split (p := ⟨_⟩) hkept fun hnil => hroot ?_
      rw [show joinSlashes (first :: dropSilentEnd init) = [] from hnil] at hkept
      obtain ⟨hfirst, hinit⟩ := List.cons.inj hkept
      exact ⟨hfirst.symm, hinit.symm⟩

theorem parts_of_parent? {p directory : Path} (h : p.parent? = some directory) :
    directory.parts = p.parts.dropLast := by
  rcases p.parts_parent with ⟨hnone, -⟩ | ⟨parent, hsome, hparts⟩
  · rw [hnone] at h
    cases h
  · rw [hsome] at h
    cases h
    exact hparts

theorem parent_prefix {p directory : Path} (h : p.parent? = some directory) :
    directory.parts <+: p.parts := by
  rw [parts_of_parent? h]
  exact List.dropLast_prefix _

theorem dropLast_of_parent?_none {p : Path} (h : p.parts = [] ∨ p.parts = [.root]) :
    p.parts.dropLast = [] := by
  rcases h with h | h <;> rw [h] <;> rfl

/-! ## Relative paths -/

/-- What a path adds to another that has its first segment. -/
theorem relativeTo?_of_split {p base : Path} (h : base.parts <+: p.parts) {first : RawText}
    {rest : List RawText} (hsplit : splitSlashes p.text = first :: rest) {count : Nat}
    (hcount : base.parts.length = count + 1) :
    p.relativeTo? base
      = some ⟨joinSlashes (dropSilentEnd ((dropParts count rest).dropWhile isSilent))⟩ := by
  rw [relativeTo?, List.isPrefixOf_iff_prefix.mpr h, hcount, hsplit]
  rfl

/-- Segments that are kept from the first that says something have its part first. -/
theorem parts_joinSlashes {segments : List RawText} (hslash : ∀ s ∈ segments, slash ∉ s)
    (hhead : ∀ s ∈ segments.head?, isSilent s = false) :
    (⟨joinSlashes segments⟩ : Path).parts = innerParts segments := by
  cases segments with
  | nil => rfl
  | cons first rest =>
      have hsplit : splitSlashes (joinSlashes (first :: rest)) = first :: rest :=
        splitSlashes_joinSlashes (List.cons_ne_nil first rest) hslash
      have hsome := hhead first rfl
      have hnil : first ≠ [] := by
        rintro rfl
        cases hsome
      have hhere : first ≠ [point] := by
        rintro rfl
        cases hsome
      have htext : joinSlashes (first :: rest) ≠ [] := fun htext => by
        rw [htext] at hsplit
        exact hnil (List.cons.inj hsplit).1.symm
      rw [parts_of_split (p := ⟨_⟩) hsplit htext]
      exact (List.filterMap_cons_some (ofSegment?_eq_firstPart hnil hhere)).symm

theorem parts_relativeTo {p base : Path} (h : base.parts <+: p.parts) :
    ∃ rest, p.relativeTo? base = some rest
      ∧ rest.parts = p.parts.drop base.parts.length := by
  obtain ⟨first, segments, hsplit⟩ := List.exists_cons_of_ne_nil (splitSlashes_ne_nil p.text)
  cases hcount : base.parts.length with
  | zero =>
      refine ⟨p, ?_, rfl⟩
      rw [relativeTo?, List.isPrefixOf_iff_prefix.mpr h, hcount]
      rfl
  | succ count =>
      have htext : p.text ≠ [] := fun htext => by
        have hlength := h.length_le
        rw [parts_eq_nil.mpr htext, hcount] at hlength
        exact absurd hlength (Nat.not_succ_le_zero count)
      refine ⟨_, relativeTo?_of_split h hsplit hcount, ?_⟩
      rw [parts_joinSlashes, innerParts_dropSilentEnd, innerParts_dropWhile,
        innerParts_dropParts, parts_of_split hsplit htext, List.drop_succ_cons]
      · -- What is left are segments of the path, so none has a slash, and the first is not silent;
        -- they spell a relative path.
        intro s hs
        have hmem := (List.dropWhile_sublist isSilent).mem ((dropSilentEnd_prefix_self _).mem hs)
        refine slash_not_mem_segment (s := p.text) ?_
        rw [hsplit]
        exact List.mem_cons_of_mem first (mem_of_mem_dropParts hmem)
      · intro s hs
        obtain ⟨dropped, hdropped⟩ :=
          dropSilentEnd_prefix_self ((dropParts count segments).dropWhile isSilent)
        refine head_dropWhile_isSilent (dropParts count segments) ?_
        rw [← hdropped, List.head?_append, Option.mem_def.mp hs]
        rfl

end Path

end Mustache
