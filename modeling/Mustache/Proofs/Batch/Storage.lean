import Mathlib.Data.List.DropRight
import Mustache.Batch.FileTree
import Mustache.Proofs.Path.Parts

/-!
What writing a file changes.

A path leads to the place that its parts spell, read as steps from the directory of the run
or from the root (`descend`). Writing a file adds directories where nothing was, on the way
to that place, and fills the place itself; all else stays (`FileTree.write_changes`). So a
file that was written is read again as it was written, and a file elsewhere is read as before.
-/
set_option autoImplicit false

namespace Mustache

/-! ## Places -/

/-- Where parts lead from a place. -/
def descend (place : Place) : List PathPart → Place
  | [] => place
  | .name chars :: rest => descend (place ++ [chars]) rest
  | .up :: rest => descend place.dropLast rest
  | .here :: rest => descend place rest
  | .root :: rest => descend [] rest

theorem descend_append (place : Place) (first rest : List PathPart) :
    descend place (first ++ rest) = descend (descend place first) rest := by
  induction first generalizing place with
  | nil => rfl
  | cons part first ih => cases part <;> exact ih _

theorem descend_names (place : Place) (names : List RawText) :
    descend place (names.map .name) = place ++ names := by
  induction names generalizing place with
  | nil => exact (List.append_nil place).symm
  | cons name names ih => rw [List.map_cons, descend, ih, List.append_assoc]; rfl

/-- The place that a path leads to from a directory. -/
def Path.place (here : Place) (p : Path) : Place := descend here p.parts

theorem FileTree.place_eq (t : FileTree) (p : Path) :
    p.place t.here = descend (t.start p) (innerParts (splitSlashes p.text)) := by
  rw [Path.place, FileTree.start]
  rcases p.parts_cases with ⟨habs, hparts⟩ | ⟨habs, hparts | hparts⟩ <;> rw [habs, hparts] <;> rfl

namespace FileTree

/-! ## Looking up -/

theorem lookup_map_replaced (entries : List (Place × FileItem)) (place q : Place)
    (item : FileItem) :
    (entries.map fun (p, old) => if p = place then (p, item) else (p, old)).lookup q
      = if q = place then (entries.lookup q).map fun _ => item else entries.lookup q := by
  induction entries with
  | nil => simp
  | cons entry entries ih =>
      obtain ⟨p, old⟩ := entry
      rw [List.map_cons]
      by_cases hq : q = p
      · subst hq
        by_cases hplace : q = place <;> simp [hplace]
      · have hne : (q == p) = false := beq_false_of_ne hq
        by_cases hplace : p = place
        · simp only [hplace, if_true, List.lookup_cons, ih]
          rw [← hplace, hne]
        · simp only [hplace, if_false, List.lookup_cons, hne, ih]

@[simp] theorem here_put (t : FileTree) (place : Place) (item : FileItem) :
    (t.put place item).here = t.here := by
  rw [put]
  split_ifs <;> rfl

/-- A place holds what was put into it, and the others what they held. -/
theorem lookup?_put (t : FileTree) {place : Place} (hplace : place ≠ []) (item : FileItem)
    (q : Place) : (t.put place item).lookup? q = if q = place then some item else t.lookup? q := by
  by_cases hq : q = []
  · rw [lookup?, lookup?, if_pos hq, if_pos hq, if_neg (hq ▸ Ne.symm hplace)]
  · rw [lookup?, lookup?, if_neg hq, if_neg hq, put]
    split_ifs with hsome hsame hsame
    · rw [lookup_map_replaced, if_pos hsame, hsame]
      obtain ⟨old, hold⟩ := Option.isSome_iff_exists.mp hsome
      rw [hold]
      rfl
    · rw [lookup_map_replaced, if_neg hsame]
    · rw [Option.not_isSome_iff_eq_none] at hsome
      simp [List.lookup_append, hsame, hsome]
    · have hne : (q == place) = false := beq_false_of_ne hsame
      simp [List.lookup_append, List.lookup_cons, hne]

/-! ## Following -/

theorem follow_cons_ok {t : FileTree} {place target : Place} {segment : RawText}
    {rest : List RawText} (h : t.follow place (segment :: rest) = .ok target) :
    t.lookup? place = some .directory := by
  rw [follow] at h
  split at h
  · cases h
  · cases h
  · assumption

/-- Segments lead where their parts lead. -/
theorem follow_eq_descend {t : FileTree} {place target : Place} {segments : List RawText}
    (h : t.follow place segments = .ok target) :
    target = descend place (innerParts segments) := by
  induction segments generalizing place with
  | nil =>
      cases h
      rfl
  | cons segment rest ih =>
      rw [follow, follow_cons_ok h] at h
      simp only at h
      -- A silent segment leads nowhere, a step up and a name change the place, and no segment
      -- behind the first stands for a root or a point.
      match hof : PathPart.ofSegment? segment with
      | none =>
          rw [hof] at h
          rw [innerParts, List.filterMap_cons_none hof]
          exact ih h
      | some .up =>
          rw [hof] at h
          rw [innerParts, List.filterMap_cons_some hof]
          exact ih h
      | some (.name chars) =>
          rw [hof] at h
          simp only at h
          split_ifs at h
          rw [innerParts, List.filterMap_cons_some hof, ih h]
          rw [show segment = chars from (PathPart.text_of_ofSegment? hof).symm]
          rfl
      | some .root | some .here =>
          rw [PathPart.ofSegment?] at hof
          split_ifs at hof <;> cases hof

theorem follow_append (t : FileTree) (place : Place) (first rest : List RawText) :
    t.follow place (first ++ rest) = (t.follow place first).bind fun q => t.follow q rest := by
  induction first generalizing place with
  | nil => rfl
  | cons segment first ih =>
      rw [List.cons_append, follow, follow]
      split
      · rfl
      · rfl
      · split
        · exact ih place
        · exact ih _
        · split_ifs
          · rfl
          · exact ih _

theorem follow_of_directories {t u : FileTree}
    (hkept : ∀ place, t.lookup? place = some .directory → u.lookup? place = some .directory)
    {place target : Place} {segments : List RawText}
    (h : t.follow place segments = .ok target) : u.follow place segments = .ok target := by
  induction segments generalizing place with
  | nil => exact h
  | cons segment rest ih =>
      have hplace := follow_cons_ok h
      rw [follow, hplace] at h
      rw [follow, hkept place hplace]
      -- Only directories are passed on the way, and these are kept.
      simp only at h ⊢
      split at h
      · exact ih h
      · exact ih h
      · split_ifs at h ⊢
        exact ih h

/-! ## Finding -/

/-- A path is found if it may be followed and leads to a place that holds something. -/
theorem find_eq_ok {t : FileTree} {p : Path} {place : Place} {item : FileItem} :
    t.find p = .ok (place, item) ↔ usable p = .ok ()
      ∧ t.follow (t.start p) (splitSlashes p.text) = .ok place ∧ t.lookup? place = some item := by
  rw [find]
  cases husable : usable p with
  | error fault => exact ⟨nofun, fun h => nomatch h.1⟩
  | ok done =>
      cases hfollow : t.follow (t.start p) (splitSlashes p.text) with
      | error fault => exact ⟨nofun, fun h => nomatch h.2.1⟩
      | ok target =>
          cases hlookup : t.lookup? target with
          | none =>
              refine ⟨fun h => ?_, fun ⟨_, htarget, hitem⟩ => ?_⟩
              · simp [hlookup, bind, Except.bind] at h
              · cases htarget
                rw [hlookup] at hitem
                cases hitem
          | some found =>
              simp only [bind, Except.bind, hlookup, Except.ok.injEq, Prod.mk.injEq, true_and]
              refine ⟨fun ⟨htarget, hitem⟩ => ⟨htarget, htarget ▸ hitem ▸ hlookup⟩, ?_⟩
              rintro ⟨rfl, hitem⟩
              rw [hlookup] at hitem
              exact ⟨rfl, Option.some.inj hitem⟩

theorem place_of_follow {t : FileTree} {p : Path} {place : Place}
    (h : t.follow (t.start p) (splitSlashes p.text) = .ok place) : place = p.place t.here :=
  (follow_eq_descend h).trans (t.place_eq p).symm

theorem read_eq_ok {t : FileTree} {p : Path} {content : List UInt8} :
    t.read p = .ok content ↔ usable p = .ok ()
      ∧ t.follow (t.start p) (splitSlashes p.text) = .ok (p.place t.here)
      ∧ t.lookup? (p.place t.here) = some (.file content) := by
  have hfind : t.read p = .ok content ↔ t.find p = .ok (p.place t.here, .file content) := by
    rw [read]
    constructor
    · intro h
      split at h
      · next place found hfound =>
          cases h
          have hplace := place_of_follow (find_eq_ok.mp hfound).2.1
          rw [hfound, hplace]
      · cases h
      · cases h
    · intro h
      rw [h]
  rw [hfind, find_eq_ok]

/-! ## Making directories -/

/-- Whether a tree has come from another by making directories on the way that parts
lead. -/
structure Grown (ps : List PathPart) (t u : FileTree) : Prop where
  here : u.here = t.here
  lookup : ∀ place, u.lookup? place = t.lookup? place
    ∨ (t.lookup? place = none ∧ u.lookup? place = some .directory
      ∧ ∃ qs, qs <+: ps ∧ place = descend t.here qs)

theorem Grown.refl (ps : List PathPart) (t : FileTree) : Grown ps t t :=
  ⟨rfl, fun _ => .inl rfl⟩

theorem Grown.mono {ps qs : List PathPart} {t u : FileTree} (h : Grown ps t u) (hps : ps <+: qs) :
    Grown qs t u := by
  refine ⟨h.here, fun place => ?_⟩
  rcases h.lookup place with hsame | ⟨hnone, hnew, way, hway, hplace⟩
  · exact .inl hsame
  · exact .inr ⟨hnone, hnew, way, hway.trans hps, hplace⟩

theorem Grown.trans {ps : List PathPart} {t u v : FileTree} (htu : Grown ps t u)
    (huv : Grown ps u v) : Grown ps t v := by
  refine ⟨huv.here.trans htu.here, fun place => ?_⟩
  rcases huv.lookup place with hsame | ⟨hnone, hnew, hway⟩
  · rw [hsame]
    exact htu.lookup place
  · rw [htu.here] at hway
    rcases htu.lookup place with hsame | ⟨-, hmade, -⟩
    · exact .inr ⟨hsame ▸ hnone, hnew, hway⟩
    · rw [hnone] at hmade
      cases hmade

/-- What is there stays. -/
theorem Grown.lookup? {ps : List PathPart} {t u : FileTree} (h : Grown ps t u) {place : Place}
    {item : FileItem} (hitem : t.lookup? place = some item) : u.lookup? place = some item := by
  rcases h.lookup place with hsame | ⟨hnone, -⟩
  · rw [hsame, hitem]
  · rw [hitem] at hnone
    cases hnone

/-- The directory and the name that segments end in, if the name is one. -/
theorem findParent_ok {t : FileTree} {start : Place} {segments : List RawText} {place : Place}
    {name chars : RawText} (h : t.findParent start segments = .ok (place, name))
    (hname : PathPart.ofSegment? name = some (.name chars)) :
    segments = segments.dropLast ++ [name]
      ∧ t.follow start (segments.dropLast ++ [[]]) = .ok place
      ∧ place ++ [name] = descend start (innerParts segments) := by
  have hfollow : t.follow start (segments.dropLast ++ [[]]) = .ok place
      ∧ segments.getLast?.getD [] = name := by
    rw [findParent] at h
    cases hfollow : t.follow start (segments.dropLast ++ [[]]) with
    | error fault =>
        rw [hfollow] at h
        cases h
    | ok target =>
        rw [hfollow] at h
        cases h
        exact ⟨rfl, rfl⟩
  -- There is a last segment, since an empty one is no name.
  have hsegments : segments = segments.dropLast ++ [name] := by
    cases hlast : segments.getLast? with
    | none =>
        rw [hlast, Option.getD_none] at hfollow
        rw [← hfollow.2] at hname
        cases hname
    | some last =>
        rw [hlast, Option.getD_some] at hfollow
        rw [← hfollow.2]
        exact (List.dropLast_append_getLast? last hlast).symm
  refine ⟨hsegments, hfollow.1, ?_⟩
  have hplace : place = descend start (innerParts segments.dropLast) := by
    have hdescend := follow_eq_descend hfollow.1
    rw [innerParts_append] at hdescend
    exact hdescend.trans (by rw [show innerParts [[]] = [] from rfl, List.append_nil])
  obtain rfl : chars = name := PathPart.text_of_ofSegment? hname
  have hlast : innerParts [chars] = [.name chars] := List.filterMap_cons_some hname
  conv_rhs => rw [hsegments]
  rw [innerParts_append, descend_append, ← hplace, hlast]
  rfl

theorem innerParts_rdropWhile_nil (segments : List RawText) :
    innerParts (segments.reverse.dropWhile (· = [])).reverse = innerParts segments := by
  have hsplit := List.rdropWhile_append_rtakeWhile (p := (· = [])) (l := segments)
  have hsilent : innerParts (segments.rtakeWhile (· = [])) = [] := by
    rw [innerParts, List.filterMap_eq_nil_iff]
    intro segment hsegment
    have hnil : segment = [] := by simpa using List.mem_rtakeWhile_imp hsegment
    rw [hnil]
    rfl
  calc innerParts (segments.reverse.dropWhile (· = [])).reverse
      = innerParts (segments.rdropWhile (· = [])) ++ innerParts (segments.rtakeWhile (· = [])) := by
        rw [hsilent, List.append_nil]
        rfl
    _ = innerParts segments := by rw [← innerParts_append, hsplit]

/-- A directory is made where nothing was. -/
theorem makeDirectory_ok {t u : FileTree} {p : Path} (h : t.makeDirectory p = .ok u) :
    p.place t.here ≠ [] ∧ t.lookup? (p.place t.here) = none
      ∧ u = t.put (p.place t.here) .directory := by
  rw [makeDirectory] at h
  cases husable : usable p with
  | error fault =>
      rw [husable] at h
      cases h
  | ok done =>
      rw [husable] at h
      simp only [bind, Except.bind] at h
      split at h
      · cases h
      · next found hparent =>
          obtain ⟨place, name⟩ := found
          simp only at h
          split at h
          · -- Slashes at the end were cut off, which does not change the place.
            next chars hname =>
              obtain ⟨-, -, hplace⟩ := findParent_ok hparent hname
              rw [innerParts_rdropWhile_nil, ← t.place_eq] at hplace
              rw [hplace] at h
              split_ifs at h with hlong hoccupied
              cases h
              refine ⟨?_, Option.not_isSome_iff_eq_none.mp hoccupied, rfl⟩
              rw [← hplace]
              exact List.append_ne_nil_of_right_ne_nil _ (List.cons_ne_nil _ _)
          · cases h

theorem makeDirectory_grown {t u : FileTree} {p : Path} (h : t.makeDirectory p = .ok u) :
    Grown p.parts t u := by
  obtain ⟨hplace, hnone, rfl⟩ := makeDirectory_ok h
  refine ⟨here_put t _ _, fun place => ?_⟩
  rw [lookup?_put t hplace]
  split_ifs with hsame
  · exact .inr ⟨hsame ▸ hnone, rfl, p.parts, List.prefix_rfl, hsame⟩
  · exact .inl rfl

/-- Directories are made on the way of their path alone, also when this goes wrong. -/
theorem makeDirectories_grown (t : FileTree) (fuel : Nat) (p : Path) :
    Grown p.parts t (t.makeDirectories fuel p).1 := by
  induction fuel generalizing t p with
  | zero => exact Grown.refl p.parts t
  | succ fuel ih =>
      rw [makeDirectories]
      split
      · exact Grown.refl p.parts t
      · split
        · next hmade => exact makeDirectory_grown hmade
        · split
          · exact Grown.refl p.parts t
          · -- The directories around are made first, which by induction grows the tree on the way
            -- to the parent; making this one is one step more.
            next parent hparent =>
              have hgrown := (ih t parent).mono (Path.parent_prefix hparent)
              split
              · next heq =>
                  rw [heq] at hgrown
                  exact hgrown
              · next heq =>
                  rw [heq] at hgrown
                  split
                  · next hmade => exact hgrown.trans (makeDirectory_grown hmade)
                  · exact hgrown
        · exact Grown.refl p.parts t

/-! ## Writing -/

/-- Behind a directory a name leads to its place in that directory. -/
theorem follow_name {t : FileTree} {start : Place} {init : List RawText} {place : Place}
    {name chars : RawText} (h : t.follow start (init ++ [[]]) = .ok place)
    (hname : PathPart.ofSegment? name = some (.name chars)) (hlong : isLongName name = false) :
    t.follow start (init ++ [name]) = .ok (place ++ [name]) := by
  rw [follow_append] at h ⊢
  cases hinit : t.follow start init with
  | error fault =>
      rw [hinit] at h
      cases h
  | ok target =>
      rw [hinit, Except.bind] at h
      have hdirectory := follow_cons_ok h
      rw [follow, hdirectory] at h
      cases h
      rw [Except.bind, follow, hdirectory]
      simp only [hname, hlong]
      rfl

/-- A file is written to the place of its path, in a directory that is there. -/
theorem writeFile_ok {t u : FileTree} {p : Path} {content : List UInt8}
    (h : t.writeFile p content = .ok u) :
    p.place t.here ≠ [] ∧ t.lookup? (p.place t.here) ≠ some .directory
      ∧ u = t.put (p.place t.here) (.file content) ∧ usable p = .ok ()
      ∧ t.follow (t.start p) (splitSlashes p.text) = .ok (p.place t.here) := by
  rw [writeFile] at h
  cases husable : usable p with
  | error fault =>
      rw [husable] at h
      cases h
  | ok done =>
      rw [husable] at h
      simp only [bind, Except.bind] at h
      split at h
      · cases h
      · next found hparent =>
          obtain ⟨place, name⟩ := found
          simp only at h
          split at h
          · next chars hname =>
              obtain ⟨hsegments, hfollow, hplace⟩ := findParent_ok hparent hname
              rw [innerParts_rdropWhile_nil, ← t.place_eq] at hplace
              rw [hplace] at h
              split_ifs at h with hshort hlong
              -- A file is only written where no slash was cut off, so the whole path leads to its
              -- place.
              have hwhole : ((splitSlashes p.text).reverse.dropWhile (· = [])).reverse
                  = splitSlashes p.text :=
                (List.rdropWhile_prefix (· = []) _).eq_of_length_le (Nat.not_lt.mp hshort)
              rw [hwhole] at hsegments hfollow
              have htarget := follow_name hfollow hname (Bool.eq_false_iff.mpr hlong)
              rw [← hsegments, hplace] at htarget
              refine ⟨?_, ?_, ?_, rfl, htarget⟩
              · rw [← hplace]
                exact List.append_ne_nil_of_right_ne_nil _ (List.cons_ne_nil _ _)
              · intro hdirectory
                rw [hdirectory] at h
                cases h
              · split at h
                · cases h
                · cases h
                  rfl
          · split at h <;> cases h

/-- Directories are made first; then the file is written, unless this went wrong. -/
theorem write_cases (t : FileTree) (p : Path) (content : List UInt8) :
    ((t.write p content).2 ≠ none ∧ Grown p.parts t (t.write p content).1)
      ∨ ((t.write p content).2 = none ∧ ∃ made, Grown p.parts t made
        ∧ made.writeFile p content = .ok (t.write p content).1) := by
  have hparent : (p.parent?.getD .empty).parts <+: p.parts := by
    cases h : p.parent? with
    | none => exact List.nil_prefix
    | some parent => exact Path.parent_prefix h
  have hgrown := (makeDirectories_grown t (p.text.length + 1) (p.parent?.getD .empty)).mono hparent
  rw [write]
  split
  · next heq =>
      rw [heq] at hgrown
      exact .inl ⟨nofun, hgrown⟩
  · next made heq =>
      rw [heq] at hgrown
      split
      · next hwritten => exact .inr ⟨rfl, made, hgrown, hwritten⟩
      · exact .inl ⟨nofun, hgrown⟩

/-- What a place holds after a file was written, or after this went wrong: what it held; a
directory on the way to the file, where nothing was; or the file. -/
theorem write_changes (t : FileTree) (p : Path) (content : List UInt8) (place : Place) :
    (t.write p content).1.lookup? place = t.lookup? place
      ∨ (t.lookup? place = none ∧ (t.write p content).1.lookup? place = some .directory
        ∧ ∃ qs, qs <+: p.parts ∧ place = descend t.here qs)
      ∨ (place = p.place t.here ∧ t.lookup? place ≠ some .directory
        ∧ (t.write p content).1.lookup? place = some (.file content)) := by
  rcases t.write_cases p content with ⟨-, hgrown⟩ | ⟨-, made, hgrown, hwritten⟩
  · rcases hgrown.lookup place with hsame | hmade
    · exact .inl hsame
    · exact .inr (.inl hmade)
  · -- The file is written into the tree as the directories left it.
    obtain ⟨hplace, hfile, heq, -, -⟩ := writeFile_ok hwritten
    rw [hgrown.here] at hplace hfile heq
    rw [heq, lookup?_put made hplace]
    split_ifs with hsame
    · refine .inr (.inr ⟨hsame, fun hdirectory => ?_, rfl⟩)
      exact hfile (hsame ▸ hgrown.lookup? hdirectory)
    · rcases hgrown.lookup place with hsame | hmade
      · exact .inl hsame
      · exact .inr (.inl hmade)

/-- Writing leaves a run in its directory. -/
@[simp] theorem here_write (t : FileTree) (p : Path) (content : List UInt8) :
    (t.write p content).1.here = t.here := by
  rcases t.write_cases p content with ⟨-, hgrown⟩ | ⟨-, made, hgrown, hwritten⟩
  · exact hgrown.here
  · obtain ⟨-, -, heq, -, -⟩ := writeFile_ok hwritten
    rw [heq, here_put, hgrown.here]

theorem start_write (t : FileTree) (p q : Path) (content : List UInt8) :
    (t.write p content).1.start q = t.start q := by
  rw [start, start, here_write]

/-- What is there stays, but for a file at the place that is written to. -/
theorem write_keeps (t : FileTree) (p : Path) (content : List UInt8) {place : Place}
    {item : FileItem} (hitem : t.lookup? place = some item)
    (h : place ≠ p.place t.here ∨ item = .directory) :
    (t.write p content).1.lookup? place = some item := by
  rcases t.write_changes p content place with hsame | ⟨hnone, -⟩ | ⟨hplace, hfile, -⟩
  · rw [hsame, hitem]
  · rw [hitem] at hnone
    cases hnone
  · rcases h with hne | rfl
    · exact absurd hplace hne
    · exact absurd hitem hfile

theorem read_of_write_elsewhere {t : FileTree} {p q : Path} (content : List UInt8)
    {held : List UInt8} (h : t.read q = .ok held) (hplace : q.place t.here ≠ p.place t.here) :
    (t.write p content).1.read q = .ok held := by
  obtain ⟨husable, hfollow, hlookup⟩ := read_eq_ok.mp h
  rw [read_eq_ok, here_write, start_write]
  refine ⟨husable, ?_, t.write_keeps p content hlookup (.inl hplace)⟩
  exact follow_of_directories
    (fun place hdirectory => t.write_keeps p content hdirectory (.inr rfl)) hfollow

theorem read_of_write {t : FileTree} {p : Path} {content : List UInt8}
    (h : (t.write p content).2 = none) : (t.write p content).1.read p = .ok content := by
  obtain ⟨made, -, hwritten⟩ : ∃ made, Grown p.parts t made
      ∧ made.writeFile p content = .ok (t.write p content).1 := by
    rcases t.write_cases p content with ⟨hfault, -⟩ | ⟨-, hmade⟩
    · exact absurd h hfault
    · exact hmade
  obtain ⟨hplace, hfile, heq, husable, hfollow⟩ := writeFile_ok hwritten
  rw [heq, read_eq_ok, here_put, start, here_put, ← start]
  refine ⟨husable, follow_of_directories (fun place hdirectory => ?_) hfollow, ?_⟩
  · rw [lookup?_put made hplace, if_neg, hdirectory]
    exact fun hsame => hfile (hsame ▸ hdirectory)
  · rw [lookup?_put made hplace, if_pos rfl]

end FileTree

end Mustache
