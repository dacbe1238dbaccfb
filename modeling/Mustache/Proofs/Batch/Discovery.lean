import Mathlib.Data.List.Sort
import Mustache.Proofs.Batch.Order
import Mustache.Proofs.Batch.Storage

/-!
Whether a search depends on how its inputs are listed.

A search finds the templates of its inputs (`IsTemplate`), one of each that have the same
parts, in the order of their parts (`Finds`). A list in strict order is told by its members, so
what is found is told by the templates of the inputs, but for the spelling (`Finds.parts_eq`).
It remains to see that inputs which are named already add no templates
(`exists_template_of_named`), and that it does not matter in which order a directory is walked.
-/
set_option autoImplicit false

namespace Mustache

/-! ## Templates of inputs -/

/-- Whether a path is a template of inputs, by what is seen at paths: an input that is a file,
or a file below an input that is a directory, if it has the extension. -/
inductive IsTemplate (seen : Path → Exploration) (extension : List Char) (inputs : List Path) :
    Path → Prop
  | file {input : Path} : input ∈ inputs → seen input = .file →
      IsTemplate seen extension inputs input
  | below {directory : Path} {below : List (List RawText)} {names : List RawText} :
      directory ∈ inputs → seen directory = .directory below → names ∈ below →
      (directory.below names).extension? = some (Text.encodeUtf8 extension) →
      IsTemplate seen extension inputs (directory.below names)

/-- Whether a list holds the templates of inputs: in strict order, nothing else, and all of
them but for the spelling. -/
structure Finds (seen : Path → Exploration) (extension : List Char) (inputs found : List Path) :
    Prop where
  increasing : found.Pairwise Path.Before
  sound : ∀ p ∈ found, IsTemplate seen extension inputs p
  complete : ∀ p, IsTemplate seen extension inputs p → ∃ q ∈ found, q.same p = true

section

variable {seen : Path → Exploration} {extension : List Char} {inputs : List Path}

theorem mem_candidates_iff {p : Path} :
    p ∈ (inputs.map fun input => (input, seen input)).flatMap
        (fun (input, e) => candidates extension input e)
      ↔ IsTemplate seen extension inputs p := by
  simp only [List.mem_flatMap, List.mem_map]
  constructor
  · rintro ⟨_, ⟨input, hinput, rfl⟩, hp⟩
    simp only [candidates] at hp
    split at hp
    · cases hp
    · next hseen => exact List.mem_singleton.mp hp ▸ .file hinput hseen
    · next below hseen =>
        obtain ⟨hbelow, hextension⟩ := List.mem_filter.mp hp
        obtain ⟨names, hnames, rfl⟩ := List.mem_map.mp hbelow
        exact .below hinput hseen hnames (beq_iff_eq.mp hextension)
  · rintro (⟨hinput, hseen⟩ | ⟨hdirectory, hseen, hnames, hextension⟩)
    · exact ⟨_, ⟨_, hinput, rfl⟩, by simp [candidates, hseen]⟩
    · refine ⟨_, ⟨_, hdirectory, rfl⟩, ?_⟩
      simp only [candidates, hseen, List.mem_filter, beq_iff_eq]
      exact ⟨List.mem_map_of_mem hnames, hextension⟩

/-- Of each path that was there one with its parts is left. -/
theorem exists_same_of_mem_dropRepeated {paths : List Path} {p : Path} (h : p ∈ paths) :
    ∃ q ∈ dropRepeated paths, q.same p = true := by
  induction paths with
  | nil => exact absurd h List.not_mem_nil
  | cons first rest ih =>
      have hhead : first ∈ dropRepeated (first :: rest) := by
        rw [dropRepeated]
        split
        · exact List.mem_cons_self
        · split_ifs <;> exact List.mem_cons_self
      rcases List.mem_cons.mp h with rfl | hrest
      · exact ⟨p, hhead, Path.same_iff.mpr rfl⟩
      · obtain ⟨q, hq, hsame⟩ := ih hrest
        -- What is kept of the rest stays behind the first path, or was like the first and gave way
        -- to it.
        have hsplit : q ∈ dropRepeated (first :: rest) ∨ first.parts = q.parts := by
          rw [dropRepeated]
          split
          · next heq => rw [heq] at hq; exact absurd hq List.not_mem_nil
          · next head more heq =>
              rw [heq] at hq
              split_ifs with hfirst
              · rcases List.mem_cons.mp hq with rfl | hmore
                · exact .inr (Path.same_iff.mp hfirst)
                · exact .inl (List.mem_cons_of_mem first hmore)
              · exact .inl (List.mem_cons_of_mem first hq)
        rcases hsplit with hmem | hparts
        · exact ⟨q, hmem, hsame⟩
        · exact ⟨first, hhead, Path.same_iff.mpr (hparts.trans (Path.same_iff.mp hsame))⟩

theorem finds_templatesOf (seen : Path → Exploration) (extension : List Char)
    (inputs : List Path) : Finds seen extension inputs
      (templatesOf extension (inputs.map fun input => (input, seen input))) where
  increasing := templatesOf_increasing _ _
  sound _ hp :=
    mem_candidates_iff.mp (List.mem_mergeSort.mp ((dropRepeated_sublist _).mem hp))
  complete _ hp :=
    exists_same_of_mem_dropRepeated (List.mem_mergeSort.mpr (mem_candidates_iff.mpr hp))

/-- Two lists of templates are the same but for the spelling, if the templates are. -/
theorem Finds.parts_eq {seen' : Path → Exploration} {inputs' found found' : List Path}
    (h : Finds seen extension inputs found) (h' : Finds seen' extension inputs' found')
    (hsub : ∀ p, IsTemplate seen extension inputs p → IsTemplate seen' extension inputs' p)
    (hback : ∀ p, IsTemplate seen' extension inputs' p →
      ∃ q, IsTemplate seen extension inputs q ∧ p.parts = q.parts) :
    found'.map Path.parts = found.map Path.parts := by
  have hordered {list : List Path} (hlist : list.Pairwise Path.Before) :
      (list.map Path.parts).Pairwise fun ps qs => Path.partsLe ps qs = true :=
    List.pairwise_map.mpr (hlist.imp fun hbefore => hbefore.1)
  have hnodup {list : List Path} (hlist : list.Pairwise Path.Before) :
      (list.map Path.parts).Nodup := List.pairwise_map.mpr (hlist.imp fun hbefore => hbefore.2)
  -- Both lists increase strictly, so they are one as soon as they have the same members.
  refine List.Perm.eq_of_pairwise (fun _ _ _ _ => Path.partsLe_antisymm)
    (hordered h'.increasing) (hordered h.increasing)
    ((List.perm_ext_iff_of_nodup (hnodup h'.increasing) (hnodup h.increasing)).mpr fun parts => ?_)
  constructor
  · intro hmem
    obtain ⟨p, hp, rfl⟩ := List.mem_map.mp hmem
    obtain ⟨q, hq, hparts⟩ := hback p (h'.sound p hp)
    obtain ⟨r, hr, hsame⟩ := h.complete q hq
    exact hparts ▸ List.mem_map.mpr ⟨r, hr, Path.same_iff.mp hsame⟩
  · intro hmem
    obtain ⟨p, hp, rfl⟩ := List.mem_map.mp hmem
    obtain ⟨r, hr, hsame⟩ := h'.complete p (hsub p (h.sound p hp))
    exact List.mem_map.mpr ⟨r, hr, Path.same_iff.mp hsame⟩

end

/-! ## File systems at rest -/

/-- Whether a file system is at rest: exploring a path leaves it as it is and finds what is
seen there. A walk of a directory leaves out nothing, so that what is below a directory inside
it is below the directory too. -/
structure AtRest {σ : Type} (files : Files (StateM σ)) (s : σ) (seen : Path → Exploration) :
    Prop where
  explore : ∀ p, (files.explore p).run s = (seen p, s)
  whole : ∀ {directory : Path} {below more : List (List RawText)}
    {names : List RawText}, seen directory = .directory below →
    (∀ name ∈ names, (PathPart.name name).Inner) →
    seen (directory.below names) = .directory more → ∀ rest ∈ more, names ++ rest ∈ below

namespace FileTree

theorem mem_filesBelow {t : FileTree} {place names : Place} :
    names ∈ t.filesBelow place ↔ ∃ content, (place ++ names, .file content) ∈ t.entries := by
  simp only [filesBelow, List.mem_filterMap, Prod.exists]
  constructor
  · rintro ⟨q, item, hentry, hnames⟩
    cases item with
    | directory => cases hnames
    | file content =>
        simp only [Option.ite_none_right_eq_some, Option.some.injEq,
          List.isPrefixOf_iff_prefix] at hnames
        obtain ⟨⟨rest, rfl⟩, rfl⟩ := hnames
        exact ⟨content, by rwa [List.drop_left]⟩
  · rintro ⟨content, hentry⟩
    exact ⟨_, _, hentry, by simp⟩

theorem eq_filesBelow_of_explore {t : FileTree} {p : Path} {below : List Place}
    (h : t.explore p = .directory below) : below = t.filesBelow (p.place t.here) := by
  rw [explore] at h
  split at h
  · cases h
  · next place hfind =>
      cases h
      rw [place_of_follow (find_eq_ok.mp hfind).2.1]
  · cases h

end FileTree

theorem Path.parts_below (p : Path) {names : List RawText}
    (h : ∀ name ∈ names, (PathPart.name name).Inner) :
    (p.below names).parts = p.parts ++ names.map .name := by
  induction names generalizing p with
  | nil => exact (List.append_nil _).symm
  | cons name rest ih =>
      obtain ⟨hname, hrest⟩ := List.forall_mem_cons.mp h
      have hparts : (p.join ⟨name⟩).parts = p.parts ++ [.name name] := by
        have hone : (⟨name⟩ : Path).parts = [.name name] := Path.parts_of_inner hname
        rw [Path.parts_join, hone, joinParts_of_inner]
        exact fun part hpart => List.mem_singleton.mp hpart ▸ hname
      exact (ih (p.join ⟨name⟩) hrest).trans (by rw [hparts, List.append_assoc]; rfl)

theorem FileTree.atRest (t : FileTree) : AtRest files t t.explore where
  explore _ := rfl
  whole {directory below more names} hdirectory hnames hmore rest hrest := by
    have hplace : (directory.below names).place t.here = directory.place t.here ++ names := by
      rw [Path.place, Path.parts_below directory hnames, descend_append, descend_names]
      rfl
    rw [eq_filesBelow_of_explore hmore, hplace] at hrest
    rw [eq_filesBelow_of_explore hdirectory]
    obtain ⟨content, hentry⟩ := mem_filesBelow.mp hrest
    exact mem_filesBelow.mpr ⟨content, by rwa [← List.append_assoc]⟩

/-! ## Inputs that are named already -/

/-- Whether inputs name a path already: it is one of them, or a file that is a template of
theirs in some spelling, or a directory inside one of them that is spelled from there. -/
inductive Named (seen : Path → Exploration) (extension : List Char) (inputs : List Path) :
    Path → Prop
  | input {input : Path} : input ∈ inputs → Named seen extension inputs input
  | file {input template : Path} : seen input = .file →
      IsTemplate seen extension inputs template → input.same template = true →
      Named seen extension inputs input
  | inside {directory : Path} {below more : List (List RawText)}
      {names : List RawText} : directory ∈ inputs → seen directory = .directory below →
      (∀ name ∈ names, (PathPart.name name).Inner) →
      seen (directory.below names) = .directory more →
      Named seen extension inputs (directory.below names)

/-- Whether the same is found, if directories may be walked in any order. -/
def Exploration.Alike : Exploration → Exploration → Prop
  | .nothing, .nothing => True
  | .file, .file => True
  | .directory below, .directory others => ∀ names, names ∈ below ↔ names ∈ others
  | _, _ => False

theorem Exploration.Alike.refl (e : Exploration) : e.Alike e := by
  cases e with
  | nothing | file => trivial
  | directory below => exact fun _ => Iff.rfl

theorem Exploration.Alike.symm {e e' : Exploration} (h : e.Alike e') : e'.Alike e := by
  cases e <;> cases e' <;> first | exact h | exact fun names => (h names).symm

/-- The templates of a file system do not depend on the order of its walks. -/
theorem IsTemplate.of_alike {seen seen' : Path → Exploration}
    (halike : ∀ p, (seen p).Alike (seen' p)) {extension : List Char} {inputs listed : List Path}
    (hlisted : ∀ input ∈ inputs, input ∈ listed) {p : Path}
    (h : IsTemplate seen extension inputs p) : IsTemplate seen' extension listed p := by
  cases h with
  -- A file looks like a file to both.
  | file hinput hseen =>
      have hfile := halike p
      rw [hseen] at hfile
      refine .file (hlisted p hinput) ?_
      cases hseen' : seen' p <;> rw [hseen'] at hfile <;> first | rfl | cases hfile
  | @below directory below names hdirectory hseen hnames hextension =>
      have hbelow := halike directory
      rw [hseen] at hbelow
      cases hseen' : seen' directory <;> rw [hseen'] at hbelow
      case directory others =>
        exact .below (hlisted directory hdirectory) hseen' ((hbelow names).mp hnames) hextension
      all_goals cases hbelow

theorem exists_template_of_named {σ : Type} {files : Files (StateM σ)} {s : σ}
    {seen : Path → Exploration} (hrest : AtRest files s seen) {extension : List Char}
    {inputs listed : List Path} (hnamed : ∀ input ∈ listed, Named seen extension inputs input)
    {p : Path} (h : IsTemplate seen extension listed p) :
    ∃ q, IsTemplate seen extension inputs q ∧ p.parts = q.parts := by
  cases h with
  | file hinput hseen =>
      cases hnamed p hinput with
      | input hmem => exact ⟨p, .file hmem hseen, rfl⟩
      | file _ htemplate hsame => exact ⟨_, htemplate, Path.same_iff.mp hsame⟩
      | inside _ _ _ hmore =>
          rw [hseen] at hmore
          cases hmore
  | @below directory below names hdirectory hseen hnames hextension =>
      cases hnamed directory hdirectory with
      | input hmem => exact ⟨_, .below hmem hseen hnames hextension, rfl⟩
      | file hfile =>
          rw [hseen] at hfile
          cases hfile
      | @inside outer _ _ way houter hbelow hway hmore =>
          rw [hseen] at hmore
          cases hmore
          -- The path is spelled in the same way from the outer directory.
          have hspelled : (outer.below way).below names = outer.below (way ++ names) :=
            (List.foldl_append).symm
          rw [hspelled] at hextension ⊢
          exact ⟨_, .below houter hbelow (hrest.whole hbelow hway hseen names hnames) hextension,
            rfl⟩

/-! ## The search -/

/-- A search finds the templates of its inputs in strict order. It finds the same, but for the
spelling, if it walks directories in another order, and for each list of the inputs in any
order, among repeated ones, files that it finds anyway, and directories inside of those that
are inputs. A file tree is at rest, and what is below a directory are the files of the tree. -/
theorem search_independent_of_listing (extension : List Char) :
    (∀ t : FileTree, AtRest FileTree.files t t.explore ∧
      ∀ p below, t.explore p = .directory below → ∀ names,
        names ∈ below ↔ ∃ content, (p.place t.here ++ names, .file content) ∈ t.entries)
    ∧ ∀ {σ : Type} {files : Files (StateM σ)} {s : σ} {seen : Path → Exploration},
      AtRest files s seen → ∀ inputs,
      Finds seen extension inputs ((findTemplates files inputs extension).run s).1
      ∧ ∀ {σ' : Type} {files' : Files (StateM σ')} {s' : σ'} {seen' : Path → Exploration},
        AtRest files' s' seen' → (∀ p, (seen p).Alike (seen' p)) →
        ∀ listed, (∀ input ∈ inputs, input ∈ listed) →
        (∀ input ∈ listed, Named seen extension inputs input) →
        ((findTemplates files' listed extension).run s').1.map Path.parts
          = ((findTemplates files inputs extension).run s).1.map Path.parts := by
  refine ⟨fun t => ⟨t.atRest, fun p below hbelow names => ?_⟩, fun {_ _ _ seen} hrest inputs => ?_⟩
  · rw [FileTree.eq_filesBelow_of_explore hbelow, FileTree.mem_filesBelow]
  have hfinds := finds_templatesOf seen extension inputs
  rw [run_findTemplates_of_seen hrest.explore]
  refine ⟨hfinds, fun {_ _ _ seen'} hrest' halike listed hlisted hnamed => ?_⟩
  rw [run_findTemplates_of_seen hrest'.explore]
  refine hfinds.parts_eq (finds_templatesOf seen' extension listed)
    (fun p hp => hp.of_alike halike hlisted) fun p hp => ?_
  have hback := hp.of_alike (fun q => (halike q).symm) fun _ hinput => hinput
  exact exists_template_of_named hrest hnamed hback

/-- A tree with templates in a directory and in one inside it. -/
def viewTree : FileTree where
  here := []
  entries := [([.ofString "views"], .directory),
    ([.ofString "views", .ofString "list"], .directory),
    ([.ofString "views", .ofString "list", .ofString "row.mustache"], .file []),
    ([.ofString "views", .ofString "notes.txt"], .file []),
    ([.ofString "views", .ofString "page.mustache"], .file [])]

/-- The directory inside, and a template of the directory in another spelling, add nothing to
what is found. -/
theorem search_independent_of_listing_of_views :
    ((findTemplates FileTree.files
        [.ofString "views/list", .ofString "views//page.mustache", .ofString "views",
          .ofString "views"] "mustache".toList).run viewTree).1.map Path.parts
      = [[.name (.ofString "views"), .name (.ofString "list"), .name (.ofString "row.mustache")],
        [.name (.ofString "views"), .name (.ofString "page.mustache")]] := by
  have hsearch := search_independent_of_listing "mustache".toList
  have hrest : AtRest FileTree.files viewTree viewTree.explore := (hsearch.1 viewTree).1
  have hviews : viewTree.explore (.ofString "views") = .directory
      [[.ofString "list", .ofString "row.mustache"], [.ofString "notes.txt"],
        [.ofString "page.mustache"]] := by
    decide +kernel
  have hlist : viewTree.explore ((Path.ofString "views").below [.ofString "list"])
      = .directory [[.ofString "row.mustache"]] := by decide +kernel
  have hpage : IsTemplate viewTree.explore "mustache".toList [.ofString "views"]
      ((Path.ofString "views").below [.ofString "page.mustache"]) :=
    .below List.mem_cons_self hviews (by decide +kernel) (by decide +kernel)
  have hsame := (hsearch.2 hrest [.ofString "views"]).2 hrest (fun _ => .refl _)
    [.ofString "views/list", .ofString "views//page.mustache", .ofString "views",
      .ofString "views"]
  refine (hsame (by simp) ?_).trans ?_
  · simp only [List.forall_mem_cons]
    exact ⟨.inside List.mem_cons_self hviews (by decide +kernel) hlist,
      .file (by decide +kernel) hpage (by decide +kernel),
      .input List.mem_cons_self, .input List.mem_cons_self, nofun⟩
  · have hfound : templatesOf "mustache".toList
          ([.ofString "views"].map fun input => (input, viewTree.explore input))
        = [.ofString "views/list/row.mustache", .ofString "views/page.mustache"] :=
      (templatesOf_of_pairwise (by decide +kernel)).trans (by decide +kernel)
    rw [run_findTemplates_of_seen hrest.explore, hfound]
    decide +kernel

end Mustache
