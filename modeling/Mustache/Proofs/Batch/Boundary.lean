import Mustache.Proofs.Batch.Runs
import Mustache.Proofs.Batch.Storage
import Mustache.Proofs.Path.Layout

/-!
Whether modules stay in the output directory.

A module is written to the output directory, the directory of its template relative to the
base, and its name, one behind the other. It is in the output directory if the relative
directory leads down alone. One that is absolute, as when the base of paths with and without
the root says nothing, takes the place of the output directory, and one that leads up may
lead out of it again. `modules_stay_inside` tells exactly when modules stay in the output
directory, and that a run then writes nowhere else.
-/
set_option autoImplicit false

namespace Mustache

/-! ## Paths below a directory -/

namespace Path

/-- Whether a path has the parts of a directory, and only names behind them. -/
def Below (p directory : Path) : Prop :=
  ∃ names : List RawText, p.parts = directory.parts ++ names.map .name

/-- Whether a path is below a directory, but not the directory itself. -/
def Inside (p directory : Path) : Prop :=
  ∃ names : List RawText, names ≠ [] ∧ p.parts = directory.parts ++ names.map .name

theorem Inside.below {p directory : Path} (h : p.Inside directory) : p.Below directory := by
  obtain ⟨names, -, hparts⟩ := h
  exact ⟨names, hparts⟩

end Path

theorem exists_names_iff {parts : List PathPart} (h : ∀ part ∈ parts, part.Inner) :
    (∃ names : List RawText, parts = names.map .name) ↔ .up ∉ parts := by
  induction parts with
  | nil => exact ⟨fun _ => List.not_mem_nil, fun _ => ⟨[], rfl⟩⟩
  | cons part parts ih =>
      have hrest := ih fun other hother => h other (List.mem_cons_of_mem part hother)
      constructor
      · rintro ⟨names, hnames⟩
        rw [hnames, List.mem_map]
        rintro ⟨_, -, hup⟩
        cases hup
      · intro hup
        rw [List.mem_cons, not_or] at hup
        obtain ⟨names, rfl⟩ := hrest.mpr hup.2
        -- An inner part is a name or a step up.
        cases part with
        | root => exact absurd (h _ List.mem_cons_self) PathPart.not_inner_root
        | here => exact absurd (h _ List.mem_cons_self) PathPart.not_inner_here
        | up => exact absurd rfl hup.1
        | name chars => exact ⟨chars :: names, rfl⟩

/-- Whether a relative directory keeps to the directory that it is joined to: one that is
absolute if it is below that directory by itself, another if it does not lead up. To a
directory that says nothing it adds no point either. -/
def StaysIn (directory relative : Path) : Prop :=
  if relative.isAbsolute then relative.Below directory
  else .up ∉ relative.parts ∧ (directory.parts = [] → .here ∉ relative.parts)

theorem join_below_iff {directory relative : Path} :
    (directory.join relative).Below directory ↔ StaysIn directory relative := by
  rw [StaysIn, Path.Below, Path.parts_join]
  have hinner : ∀ part ∈ innerParts (splitSlashes relative.text), part.Inner :=
    fun _ => Path.inner_of_mem
  have hhere : PathPart.here ∉ innerParts (splitSlashes relative.text) :=
    fun h => PathPart.not_inner_here (hinner _ h)
  -- A path is absolute, starts with a point, or has inner parts alone. Only the last two are put
  -- behind the directory, and a point vanishes there unless nothing stands before it.
  rcases relative.parts_cases with ⟨habs, hparts⟩ | ⟨habs, hparts | hparts⟩
  · rw [if_pos habs, hparts, joinParts_root, Path.Below, hparts]
  · rw [if_neg (by simp [habs]), hparts]
    by_cases hdirectory : directory.parts = []
    · rw [hdirectory, joinParts_nil]
      simp only [List.nil_append, List.mem_cons, true_or, not_true_eq_false, imp_false, and_false,
        iff_false, not_exists]
      rintro (_ | ⟨_, _⟩) h <;> cases h
    · rw [joinParts_here hdirectory]
      simp only [List.append_cancel_left_eq, exists_names_iff hinner, List.mem_cons, reduceCtorEq,
        false_or, hdirectory, false_imp_iff, and_true]
  · rw [if_neg (by simp [habs]), hparts, joinParts_of_inner _ hinner]
    simp only [List.append_cancel_left_eq, exists_names_iff hinner, hhere, not_false_eq_true,
      implies_true, and_true]

/-- A module with a name is in the output directory just if the relative directory of its
template keeps to it. -/
theorem outputPath_inside_iff {template base outDir : Path} {extension : List Char}
    (hname : (PathPart.name (moduleName template extension)).Inner) :
    (outputPath template base outDir extension).Inside outDir
      ↔ StaysIn outDir (relativeDirectory template base) := by
  have hparts : (outputPath template base outDir extension).parts
      = (outDir.join (relativeDirectory template base)).parts
        ++ [.name (moduleName template extension)] := by
    have hmodule : (⟨moduleName template extension⟩ : Path).parts
        = [.name (moduleName template extension)] := Path.parts_of_inner hname
    rw [outputPath_parts, hmodule]
    exact fun part hpart => List.mem_singleton.mp (hmodule ▸ hpart) ▸ hname
  rw [← join_below_iff, Path.Inside, hparts, Path.Below]
  constructor
  · rintro ⟨names, hne, hnames⟩
    rw [← List.dropLast_append_getLast hne, List.map_append, ← List.append_assoc] at hnames
    exact ⟨names.dropLast, (List.append_inj' hnames rfl).1⟩
  · rintro ⟨names, hnames⟩
    refine ⟨names ++ [moduleName template extension], by simp, ?_⟩
    rw [hnames, List.map_append, List.append_assoc]
    rfl

theorem moduleName_inner (template : Path) {extension : List Char}
    (h : (PathPart.name (Text.encodeUtf8 extension)).Inner) :
    (PathPart.name (moduleName template extension)).Inner := by
  obtain ⟨hslash, hnil, hhere, hup⟩ := PathPart.name_inner_iff.mp h
  rw [slash_mem_encodeUtf8] at hslash
  refine PathPart.name_inner_iff.mpr ⟨slash_not_mem_moduleName template hslash, ?_⟩
  rw [moduleName, Text.encodeUtf8_append]
  -- A name of points alone would end in an extension of points alone.
  refine ⟨List.append_ne_nil_of_right_ne_nil _ hnil, ?_, ?_⟩
  · intro hdot
    rcases List.append_eq_singleton_iff.mp hdot with ⟨-, hext⟩ | ⟨-, hext⟩
    · exact hhere hext
    · exact hnil hext
  · intro hdots
    rcases List.append_eq_cons_iff.mp hdots with ⟨-, hext⟩ | ⟨rest, -, hrest⟩
    · exact hup hext
    · rcases List.append_eq_singleton_iff.mp hrest.symm with ⟨-, hext⟩ | ⟨-, hext⟩
      · exact hhere hext
      · exact hnil hext

/-! ## Templates that are given alike -/

namespace Path

/-- The directory of a named file that is given from the root starts there. -/
theorem root_prefix_of_name {p : Path} (habs : p.isAbsolute = true)
    (hname : p.fileName?.isSome = true) : [.root] <+: p.parts.dropLast := by
  obtain ⟨name, hname⟩ := Option.isSome_iff_exists.mp hname
  have hlast := fileName?_eq_some.mp hname
  obtain ⟨rest, hparts⟩ := List.head?_eq_some_iff.mp (isAbsolute_iff.mp habs)
  rw [hparts] at hlast ⊢
  cases rest with
  | nil => cases hlast
  | cons second rest => exact ⟨_, rfl⟩

end Path

/-- Where all templates are given from the root, or none is, and their base is the common
one, a template whose path does not lead up keeps to each output directory. -/
theorem staysIn_of_alike {files : List Path} {template : Path} (hmem : template ∈ files)
    (halike : ∀ file ∈ files, file.isAbsolute = template.isAbsolute ∧ file.fileName?.isSome)
    (hup : .up ∉ template.parts) {outDir : Path} (houtDir : outDir.parts ≠ []) :
    StaysIn outDir (relativeDirectory template (commonBase files)) := by
  have hrelative := relativeDirectory_parts (commonBase_prefix_of_mem hmem)
  have hsub : ∀ part ∈ (relativeDirectory template (commonBase files)).parts,
      part ∈ template.parts := by
    rw [hrelative]
    exact fun part hpart => (List.dropLast_prefix _).mem ((List.drop_suffix _ _).mem hpart)
  have hnot : (relativeDirectory template (commonBase files)).isAbsolute = false := by
    rw [Bool.eq_false_iff, Ne, Path.isAbsolute_iff]
    intro hhead
    have hroot := List.mem_of_head? hhead
    have habs := Path.isAbsolute_of_root_mem (hsub _ hroot)
    -- From the root the base is at least the root, which is then taken away.
    have hbase : [PathPart.root] <+: (commonBase files).parts :=
      prefix_commonBase (List.ne_nil_of_mem hmem) fun file hfile =>
        Path.root_prefix_of_name ((halike file hfile).1.trans habs) (halike file hfile).2
    obtain ⟨count, hcount⟩ : ∃ count, (commonBase files).parts.length = 1 + count :=
      ⟨_, (Nat.add_sub_cancel' hbase.length_le).symm⟩
    rw [hrelative, hcount, ← List.drop_drop, List.drop_one, List.tail_dropLast] at hroot
    exact PathPart.not_inner_root (Path.inner_of_mem_tail
      ((List.dropLast_prefix _).mem ((List.drop_suffix _ _).mem hroot)))
  rw [StaysIn, if_neg (by simp [hnot])]
  exact ⟨fun h => hup (hsub _ h), fun h => absurd h houtDir⟩

/-! ## Runs -/

theorem Path.Below.place_prefix {p directory : Path} (h : p.Below directory) (start : Place) :
    directory.place start <+: p.place start := by
  obtain ⟨names, hparts⟩ := h
  rw [Path.place, Path.place, hparts, descend_append, descend_names]
  exact List.prefix_append _ _

namespace FileTree

/-- Whether a tree is another one but for what is below a directory, and for directories
that were made on the way there. -/
structure SameOutside (directory : Path) (t u : FileTree) : Prop where
  here : u.here = t.here
  lookup : ∀ place, ¬ directory.place t.here <+: place →
    u.lookup? place = t.lookup? place
      ∨ (t.lookup? place = none ∧ u.lookup? place = some .directory
        ∧ ∃ qs, qs <+: directory.parts ∧ place = descend t.here qs)

theorem SameOutside.write {directory p : Path} (hinside : p.Inside directory) {t u : FileTree}
    (h : SameOutside directory t u) (content : List UInt8) :
    SameOutside directory t (u.write p content).1 := by
  obtain ⟨names, hparts⟩ := hinside.below
  refine ⟨(u.here_write p content).trans h.here, fun place hplace => ?_⟩
  have hchanges := u.write_changes p content place
  rw [h.here] at hchanges
  -- Writing leaves a place as it was, makes a directory on the way to the file, or fills the file.
  -- The way runs through the directory first, so a place that is new and not below it lies above
  -- it.
  rcases hchanges with hsame | ⟨hnone, hmade, qs, hqs, hway⟩ | ⟨hfile, -⟩
  · rw [hsame]
    exact h.lookup place hplace
  · have hway' : qs <+: directory.parts := by
      rcases List.prefix_or_prefix_of_prefix hqs (hparts ▸ List.prefix_append directory.parts _)
        with hway' | ⟨more, hmore⟩
      · exact hway'
      · refine absurd ?_ hplace
        rw [hparts, ← hmore, List.prefix_append_right_inj] at hqs
        have hnames : ∃ names : List RawText, more = names.map .name := by
          obtain ⟨rest, hrest⟩ := hqs
          obtain ⟨first, second, -, hfirst, -⟩ := List.map_eq_append_iff.mp hrest.symm
          exact ⟨first, hfirst.symm⟩
        obtain ⟨names, rfl⟩ := hnames
        rw [hway, ← hmore, descend_append, descend_names]
        exact List.prefix_append _ _
    rcases h.lookup place hplace with hsame | ⟨-, hdirectory, -⟩
    · exact .inr ⟨hsame ▸ hnone, hmade, qs, hway', hway⟩
    · rw [hnone] at hdirectory
      cases hdirectory
  · exact absurd (hfile ▸ hinside.below.place_prefix t.here) hplace

theorem compileAll_sameOutside (readers : Readers) {templates : List Path} {base outDir : Path}
    {options : Options} (h : ∀ template ∈ templates,
      (outputPath template base outDir options.partialExtension.toList).Inside outDir)
    (t : FileTree) :
    SameOutside outDir t ((compileAll readers files templates base outDir options).run t).2 := by
  have hread (p : Path) (u : FileTree) (hu : SameOutside outDir t u) :
      SameOutside outDir t ((files.read p).run u).2 := hu
  exact compileAll_keeps readers hread
    (fun template hmem content u hu => hu.write (h template hmem) content)
    ⟨rfl, fun place _ => .inl rfl⟩

end FileTree

/-! ## Modules in the output directory -/

/-- Modules with names are all in the output directory just if the relative directories of
their templates keep to it. Then a run writes in the output directory alone, whatever file
system it writes to: it keeps what reading keeps, and writing to paths in the output
directory. -/
theorem modules_stay_inside {templates : List Path} {base outDir : Path} {options : Options}
    (hnames : ∀ template ∈ templates,
      (PathPart.name (moduleName template options.partialExtension.toList)).Inner) :
    ((∀ template ∈ templates,
        (outputPath template base outDir options.partialExtension.toList).Inside outDir)
      ↔ ∀ template ∈ templates, StaysIn outDir (relativeDirectory template base))
    ∧ ((∀ template ∈ templates, StaysIn outDir (relativeDirectory template base)) →
      ∀ (readers : Readers) (σ : Type) (files : Files (StateM σ)) (I : σ → Prop),
        (∀ p s, I s → I ((files.read p).run s).2) →
        (∀ p, p.Inside outDir → ∀ content s, I s → I ((files.write p content).run s).2) →
        ∀ s, I s → I ((compileAll readers files templates base outDir options).run s).2) := by
  have hinside : (∀ template ∈ templates,
        (outputPath template base outDir options.partialExtension.toList).Inside outDir)
      ↔ ∀ template ∈ templates, StaysIn outDir (relativeDirectory template base) :=
    forall₂_congr fun template hmem => outputPath_inside_iff (hnames template hmem)
  refine ⟨hinside, fun hstays readers σ files I hread hwrite s hs => ?_⟩
  exact compileAll_keeps readers hread
    (fun template hmem => hwrite _ (hinside.mpr hstays template hmem)) hs

/-- Templates in directories of a source directory. -/
def sources : List Path :=
  [.ofString "src/list/row.mustache", .ofString "src/page.mustache"]

/-- Their modules are in the output directory. -/
theorem modules_stay_inside_of_sources :
    (outputPath (.ofString "src/list/row.mustache") (commonBase sources) (.ofString "out")
      Options.default.partialExtension.toList).Inside (.ofString "out")
    ∧ (outputPath (.ofString "src/page.mustache") (commonBase sources) (.ofString "out")
      Options.default.partialExtension.toList).Inside (.ofString "out") := by
  have hextension : (PathPart.name (.ofString Options.default.partialExtension)).Inner := by
    decide +kernel
  have hstays : ∀ template ∈ sources,
      StaysIn (.ofString "out") (relativeDirectory template (commonBase sources)) := by
    have halike : ∀ file ∈ sources, file.isAbsolute = false ∧ file.fileName?.isSome := by
      decide +kernel
    have hup : ∀ template ∈ sources, .up ∉ template.parts := by decide +kernel
    exact fun template hmem => staysIn_of_alike hmem
      (fun file hfile => (halike template hmem).1 ▸ halike file hfile) (hup template hmem)
      (by decide +kernel)
  have hinside := (modules_stay_inside fun template _ =>
    moduleName_inner template hextension).1.mpr hstays
  exact ⟨hinside _ (by decide +kernel), hinside _ (by decide +kernel)⟩

/-- A template below the root takes its module there if another template is not below the
root, and a template whose path leads up behind the base takes its module out again. -/
theorem modules_outside :
    ¬ (outputPath (.ofString "/a/x.mustache")
        (commonBase [.ofString "/a/x.mustache", .ofString "b.mustache"]) (.ofString "out")
        ".js".toList).Below (.ofString "out")
    ∧ ¬ (outputPath (.ofString "s/../t.mustache")
        (commonBase [.ofString "s/../t.mustache", .ofString "s/u.mustache"]) (.ofString "out")
        ".js".toList).Below (.ofString "out") := by
  have hfirst : (outputPath (.ofString "/a/x.mustache")
      (commonBase [.ofString "/a/x.mustache", .ofString "b.mustache"]) (.ofString "out")
      ".js".toList).parts = [.root, .name (.ofString "a"), .name (.ofString "x.js")] := by
    decide +kernel
  have hsecond : (outputPath (.ofString "s/../t.mustache")
      (commonBase [.ofString "s/../t.mustache", .ofString "s/u.mustache"]) (.ofString "out")
      ".js".toList).parts = [.name (.ofString "out"), .up, .name (.ofString "t.js")] := by
    decide +kernel
  have hout : (Path.ofString "out").parts = [.name (.ofString "out")] := by decide +kernel
  constructor
  · rintro ⟨names, hnames⟩
    rw [hfirst, hout] at hnames
    cases hnames
  · rintro ⟨names, hnames⟩
    rw [hsecond, hout] at hnames
    rcases names with - | ⟨name, names⟩ <;> cases hnames

end Mustache
