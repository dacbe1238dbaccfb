import Mustache.Proofs.Batch.Boundary
import Mustache.Proofs.Batch.Order
import Mustache.Readers.Own

/-!
Whether modules overwrite each other.

A module has the directory and the stem of its template, so templates that differ in their
extension alone are laid out to one path, and the module that is written last is left
(`modules_laid_on_each_other`). Other templates are laid out to different paths. If these do
not lead up they go apart by names alone, and in files that make a tree (`Files.IsTree`) what
is written to one then leaves the other as it is. So after a run that succeeds each module is
read as it was compiled (`modules_kept_apart`).
-/
set_option autoImplicit false

namespace Mustache

/-! ## Names of modules -/

/-- The name of a template's module, up to the first slash of the extension. -/
def moduleHead (template : Path) (extension : List Char) : RawText :=
  Text.encodeUtf8 (RawText.lossy ((template.stem?).getD []) ++ extension.takeWhile (· ≠ '/'))

/-- The parts that an extension adds behind its first slash. -/
def restParts (extension : List Char) : List PathPart :=
  innerParts (splitSlashes (Text.encodeUtf8 (extension.dropWhile (· ≠ '/'))))

theorem inner_of_mem_restParts {extension : List Char} {part : PathPart}
    (h : part ∈ restParts extension) : part.Inner :=
  Path.inner_of_mem h

theorem parts_moduleName {template : Path} {extension : List Char}
    (h : (PathPart.name (moduleHead template extension)).Inner) :
    (⟨moduleName template extension⟩ : Path).parts
      = .name (moduleHead template extension) :: restParts extension := by
  have hstart : (⟨moduleHead template extension⟩ : Path).parts
      = [.name (moduleHead template extension)] := Path.parts_of_inner h
  have hname : moduleName template extension
      = moduleHead template extension ++ Text.encodeUtf8 (extension.dropWhile (· ≠ '/')) := by
    rw [moduleName, moduleHead, ← Text.encodeUtf8_append, List.append_assoc,
      List.takeWhile_append_dropWhile]
  rw [hname, restParts]
  cases hrest : extension.dropWhile (· ≠ '/') with
  | nil =>
      rw [Text.encodeUtf8_nil, List.append_nil, hstart]
      rfl
  | cons c rest =>
      -- What follows the first part of the name begins with the slash that ended it.
      have hslash : c = '/' := by
        have hhead := List.head?_dropWhile_not (· ≠ '/') extension
        rw [hrest] at hhead
        simpa using hhead
      have hencoded : Text.encodeUtf8 (c :: rest) = slash :: Text.encodeUtf8 rest := by
        rw [hslash]
        rfl
      rw [hencoded, Path.parts_append_slash, if_neg (PathPart.name_inner_iff.mp h).2.1, hstart]
      exact (List.singleton_append).trans (by rw [splitSlashes, if_pos rfl]; rfl)

theorem inner_of_mem_moduleName {template : Path} {extension : List Char}
    (h : (PathPart.name (moduleHead template extension)).Inner) {part : PathPart}
    (hpart : part ∈ (⟨moduleName template extension⟩ : Path).parts) : part.Inner := by
  rw [parts_moduleName h] at hpart
  rcases List.mem_cons.mp hpart with rfl | hrest
  · exact h
  · exact inner_of_mem_restParts hrest

/-! ## Directories of modules -/

/-- Parts without the directory itself at their start. -/
def dropHere : List PathPart → List PathPart
  | .here :: rest => rest
  | parts => parts

theorem dropHere_concat_name (parts : List PathPart) (name : RawText) :
    dropHere (parts ++ [.name name]) = dropHere parts ++ [.name name] := by
  cases parts with
  | nil => rfl
  | cons part rest => cases part <;> rfl

theorem dropHere_append_names (parts : List PathPart) (names : List RawText) :
    dropHere (parts ++ names.map .name) = dropHere parts ++ names.map .name := by
  cases parts with
  | nil => cases names <;> rfl
  | cons part rest => cases part <;> rfl

theorem dropHere_of_inner {parts : List PathPart} (h : ∀ part ∈ parts, part.Inner) :
    dropHere parts = parts := by
  rw [dropHere]
  rintro rest rfl
  exact PathPart.not_inner_here (h _ List.mem_cons_self)

theorem dropHere_parts {p : Path} (h : p.isAbsolute = false) :
    dropHere p.parts = innerParts (splitSlashes p.text) := by
  rcases p.parts_cases with ⟨habs, -⟩ | ⟨-, hparts | hparts⟩
  · rw [habs] at h
    cases h
  · rw [hparts]
    rfl
  · rw [hparts]
    exact dropHere_of_inner fun _ => Path.inner_of_mem

/-- Paths that are the same behind a directory are the same, but for the directory itself
at their start. -/
theorem dropHere_of_join_same {directory p q : Path}
    (hmix : directory.isAbsolute = true → p.isAbsolute = q.isAbsolute)
    (h : (directory.join p).parts = (directory.join q).parts) :
    dropHere p.parts = dropHere q.parts := by
  -- Joined to a relative directory, the two paths show by their first part whether they are
  -- absolute; for an absolute directory that is what `hmix` is for.
  have halike : p.isAbsolute = q.isAbsolute := by
    have habs : (directory.join p).isAbsolute = (directory.join q).isAbsolute := by
      rw [Bool.eq_iff_iff, Path.isAbsolute_iff, Path.isAbsolute_iff, h]
    rw [Path.isAbsolute_join, Path.isAbsolute_join] at habs
    cases hdirectory : directory.isAbsolute with
    | true => exact hmix hdirectory
    | false => simpa [hdirectory] using habs
  cases hp : p.isAbsolute with
  | true =>
      have hq : q.isAbsolute = true := halike ▸ hp
      rw [Path.join, if_pos hp, Path.join, if_pos hq] at h
      rw [h]
  | false =>
      have hq : q.isAbsolute = false := halike ▸ hp
      by_cases hdirectory : directory.text = []
      · rw [Path.parts_join, Path.parts_join, Path.parts_eq_nil.mpr hdirectory, joinParts_nil,
          joinParts_nil] at h
        rw [h]
      · rw [Path.parts_join_of_ne_nil hp hdirectory, Path.parts_join_of_ne_nil hq hdirectory,
          List.append_cancel_left_eq] at h
        rw [dropHere_parts hp, dropHere_parts hq, h]

/-- What is left of the directory of a template behind the base tells the directory. -/
theorem directory_of_relative {p q base : Path} (hp : base.parts <+: p.parts.dropLast)
    (hq : base.parts <+: q.parts.dropLast)
    (h : dropHere (relativeDirectory p base).parts = dropHere (relativeDirectory q base).parts) :
    dropHere p.parts.dropLast = dropHere q.parts.dropLast := by
  rw [relativeDirectory_parts hp, relativeDirectory_parts hq] at h
  cases hbase : base.parts with
  | nil =>
      rw [hbase] at h
      exact h
  | cons first rest =>
      -- Behind a base that says something, no part is a point for the directory itself.
      have hdrop (r : Path) : dropHere (r.parts.dropLast.drop base.parts.length)
          = r.parts.dropLast.drop base.parts.length := by
        refine dropHere_of_inner fun part hpart => Path.inner_of_mem_tail (p := r) ?_
        rw [hbase, List.length_cons, Nat.add_comm, ← List.drop_drop, List.drop_one,
          List.tail_dropLast] at hpart
        exact (List.dropLast_prefix _).mem ((List.drop_suffix _ _).mem hpart)
      rw [hdrop, hdrop] at h
      rw [← List.prefix_iff_eq_append.mp hp, ← List.prefix_iff_eq_append.mp hq, h]

/-! ## Templates that are laid out alike -/

/-- Whether templates are in the same directory, but for the directory itself at its start,
and have stems that are read as the same text. -/
structure AlikeButForExtension (p q : Path) : Prop where
  directory : dropHere p.parts.dropLast = dropHere q.parts.dropLast
  stem : RawText.lossy ((p.stem?).getD []) = RawText.lossy ((q.stem?).getD [])

instance (p q : Path) : Decidable (AlikeButForExtension p q) :=
  decidable_of_iff (dropHere p.parts.dropLast = dropHere q.parts.dropLast
      ∧ RawText.lossy ((p.stem?).getD []) = RawText.lossy ((q.stem?).getD []))
    ⟨fun h => ⟨h.1, h.2⟩, fun h => ⟨h.directory, h.stem⟩⟩

/-- Files that are alike are the same, but for the directory itself at the start, if their
stems are text and their extension is the same too. -/
theorem AlikeButForExtension.same {p q : Path} (h : AlikeButForExtension p q)
    {pname qname : RawText} (hp : p.fileName? = some pname) (hq : q.fileName? = some qname)
    (hptext : RawText.IsText ((p.stem?).getD [])) (hqtext : RawText.IsText ((q.stem?).getD []))
    (hextension : p.extension? = q.extension?) : dropHere p.parts = dropHere q.parts := by
  have hstem := RawText.IsText.eq_of_lossy hptext hqtext h.stem
  rw [Path.stem?, Path.stem?, hp, hq] at hstem
  rw [Path.extension?, Path.extension?, hp, hq] at hextension
  obtain rfl : pname = qname := Path.cutName_injective (Prod.ext hstem hextension)
  have hparts {r : Path} (hr : r.fileName? = some pname) :
      dropHere r.parts = dropHere r.parts.dropLast ++ [.name pname] := by
    rw [← dropHere_concat_name,
      List.dropLast_append_getLast? _ (Path.fileName?_eq_some.mp hr)]
  rw [hparts hp, hparts hq, h.directory]

theorem stem_of_moduleHead {p q : Path} {extension : List Char}
    (h : moduleHead p extension = moduleHead q extension) :
    RawText.lossy ((p.stem?).getD []) = RawText.lossy ((q.stem?).getD []) :=
  List.append_cancel_right (Text.encodeUtf8_injective h)

/-- Templates that are laid out to the same path differ in their extension at most. -/
theorem alike_of_same {templates : List Path} {p q outDir : Path} {extension : List Char}
    (hp : p ∈ templates) (hq : q ∈ templates)
    (hpname : (PathPart.name (moduleHead p extension)).Inner)
    (hqname : (PathPart.name (moduleHead q extension)).Inner)
    (hmix : outDir.isAbsolute = true →
      (relativeDirectory p (commonBase templates)).isAbsolute
        = (relativeDirectory q (commonBase templates)).isAbsolute)
    (h : (outputPath p (commonBase templates) outDir extension).parts
      = (outputPath q (commonBase templates) outDir extension).parts) :
    AlikeButForExtension p q := by
  rw [outputPath_parts fun _ => inner_of_mem_moduleName hpname,
    outputPath_parts fun _ => inner_of_mem_moduleName hqname, parts_moduleName hpname,
    parts_moduleName hqname, List.append_cons _ (PathPart.name (moduleHead p extension)),
    List.append_cons _ (PathPart.name (moduleHead q extension))] at h
  -- The name of the module is the last part but for what the extension adds, which both have.
  obtain ⟨hdirectory, hname⟩ := List.append_inj' (List.append_cancel_right h) rfl
  have hstart : moduleHead p extension = moduleHead q extension := by
    rw [List.cons.injEq, PathPart.name.injEq] at hname
    exact hname.1
  exact ⟨directory_of_relative (commonBase_prefix_of_mem hp) (commonBase_prefix_of_mem hq)
    (dropHere_of_join_same hmix hdirectory), stem_of_moduleHead hstart⟩

/-! ## Templates that are laid out apart -/

/-- Whether paths go apart by names alone: behind what they start with in common, but for the
directory itself, each has only names, and not the same. -/
def Path.Apart (p q : Path) : Prop :=
  ∃ (start : List PathPart) (ps qs : List RawText), dropHere p.parts = start ++ ps.map .name
    ∧ dropHere q.parts = start ++ qs.map .name ∧ ps ≠ qs

theorem Path.Apart.symm {p q : Path} (h : p.Apart q) : q.Apart p := by
  obtain ⟨start, ps, qs, hp, hq, hne⟩ := h
  exact ⟨start, qs, ps, hq, hp, hne.symm⟩

section

variable {templates : List Path} {outDir : Path} {extension : List Char}

/-- Where the path of a module starts, with a directory relative to the base that is
absolute, or with another. -/
def layoutStart (outDir : Path) (absolute : Bool) : List PathPart :=
  if absolute then [.root] else dropHere outDir.parts

/-- The module of a template is at names behind its start: those of the directory of the
template, then its own, then those of the extension. -/
theorem dropHere_outputPath {template base : Path} {rest : List RawText}
    (hname : (PathPart.name (moduleHead template extension)).Inner)
    (hdown : .up ∉ (relativeDirectory template base).parts)
    (hrest : restParts extension = rest.map .name) :
    ∃ names : List RawText,
      dropHere (relativeDirectory template base).parts
          = (if (relativeDirectory template base).isAbsolute then [.root] else [])
            ++ names.map .name
        ∧ dropHere (outputPath template base outDir extension).parts
          = layoutStart outDir (relativeDirectory template base).isAbsolute
            ++ (names ++ moduleHead template extension :: rest).map .name := by
  have hmodule : (outputPath template base outDir extension).parts
      = (outDir.join (relativeDirectory template base)).parts
        ++ (moduleHead template extension :: rest).map .name := by
    rw [outputPath_parts fun _ => inner_of_mem_moduleName hname, parts_moduleName hname, hrest]
    rfl
  have hup : .up ∉ innerParts (splitSlashes (relativeDirectory template base).text) := by
    intro hmem
    refine hdown ?_
    rcases (relativeDirectory template base).parts_cases with
      ⟨-, hparts⟩ | ⟨-, hparts | hparts⟩ <;> rw [hparts]
    · exact List.mem_cons_of_mem _ hmem
    · exact List.mem_cons_of_mem _ hmem
    · exact hmem
  -- Without steps up, the relative directory is names alone, so that its parts tell the place.
  obtain ⟨names, hnames⟩ := (exists_names_iff fun _ => Path.inner_of_mem).mpr hup
  refine ⟨names, ?_⟩
  rw [hmodule, List.map_append, ← List.append_assoc, layoutStart]
  cases hrelative : (relativeDirectory template base).isAbsolute with
  | true =>
      have hparts : (relativeDirectory template base).parts = .root :: names.map .name := by
        rcases (relativeDirectory template base).parts_cases with ⟨-, hparts⟩ | ⟨hnot, -⟩
        · rw [hparts, hnames]
        · rw [hrelative] at hnot
          cases hnot
      rw [Path.join, if_pos hrelative, hparts]
      exact ⟨rfl, rfl⟩
  | false =>
      refine ⟨(dropHere_parts hrelative).trans hnames, ?_⟩
      by_cases hempty : outDir.text = []
      · rw [Path.parts_join, Path.parts_eq_nil.mpr hempty, joinParts_nil]
        rw [dropHere_append_names, dropHere_parts hrelative, hnames]
        rfl
      · obtain ⟨first, others, hparts⟩ :=
          List.exists_cons_of_ne_nil (mt Path.parts_eq_nil.mp hempty)
        rw [Path.parts_join_of_ne_nil hrelative hempty, hnames, hparts]
        cases first <;> rfl

/-- Templates that are not alike are laid out apart, if neither their directories nor the
extension lead up, and the directories are all absolute or all not. -/
theorem apart_of_not_alike {p q : Path} (hp : p ∈ templates) (hq : q ∈ templates)
    (hname : ∀ r ∈ templates, (PathPart.name (moduleHead r extension)).Inner)
    (hdown : ∀ r ∈ templates, .up ∉ (relativeDirectory r (commonBase templates)).parts)
    (hextension : .up ∉ restParts extension)
    (hmix : (relativeDirectory p (commonBase templates)).isAbsolute
      = (relativeDirectory q (commonBase templates)).isAbsolute)
    (h : ¬ AlikeButForExtension p q) :
    (outputPath p (commonBase templates) outDir extension).Apart
      (outputPath q (commonBase templates) outDir extension) := by
  obtain ⟨rest, hrest⟩ := (exists_names_iff fun _ => inner_of_mem_restParts).mpr hextension
  obtain ⟨pnames, hpdirectory, hpout⟩ := dropHere_outputPath (hname p hp) (hdown p hp) hrest
  obtain ⟨qnames, hqdirectory, hqout⟩ := dropHere_outputPath (hname q hq) (hdown q hq) hrest
  rw [hmix] at hpdirectory hpout
  refine ⟨_, _, _, hpout, hqout, fun hsame => h ?_⟩
  -- Were the names the same, so would be what stands before the extension's own parts: the
  -- directory and the stem.
  rw [List.append_cons pnames, List.append_cons qnames] at hsame
  obtain ⟨hdirectory, hstart⟩ := List.append_inj' (List.append_cancel_right hsame) rfl
  rw [hdirectory, ← hqdirectory] at hpdirectory
  exact ⟨directory_of_relative (commonBase_prefix_of_mem hp) (commonBase_prefix_of_mem hq)
    hpdirectory, stem_of_moduleHead (List.cons.inj hstart).1⟩

end

/-! ## Files that make a tree -/

/-- What a run relies on in a file system whose files make a tree: no file is found at two
places, and nothing else writes to them. -/
structure Files.IsTree {σ : Type} (files : Files (StateM σ)) : Prop where
  /-- Reading changes nothing. -/
  read_keeps : ∀ p s, ((files.read p).run s).2 = s
  /-- A file that was written is read as it was written. -/
  read_written : ∀ p content s, ((files.write p content).run s).1 = none →
    ((files.read p).run ((files.write p content).run s).2).1 = .ok content
  /-- A file is read as before when another was written, or when this went wrong. -/
  read_elsewhere : ∀ p q, p.Apart q → ∀ content s held, ((files.read q).run s).1 = .ok held →
    ((files.read q).run ((files.write p content).run s).2).1 = .ok held

theorem descend_dropHere (place : Place) (parts : List PathPart) :
    descend place (dropHere parts) = descend place parts := by
  cases parts with
  | nil => rfl
  | cons part rest => cases part <;> rfl

/-- Paths that go apart lead to different places. -/
theorem Path.Apart.place_ne {p q : Path} (h : p.Apart q) (here : Place) :
    p.place here ≠ q.place here := by
  obtain ⟨start, ps, qs, hp, hq, hne⟩ := h
  rw [Path.place, Path.place, ← descend_dropHere, hp, ← descend_dropHere here q.parts, hq,
    descend_append, descend_append, descend_names, descend_names, Ne, List.append_cancel_left_eq]
  exact hne

theorem FileTree.files_isTree : FileTree.files.IsTree where
  read_keeps _ _ := rfl
  read_written _ _ _ h := FileTree.read_of_write h
  read_elsewhere _ _ hapart content t _ hheld :=
    FileTree.read_of_write_elsewhere content hheld (hapart.symm.place_ne t.here)

/-! ## Runs that succeed -/

section

variable {σ : Type} {files : Files (StateM σ)} {results : List (Except BatchFailure CompiledFile)}
  {s : σ}

/-- In a run that succeeds each template has its module. -/
theorem compiled_of_success (h : ((writeInOrder files results).run s).1.failure = none) :
    ∀ result ∈ results, ∃ file, result = .ok file := by
  induction results generalizing s with
  | nil => exact fun _ hresult => absurd hresult List.not_mem_nil
  | cons result rest ih =>
      cases result with
      | error failure => cases h
      | ok first =>
          rw [run_writeInOrder_cons] at h
          split at h
          · cases h
          · intro result hresult
            rcases List.mem_cons.mp hresult with rfl | hrest
            · exact ⟨first, rfl⟩
            · exact ih h result hrest

/-- After a run that succeeds a module is read as it was compiled, if the modules go apart. -/
theorem read_of_success (hfiles : files.IsTree)
    (h : ((writeInOrder files results).run s).1.failure = none)
    (hapart : results.Pairwise fun first second => ∀ file other, first = .ok file →
      second = .ok other → file.output.Apart other.output)
    {file : CompiledFile} (hfile : .ok file ∈ results) :
    ((files.read file.output).run ((writeInOrder files results).run s).2).1
      = .ok (Text.encodeUtf8 file.unit.code.toList) := by
  induction results generalizing s with
  | nil => exact absurd hfile List.not_mem_nil
  | cons result rest ih =>
      rw [List.pairwise_cons] at hapart
      cases result with
      | error failure => cases h
      | ok first =>
          rw [run_writeInOrder_cons] at h ⊢
          split at h
          · cases h
          · next written hwrite =>
              rcases List.mem_cons.mp hfile with heq | hrest
              · -- What is written afterwards goes elsewhere.
                cases heq
                have hwritten := hfiles.read_written file.output
                  (Text.encodeUtf8 file.unit.code.toList) s
                rw [hwrite] at hwritten
                refine writeInOrder_keeps (I := fun s => ((files.read file.output).run s).1
                    = .ok (Text.encodeUtf8 file.unit.code.toList))
                  (fun other hother content s hs => ?_) (hwritten rfl)
                exact hfiles.read_elsewhere _ _ (hapart.1 _ hother file other rfl rfl).symm content
                  s _ hs
              · exact ih h hapart.2 hrest

/-- After a run over templates that succeeds, each template was compiled and its module is
read as it was compiled, if the templates are laid out apart. -/
theorem read_of_run_success {readers : Readers} {templates : List Path} {base outDir : Path}
    {options : Options} (hfiles : files.IsTree) {outcome : BatchOutcome}
    (hrun : ((compileAll readers files templates base outDir options).run s).1 = some outcome)
    (hsuccess : outcome.failure = none)
    (hapart : templates.Pairwise fun p q =>
      (outputPath p base outDir options.partialExtension.toList).Apart
        (outputPath q base outDir options.partialExtension.toList))
    {p : Path} (hp : p ∈ templates) :
    ∃ unit, compileRead readers base outDir options p ((files.read p).run s).1
        = some (.ok ⟨p, outputPath p base outDir options.partialExtension.toList, unit⟩)
      ∧ ((files.read (outputPath p base outDir options.partialExtension.toList)).run
          ((compileAll readers files templates base outDir options).run s).2).1
        = .ok (Text.encodeUtf8 unit.code.toList) := by
  rw [run_compileAll, run_readAll_of_keeps hfiles.read_keeps] at hrun ⊢
  cases hcompile : compileEach readers base outDir options
      (templates.map fun p => (p, ((files.read p).run s).1)) with
  | none =>
      rw [hcompile] at hrun
      cases hrun
  | some results =>
      simp only [hcompile] at hrun ⊢
      rw [← Option.some.inj hrun] at hsuccess
      have hresults := compileEach_eq_some.mp hcompile
      rw [List.map_map] at hresults
      -- Each template has a result, and since the run succeeds this is a module.
      have hmem : compileRead readers base outDir options p ((files.read p).run s).1
          ∈ results.map some := hresults ▸ List.mem_map.mpr ⟨p, hp, rfl⟩
      obtain ⟨result, hresult, hread⟩ := List.mem_map.mp hmem
      obtain ⟨⟨source, output, unit⟩, rfl⟩ := compiled_of_success hsuccess result hresult
      obtain ⟨hsource, houtput⟩ := compileRead_ok hread.symm
      obtain rfl : source = p := hsource
      obtain rfl : output = outputPath source base outDir options.partialExtension.toList := houtput
      have hsome : (results.map some).Pairwise fun first second => ∀ file other,
          first = some (.ok file) → second = some (.ok other) →
            file.output.Apart other.output := by
        rw [← hresults, List.pairwise_map]
        refine hapart.imp fun {q r} hqr first second hfirst hsecond => ?_
        rw [(compileRead_ok hfirst).2, (compileRead_ok hsecond).2]
        exact hqr
      refine ⟨unit, hread.symm, read_of_success hfiles hsuccess ?_ hresult⟩
      exact (List.pairwise_map.mp hsome).imp fun hboth file other hfirst hsecond =>
        hboth file other (congrArg some hfirst) (congrArg some hsecond)

end

/-! ## Modules kept apart -/

/-- Where each template of a search is laid out to, below the common base. -/
def layout (templates : List Path) (outDir : Path) (options : Options) (template : Path) : Path :=
  outputPath template (commonBase templates) outDir options.partialExtension.toList

/-- Two different templates that a search finds are laid out to the same path only if they
are alike but for their extension, provided that modules have names and that an output
directory below the root does not meet relative directories of both kinds. If none are alike,
no path leads up and the relative directories are of one kind, then in files that make a tree
each module is read, after a run that succeeds, as it was compiled from its template. -/
theorem modules_kept_apart (inputs : List Path) (extension : List Char) (outDir : Path)
    (options : Options) :
    (∀ (σ : Type) (files : Files (StateM σ)) (s : σ),
      let templates := ((findTemplates files inputs extension).run s).1
      (∀ p ∈ templates, (PathPart.name (moduleHead p options.partialExtension.toList)).Inner) →
      (outDir.isAbsolute = true → ∀ p ∈ templates, ∀ q ∈ templates,
        (relativeDirectory p (commonBase templates)).isAbsolute
          = (relativeDirectory q (commonBase templates)).isAbsolute) →
      templates.Pairwise fun p q => ¬ p.same q
        ∧ ((layout templates outDir options p).same (layout templates outDir options q) →
          AlikeButForExtension p q))
    ∧ ∀ (readers : Readers) (σ : Type) (files : Files (StateM σ)), files.IsTree → ∀ s : σ,
      let found := (findTemplates files inputs extension).run s
      let templates := found.1
      let run := (compileAll readers files templates (commonBase templates) outDir options).run
        found.2
      (∀ p ∈ templates, (PathPart.name (moduleHead p options.partialExtension.toList)).Inner) →
      (∀ p ∈ templates, ∀ q ∈ templates,
        (relativeDirectory p (commonBase templates)).isAbsolute
          = (relativeDirectory q (commonBase templates)).isAbsolute) →
      (∀ p ∈ templates, .up ∉ (relativeDirectory p (commonBase templates)).parts) →
      .up ∉ restParts options.partialExtension.toList →
      (templates.Pairwise fun p q => ¬ AlikeButForExtension p q) →
      ∀ outcome, run.1 = some outcome → outcome.failure = none →
      ∀ p ∈ templates, ∃ unit,
        compileRead readers (commonBase templates) outDir options p
            ((files.read p).run found.2).1
          = some (.ok ⟨p, layout templates outDir options p, unit⟩)
        ∧ ((files.read (layout templates outDir options p)).run run.2).1
          = .ok (Text.encodeUtf8 unit.code.toList) := by
  constructor
  · intro σ files s templates hnames hmix
    obtain ⟨explored, -, htemplates⟩ := run_findTemplates files inputs extension s
    have hincreasing : templates.Pairwise Path.Before := by
      rw [show templates = templatesOf extension explored from htemplates]
      exact templatesOf_increasing extension explored
    refine hincreasing.imp_of_mem fun {p q} hp hq hbefore => ⟨mt Path.same_iff.mp hbefore.2, ?_⟩
    intro hsame
    exact alike_of_same hp hq (hnames p hp) (hnames q hq) (fun habs => hmix habs p hp q hq)
      (Path.same_iff.mp hsame)
  · intro readers σ files hfiles s found templates run hnames hmix hdown hextension hapart outcome
      hrun hsuccess p hp
    refine read_of_run_success hfiles hrun hsuccess ?_ hp
    exact hapart.imp_of_mem fun {q r} hq hr hnot =>
      apart_of_not_alike hq hr hnames hdown hextension (hmix q hq r hr) hnot

/-- A tree with templates in a source directory, and a run in the directory around it. -/
def sourceTree : FileTree where
  here := [.ofString "work"]
  entries := [([.ofString "work"], .directory),
    ([.ofString "work", .ofString "src"], .directory),
    ([.ofString "work", .ofString "src", .ofString "list"], .directory),
    ([.ofString "work", .ofString "src", .ofString "list", .ofString "row.mustache"],
      .file (RawText.ofString "r")),
    ([.ofString "work", .ofString "src", .ofString "page.mustache"],
      .file (RawText.ofString "p"))]

/-- The templates of the source directory, as they are found from the root. -/
def rootedSources : List Path :=
  [.ofString "/work/src/list/row.mustache", .ofString "/work/src/page.mustache"]

/-- After a run over the source directory, given from the root as the output directory is, the
module of a page is read as it was compiled. -/
theorem modules_kept_apart_of_sources :
    ∃ unit, compileRead .own (commonBase rootedSources) (.ofString "/work/out") .default
        (.ofString "/work/src/page.mustache")
        (sourceTree.read (.ofString "/work/src/page.mustache"))
      = some (.ok ⟨.ofString "/work/src/page.mustache", .ofString "/work/out/page.js", unit⟩)
    ∧ ((compileAll .own FileTree.files rootedSources (commonBase rootedSources)
        (.ofString "/work/out") .default).run sourceTree).2.read (.ofString "/work/out/page.js")
      = .ok (Text.encodeUtf8 unit.code.toList) := by
  have hfound : (findTemplates FileTree.files [.ofString "/work/src"]
      "mustache".toList).run sourceTree = (rootedSources, sourceTree) := by
    rw [FileTree.run_findTemplates]
    exact congrArg (·, sourceTree)
      ((templatesOf_of_pairwise (by decide +kernel)).trans (by decide +kernel))
  have hkept := (modules_kept_apart [.ofString "/work/src"] "mustache".toList
    (.ofString "/work/out") .default).2 .own FileTree FileTree.files FileTree.files_isTree
    sourceTree
  simp only [hfound] at hkept
  obtain ⟨outcome, hrun, hsuccess⟩ : ∃ outcome, ((compileAll .own FileTree.files rootedSources
      (commonBase rootedSources) (.ofString "/work/out") .default).run sourceTree).1 = some outcome
      ∧ outcome.failure = none := by
    have hends : (((compileAll .own FileTree.files rootedSources (commonBase rootedSources)
        (.ofString "/work/out") .default).run sourceTree).1.map BatchOutcome.failure)
          = some none := by
      decide +kernel
    exact Option.map_eq_some_iff.mp hends
  obtain ⟨unit, hcompile, hread⟩ := hkept (by decide +kernel) (by decide +kernel)
    (by decide +kernel) (by decide +kernel) (by decide +kernel) outcome hrun hsuccess
    (.ofString "/work/src/page.mustache") (by decide +kernel)
  have hlayout : layout rootedSources (.ofString "/work/out") .default
      (.ofString "/work/src/page.mustache") = .ofString "/work/out/page.js" := by decide +kernel
  rw [hlayout] at hcompile hread
  exact ⟨unit, hcompile, hread⟩

/-- Templates that differ in their extension. -/
def twins : List Path := [.ofString "a.mustache", .ofString "a.tpl"]

def twinTree : FileTree :=
  ⟨[], [([.ofString "a.mustache"], .file (RawText.ofString "m")),
    ([.ofString "a.tpl"], .file (RawText.ofString "t"))]⟩

/-- Where one of some templates is laid out to, all of them given as texts. -/
def laidOut (templates : List String) (outDir extension template : String) : Path :=
  layout (templates.map .ofString) (.ofString outDir)
    { Options.default with partialExtension := extension } (.ofString template)

/-- Two templates that differ in their extension are found and laid out to one path. A run
over both succeeds and leaves one module. None of the other conditions can be left out: modules
without a name, or below an output directory of the root with templates of both kinds, are laid
out to one path from different directories; and different paths lead to one file where templates
are of both kinds, a template leads up, or the extension does. -/
theorem modules_laid_on_each_other :
    ((findTemplates FileTree.files twins "mustache".toList).run twinTree).1 = twins
      ∧ layout twins (.ofString "out") .default (.ofString "a.mustache")
        = layout twins (.ofString "out") .default (.ofString "a.tpl")
      ∧ ((compileAll .own FileTree.files twins (commonBase twins) (.ofString "out")
          .default).run twinTree).1.map BatchOutcome.failure = some none
      ∧ ((compileAll .own FileTree.files twins (commonBase twins) (.ofString "out")
          .default).run twinTree).2.filesBelow [.ofString "out"] = [[.ofString "a.js"]]
      ∧ (laidOut ["b/...x", "b/../..x"] "o" "" "b/...x").same
          (laidOut ["b/...x", "b/../..x"] "o" "" "b/../..x") = true
      ∧ (laidOut ["/o/a.tpl", "a.mustache"] "/o" ".js" "/o/a.tpl").same
          (laidOut ["/o/a.tpl", "a.mustache"] "/o" ".js" "a.mustache") = true
      ∧ (laidOut ["/w/o/a.tpl", "a.mustache"] "o" ".js" "/w/o/a.tpl").place [.ofString "w"]
        = (laidOut ["/w/o/a.tpl", "a.mustache"] "o" ".js" "a.mustache").place [.ofString "w"]
      ∧ (laidOut ["a/../b/c.tpl", "b/c.mustache"] "o" ".js" "a/../b/c.tpl").place []
        = (laidOut ["a/../b/c.tpl", "b/c.mustache"] "o" ".js" "b/c.mustache").place []
      ∧ (laidOut ["a.mustache", "b.mustache"] "o" "/../c.js" "a.mustache").place []
        = (laidOut ["a.mustache", "b.mustache"] "o" "/../c.js" "b.mustache").place [] := by
  -- Only the search is a sort, which is settled by its result; the rest is computed.
  refine ⟨?_, by decide +kernel, by decide +kernel, by decide +kernel, by decide +kernel,
    by decide +kernel, by decide +kernel, by decide +kernel, by decide +kernel⟩
  rw [FileTree.run_findTemplates]
  exact (templatesOf_of_pairwise (by decide +kernel)).trans (by decide +kernel)

end Mustache
