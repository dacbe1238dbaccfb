import Mustache.Proofs.Batch.Progress
import Mustache.Proofs.Batch.Storage

/-!
What a batch leaves behind.

A batch reads all templates, and only then writes modules, in the order of the templates, up
to the first template that fails (`batch_stops_at_first_failure`). In a file tree the files
after a batch are those before it, but for the last module that was written to each place.
One that a template breaks leaves everything as it was, whatever the templates before that
one (`batch_broken_by_table`).
-/
set_option autoImplicit false

namespace Mustache

/-! ## Files at their places -/

namespace FileTree

/-- What the file at a place holds, if there is one. -/
def contentAt (t : FileTree) (place : Place) : Option (List UInt8) :=
  match t.lookup? place with
  | some (.file content) => some content
  | _ => none

theorem contentAt_eq_some {t : FileTree} {place : Place} {content : List UInt8} :
    t.contentAt place = some content ↔ t.lookup? place = some (.file content) := by
  unfold contentAt
  split
  · next held hlookup => rw [hlookup, Option.some.injEq, Option.some.injEq, FileItem.file.injEq]
  · next hnot =>
      constructor
      · intro h
        cases h
      · intro h
        exact absurd h (hnot content)

/-- Making directories leaves the files as they are. -/
theorem Grown.contentAt {ps : List PathPart} {t u : FileTree} (h : Grown ps t u) (place : Place) :
    u.contentAt place = t.contentAt place := by
  unfold FileTree.contentAt
  rcases h.lookup place with hsame | ⟨hnone, hmade, -⟩
  · rw [hsame]
  · rw [hnone, hmade]

/-- Writing changes the file at the place of the path, unless it goes wrong. -/
theorem contentAt_write (t : FileTree) (p : Path) (content : List UInt8) (place : Place) :
    (t.write p content).1.contentAt place
      = if (t.write p content).2 = none ∧ p.place t.here = place then some content
        else t.contentAt place := by
  rcases t.write_cases p content with ⟨hfault, hgrown⟩ | ⟨hdone, made, hgrown, hwritten⟩
  · rw [if_neg fun h => hfault h.1, hgrown.contentAt]
  · obtain ⟨hplace, -, heq, -, -⟩ := writeFile_ok hwritten
    rw [hgrown.here] at hplace heq
    by_cases hsame : p.place t.here = place
    · rw [if_pos ⟨hdone, hsame⟩, contentAt_eq_some, heq, lookup?_put made hplace, if_pos hsame.symm]
    · rw [if_neg fun h => hsame h.2, ← hgrown.contentAt]
      unfold contentAt
      rw [heq, lookup?_put made hplace, if_neg (Ne.symm hsame)]

/-- A path that may be followed may be followed after a file was written. -/
theorem follow_of_write {t : FileTree} (p : Path) (content : List UInt8) {place target : Place}
    {segments : List RawText} (h : t.follow place segments = .ok target) :
    (t.write p content).1.follow place segments = .ok target :=
  follow_of_directories
    (fun _ hdirectory => t.write_keeps p content hdirectory (.inr rfl)) h

/-- The bytes of the last of the modules that go to a place, in a run that is in the directory
`here`. -/
def latestAt (here : Place) (modules : List CompiledFile) (place : Place) : Option (List UInt8) :=
  ((modules.filter fun file => file.output.place here = place).map
    CompiledFile.content).getLast?

theorem latestAt_cons (here : Place) (file : CompiledFile) (modules : List CompiledFile)
    (place : Place) :
    latestAt here (file :: modules) place
      = (latestAt here modules place).or
          (if file.output.place here = place then some file.content else none) := by
  unfold latestAt
  by_cases hplace : file.output.place here = place
  · rw [List.filter_cons_of_pos (by simpa using hplace), if_pos hplace, List.map_cons,
      List.getLast?_cons]
    cases ((modules.filter fun file => file.output.place here = place).map
      CompiledFile.content).getLast? <;> rfl
  · rw [List.filter_cons_of_neg (by simpa using hplace), if_neg hplace, Option.or_none]

/-- Whether modules can be written one after another. -/
def AllStored : FileTree → List CompiledFile → Prop
  | _, [] => True
  | t, file :: rest =>
      (t.write file.output file.content).2 = none
        ∧ AllStored (t.write file.output file.content).1 rest

theorem storeAll_cons (t : FileTree) (file : CompiledFile) (rest : List CompiledFile) :
    FileTree.files.storeAll t (file :: rest)
      = FileTree.files.storeAll (t.write file.output file.content).1 rest := rfl

/-- After modules were written, a place holds the last one that went there, and otherwise
what it held before. -/
theorem contentAt_storeAll {t : FileTree} {modules : List CompiledFile} (h : AllStored t modules)
    (place : Place) :
    (FileTree.files.storeAll t modules).contentAt place
      = (latestAt t.here modules place).or (t.contentAt place) := by
  induction modules generalizing t with
  | nil => rfl
  | cons file rest ih =>
      rw [storeAll_cons, ih h.2, here_write, latestAt_cons, contentAt_write, Option.or_assoc]
      congr 1
      by_cases hplace : file.output.place t.here = place
      · rw [if_pos ⟨h.1, hplace⟩, if_pos hplace, Option.some_or]
      · rw [if_neg fun hboth => hplace hboth.2, if_neg hplace, Option.none_or]

@[simp] theorem here_storeAll (t : FileTree) (modules : List CompiledFile) :
    (FileTree.files.storeAll t modules).here = t.here := by
  induction modules generalizing t with
  | nil => rfl
  | cons file rest ih => rw [storeAll_cons, ih, here_write]

theorem follow_of_storeAll {t : FileTree} (modules : List CompiledFile) {place target : Place}
    {segments : List RawText} (h : t.follow place segments = .ok target) :
    (FileTree.files.storeAll t modules).follow place segments = .ok target := by
  induction modules generalizing t with
  | nil => exact h
  | cons file rest ih => exact ih (follow_of_write file.output file.content h)

/-- The path of a module that was written leads to its place. -/
theorem follow_of_allStored {t : FileTree} {modules : List CompiledFile}
    (h : AllStored t modules) {file : CompiledFile} (hfile : file ∈ modules) :
    usable file.output = .ok ()
      ∧ (FileTree.files.storeAll t modules).follow (t.start file.output)
          (splitSlashes file.output.text) = .ok (file.output.place t.here) := by
  induction modules generalizing t with
  | nil => exact absurd hfile List.not_mem_nil
  | cons first rest ih =>
      rcases List.mem_cons.mp hfile with rfl | hrest
      · obtain ⟨husable, hfollow, -⟩ := read_eq_ok.mp (read_of_write h.1)
        rw [start_write, here_write] at hfollow
        exact ⟨husable, follow_of_storeAll rest hfollow⟩
      · have hlater := ih h.2 hrest
        rwa [start_write, here_write] at hlater

theorem exists_latestAt (here : Place) {modules : List CompiledFile} {file : CompiledFile}
    (hfile : file ∈ modules) :
    ∃ last, latestAt here modules (file.output.place here) = some last := by
  unfold latestAt
  apply Option.ne_none_iff_exists'.mp
  rw [Ne, List.getLast?_eq_none_iff, List.map_eq_nil_iff, List.filter_eq_nil_iff]
  intro hnone
  exact hnone file hfile (by simp)

section

variable {readers : Readers} {base outDir : Path} {options : Options}
  {read : List (Path × Except FileFault (List UInt8))}
  {results : List (Except BatchFailure CompiledFile)} {t : FileTree} {i : Nat}

/-- Nothing goes wrong with the modules before the position that a batch comes to. -/
theorem allStored_of_getsTo (h : GetsTo readers FileTree.files base outDir options read t i)
    (hresults : compileEach readers base outDir options read = some results) :
    AllStored t (compiledModules readers base outDir options (read.take i)) := by
  induction read generalizing t i results with
  | nil => simp [compiledModules, AllStored]
  | cons first rest ih =>
      obtain ⟨template, content⟩ := first
      cases i with
      | zero => trivial
      | succ i =>
          obtain ⟨file, more, hfile, hwritten, -, hmore, hrest⟩ := h.of_cons hresults
          rw [List.take_succ_cons, compiledModules_cons hfile]
          exact ⟨hwritten, ih hrest hmore⟩

/-- The last request of a batch, if it goes wrong, changes no file and no path. -/
theorem stays_of_getsTo (h : GetsTo readers FileTree.files base outDir options read t i)
    (hresults : compileEach readers base outDir options read = some results) :
    let before :=
      FileTree.files.storeAll t (compiledModules readers base outDir options (read.take i))
    let after :=
      FileTree.files.storeAll t (compiledModules readers base outDir options (read.take (i + 1)))
    (∀ place, after.contentAt place = before.contentAt place)
      ∧ ∀ start segments target, before.follow start segments = .ok target →
        after.follow start segments = .ok target := by
  intro before after
  -- Unless there is one more module, both trees are the same.
  have hsame (hmodules : compiledModules readers base outDir options (read.take (i + 1))
      = compiledModules readers base outDir options (read.take i)) : after = before :=
    congrArg (FileTree.files.storeAll t) hmodules
  by_cases hlt : i < read.length
  · have hsplit : compiledModules readers base outDir options (read.take (i + 1))
        = compiledModules readers base outDir options (read.take i)
          ++ compiledModules readers base outDir options [read[i]] := by
      rw [List.take_add_one, List.getElem?_eq_getElem hlt]
      exact List.filterMap_append
    have hfails := h.fails hlt
    unfold failureAt at hfails
    rw [List.getElem?_eq_getElem hlt, Option.bind_some] at hfails
    change failureOf? readers FileTree.files base outDir options before read[i].1 read[i].2 ≠ none
      at hfails
    obtain ⟨result, hcompile⟩ : ∃ result,
        compileRead readers base outDir options read[i].1 read[i].2 = some result := by
      apply Option.ne_none_iff_exists'.mp
      intro hnone
      have hbroken : compileEach readers base outDir options read = none :=
        (compileEach_eq_none_iff _ _).mpr
          ⟨read[i], List.getElem_mem hlt, (compileRead_eq_none_iff _ _).mp hnone⟩
      rw [hresults] at hbroken
      cases hbroken
    cases result with
    | error failure =>
        have hnone : compiledModules readers base outDir options [read[i]] = [] :=
          compiledModules_cons_of_error hcompile
        rw [hnone, List.append_nil] at hsplit
        rw [hsame hsplit]
        exact ⟨fun _ => rfl, fun _ _ _ hfollow => hfollow⟩
    | ok file =>
        rw [failureOf?_of_ok FileTree.files hcompile] at hfails
        have hfault : (before.write file.output file.content).2 ≠ none := fun hnone =>
          hfails (Option.map_eq_none_iff.mpr hnone)
        have hafter : after = (before.write file.output file.content).1 := by
          have hone : compiledModules readers base outDir options [read[i]] = [file] :=
            compiledModules_cons hcompile
          show FileTree.files.storeAll t (compiledModules readers base outDir options _) = _
          rw [hsplit, hone, Files.storeAll, List.foldl_append]
          rfl
        rw [hafter]
        refine ⟨fun place => ?_, fun _ _ _ hfollow => follow_of_write _ _ hfollow⟩
        rw [contentAt_write, if_neg fun hboth => hfault hboth.1]
  · have hwhole : read.take (i + 1) = read.take i := by
      rw [List.take_of_length_le (by omega), List.take_of_length_le (by omega)]
    rw [hsame (by rw [hwhole])]
    exact ⟨fun _ => rfl, fun _ _ _ hfollow => hfollow⟩

/-- The files after a batch are those before it, but for the last module at each place. -/
theorem contentAt_of_getsTo (h : GetsTo readers FileTree.files base outDir options read t i)
    (hresults : compileEach readers base outDir options read = some results) (place : Place) :
    (FileTree.files.storeAll t
        (compiledModules readers base outDir options (read.take (i + 1)))).contentAt place
      = (latestAt t.here (compiledModules readers base outDir options (read.take i)) place).or
          (t.contentAt place) :=
  ((stays_of_getsTo h hresults).1 place).trans
    (contentAt_storeAll (allStored_of_getsTo h hresults) place)

/-- Each module is read back after a batch as the last one at its place. -/
theorem read_of_getsTo (h : GetsTo readers FileTree.files base outDir options read t i)
    (hresults : compileEach readers base outDir options read = some results) {file : CompiledFile}
    (hfile : file ∈ compiledModules readers base outDir options (read.take i)) :
    ∃ last,
      latestAt t.here (compiledModules readers base outDir options (read.take i))
          (file.output.place t.here) = some last
        ∧ (FileTree.files.storeAll t
            (compiledModules readers base outDir options (read.take (i + 1)))).read file.output
          = .ok last := by
  obtain ⟨last, hlast⟩ := exists_latestAt t.here hfile
  obtain ⟨husable, hfollow⟩ := follow_of_allStored (allStored_of_getsTo h hresults) hfile
  -- What was written last to the place is there, and no later writing changes the way to it.
  refine ⟨last, hlast, read_eq_ok.mpr ⟨husable, ?_, ?_⟩⟩
  · rw [start, here_storeAll, ← start]
    exact (stays_of_getsTo h hresults).2 _ _ _ hfollow
  · rw [here_storeAll, ← contentAt_eq_some, contentAt_of_getsTo h hresults, hlast, Option.some_or]

end

end FileTree

/-! ## Batches -/

/-- A batch asks for all templates first. If one of those that were read breaks it, it ends
there: nothing was written. Otherwise it asks, in the order of the templates, for the
modules to be written, up to the first template that cannot be read, does not compile, or
whose module cannot be written once those before it were. It ends with the failure of that
template, or with none if there is no such template, and with the modules of the templates
before it, each compiled from what was read of its template. What was asked for, and the
state that this left, tell that no module behind that template was written. In a file tree
the files after the batch are those before it, but for the last module at each place, and
each module is read back as the last one at its place. -/
theorem batch_stops_at_first_failure (readers : Readers) (templates : List Path)
    (base outDir : Path) (options : Options) :
    (∀ (σ : Type) (files : Files (StateM σ)) (s : σ),
      let reading := (readAll files templates).run s
      let modules := fun i => compiledModules readers base outDir options (reading.1.take i)
      let noted := (compileAll readers files.noted templates base outDir options).run (s, [])
      reading.1.map Prod.fst = templates
        ∧ (compileAll readers files templates base outDir options).run s = (noted.1, noted.2.1)
        ∧ (((∃ entry ∈ reading.1, Breaks readers options entry.1 entry.2)
            ∧ noted = (none, reading.2, templates.map .read))
          ∨ (¬ (∃ entry ∈ reading.1, Breaks readers options entry.1 entry.2)
            ∧ ∃ results i, compileEach readers base outDir options reading.1 = some results
              ∧ GetsTo readers files base outDir options reading.1 reading.2 i
              ∧ results.take i = (modules i).map .ok
              ∧ (modules i).map CompiledFile.source = templates.take i
              ∧ noted.1 = some ⟨modules i,
                failureAt readers files base outDir options reading.1 reading.2 i⟩
              ∧ (failureAt readers files base outDir options reading.1 reading.2 i = none
                ↔ i = templates.length)
              ∧ noted.2.1 = files.storeAll reading.2 (modules (i + 1))
              ∧ noted.2.2 = templates.map .read ++ (modules (i + 1)).map CompiledFile.request)))
    ∧ ∀ t : FileTree,
      let read := templates.map fun template => (template, t.read template)
      let modules := fun i => compiledModules readers base outDir options (read.take i)
      let run := (compileAll readers FileTree.files templates base outDir options).run t
      ((∃ entry ∈ read, Breaks readers options entry.1 entry.2) ∧ run = (none, t))
        ∨ (¬ (∃ entry ∈ read, Breaks readers options entry.1 entry.2)
          ∧ ∃ i, GetsTo readers FileTree.files base outDir options read t i
            ∧ run.1 = some ⟨modules i,
              failureAt readers FileTree.files base outDir options read t i⟩
            ∧ (∀ place, run.2.contentAt place
              = (FileTree.latestAt t.here (modules i) place).or (t.contentAt place))
            ∧ ∀ file ∈ modules i, ∃ last,
              FileTree.latestAt t.here (modules i) (file.output.place t.here) = some last
                ∧ run.2.read file.output = .ok last) := by
  constructor
  · intro σ files s reading modules noted
    have htemplates : reading.1.map Prod.fst = templates := map_fst_readAll files templates s
    refine ⟨htemplates, run_compileAll_noted readers files templates base outDir options s, ?_⟩
    cases hcompile : compileEach readers base outDir options reading.1 with
    | none =>
        exact .inl ⟨(compileEach_eq_none_iff _ _).mp hcompile, run_noted_compileAll_of_none hcompile⟩
    | some results =>
        have hunbroken : ¬ ∃ entry ∈ reading.1, Breaks readers options entry.1 entry.2 := by
          rw [← compileEach_eq_none_iff base outDir, hcompile]
          exact nofun
        obtain ⟨i, hi⟩ := exists_getsTo readers files base outDir options hcompile reading.2
        have hsource := hi.map_source hcompile
        rw [htemplates] at hsource
        have hends := hi.failureAt_eq_none_iff
        rw [← List.length_map (f := Prod.fst), htemplates] at hends
        have hrun := run_noted_compileAll_of_some hcompile hi
        refine .inr ⟨hunbroken, results, i, rfl, hi, hi.take_results hcompile, hsource, ?_⟩
        show noted.1 = _ ∧ _ ∧ noted.2.1 = _ ∧ noted.2.2 = _
        rw [show noted = _ from hrun]
        exact ⟨rfl, hends, rfl, rfl⟩
  · intro t read modules run
    -- Reading leaves the tree as it is, so that each template is read of the tree before.
    have hreading : (readAll FileTree.files templates).run t = (read, t) :=
      FileTree.run_readAll templates t
    have hnoted : run = _ :=
      run_compileAll_noted readers FileTree.files templates base outDir options t
    cases hcompile : compileEach readers base outDir options read with
    | none =>
        refine .inl ⟨(compileEach_eq_none_iff _ _).mp hcompile, ?_⟩
        rw [hnoted, run_noted_compileAll_of_none (by rw [hreading]; exact hcompile), hreading]
    | some results =>
        obtain ⟨i, hi⟩ := exists_getsTo readers FileTree.files base outDir options hcompile t
        have hrun : run
            = (some ⟨modules i, failureAt readers FileTree.files base outDir options read t i⟩,
              FileTree.files.storeAll t (modules (i + 1))) := by
          rw [hnoted, run_noted_compileAll_of_some (i := i) (by rw [hreading]; exact hcompile)
            (by rw [hreading]; exact hi), hreading]
        refine .inr ⟨?_, i, hi, by rw [hrun], fun place => ?_, fun file hfile => ?_⟩
        · rw [← compileEach_eq_none_iff base outDir, hcompile]
          exact nofun
        · rw [hrun]
          exact FileTree.contentAt_of_getsTo hi hcompile place
        · rw [hrun]
          exact FileTree.read_of_getsTo hi hcompile hfile

/-- A tree with a template that compiles and one with text in a table behind a Kelvin sign. -/
def brokenTree : FileTree where
  here := []
  entries := [([.ofString "a.mustache"], .file (RawText.ofString "ok")),
    ([.ofString "b.mustache"], .file (Text.encodeUtf8 signAndTable))]

/-- The second template has the batch end without a failure and without the module of the
first. -/
theorem batch_broken_by_table :
    (compileAll .own FileTree.files [.ofString "a.mustache", .ofString "b.mustache"] .empty
        (.ofString "out") { Options.default with target := .structural }).run brokenTree
      = (none, brokenTree) := by
  have hbreaks : Breaks .own { Options.default with target := .structural }
      (.ofString "b.mustache") (brokenTree.read (.ofString "b.mustache")) :=
    ⟨signAndTable, by decide +kernel, rfl, by decide +kernel, by decide +kernel⟩
  rw [run_compileAll, FileTree.run_readAll]
  simp only [List.map_cons, List.map_nil]
  rw [(compileEach_eq_none_iff _ _).mpr
    ⟨(.ofString "b.mustache", brokenTree.read (.ofString "b.mustache")), by simp, hbreaks⟩]

-- The second of three templates leaves a block open: the first module alone is written.
example :
    let run := (compileAll .own FileTree.files
        [.ofString "a.mustache", .ofString "b.mustache", .ofString "c.mustache"] .empty
        (.ofString "out") .default).run
      ⟨[], [([.ofString "a.mustache"], .file (RawText.ofString "ok")),
        ([.ofString "b.mustache"], .file (RawText.ofString "\x7b\x7b#open\x7d\x7d")),
        ([.ofString "c.mustache"], .file (RawText.ofString "ok"))]⟩
    run.1.bind BatchOutcome.failure
        = some (.template (.ofString "b.mustache") (.missingEnd "b.mustache"))
      ∧ run.2.filesBelow [.ofString "out"] = [[.ofString "a.js"]] := by
  decide +kernel

end Mustache
