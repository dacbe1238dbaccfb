import Mustache.Proofs.Batch.Runs
import Mustache.Proofs.Template.TablePlace

/-!
How far a batch gets.

A template fails if it cannot be read, if it does not compile, or if its module cannot be
written once the modules before it were. Positions tell how far a batch gets before the
first template fails (`GetsTo`): it ends with the modules of the templates before that
position, and asks for nothing beyond it (`GetsTo.run_writeInOrder`). The file system is any
that keeps a state. So that the order of reading and writing can be told, it is taken with
a note of what it was asked for.

All templates are compiled before the first module is written. So where one of them breaks
the program (`Breaks`), whatever its place, the batch has written nothing and returns nothing.
-/
set_option autoImplicit false

namespace Mustache

/-! ## Requests -/

/-- What a batch asks a file system for. -/
inductive FileRequest where
  | read (path : Path)
  | write (path : Path) (content : List UInt8)
  deriving DecidableEq, Repr

/-- A file system that keeps a note of what it was asked for, the latest request last. -/
def Files.noted {σ : Type} (files : Files (StateM σ)) :
    Files (StateM (σ × List FileRequest)) where
  explore p := modifyGet fun (s, asked) =>
    let (found, s) := (files.explore p).run s
    (found, s, asked)
  read p := modifyGet fun (s, asked) =>
    let (content, s) := (files.read p).run s
    (content, s, asked ++ [.read p])
  write p content := modifyGet fun (s, asked) =>
    let (fault, s) := (files.write p content).run s
    (fault, s, asked ++ [.write p content])

/-- The bytes of a module. -/
def CompiledFile.content (file : CompiledFile) : List UInt8 :=
  Text.encodeUtf8 file.unit.code.toList

/-- The request that writes a module. -/
def CompiledFile.request (file : CompiledFile) : FileRequest :=
  .write file.output file.content

/-! ## Templates that break a batch -/

/-- Whether a template breaks a batch: it is read, and there is text in a table of its
document, but the place where the first table is looked up is inside a character. -/
def Breaks (readers : Readers) (options : Options) (template : Path)
    (content : Except FileFault (List UInt8)) : Prop :=
  ∃ text, textOf content = .ok text ∧ options.target = .structural
    ∧ (readers.document ((walkOf (Text.dropByteOrderMark text)
        template.toString).placeholders.hide (Text.dropByteOrderMark text))).foundTableText = true
    ∧ tableLine? (Text.dropByteOrderMark text) = none

/-- Compiling breaks just if reading the template does, which only a structural one can. -/
theorem compile_eq_none_iff {readers : Readers} {source : List Char} {file : String}
    {options : Options} :
    compile readers source file options = none
      ↔ options.target = .structural
        ∧ (readers.document ((walkOf source file).placeholders.hide source)).foundTableText = true
        ∧ tableLine? source = none := by
  rw [compile, Option.map_eq_none_iff, Tree.read, Option.map_eq_none_iff]
  cases options.target with
  | flat => simp [readNodes]
  | structural => simp [readNodes, readStructural_eq_none_iff]

theorem compileRead_eq_none_iff (base outDir : Path) {readers : Readers} {template : Path}
    {options : Options} {content : Except FileFault (List UInt8)} :
    compileRead readers base outDir options template content = none
      ↔ Breaks readers options template content := by
  unfold compileRead Breaks
  cases textOf content with
  | error fault => simp
  | ok text =>
      simp only [Except.ok.injEq, exists_eq_left', ← compile_eq_none_iff]
      cases compile readers (Text.dropByteOrderMark text) template.toString options with
      | none => simp
      | some result => cases result <;> simp

/-- Templates can be compiled if none of them breaks the batch. -/
theorem compileEach_eq_none_iff (base outDir : Path) {readers : Readers} {options : Options}
    {read : List (Path × Except FileFault (List UInt8))} :
    compileEach readers base outDir options read = none
      ↔ ∃ entry ∈ read, Breaks readers options entry.1 entry.2 := by
  induction read with
  | nil => simp [compileEach]
  | cons first rest ih =>
      obtain ⟨template, content⟩ := first
      rw [compileEach_cons, List.exists_mem_cons_iff, ← ih,
        ← compileRead_eq_none_iff base outDir]
      cases compileRead readers base outDir options template content with
      | none => simp
      | some result => simp [Option.map_eq_none_iff]

/-! ## Failures -/

section

variable {σ : Type} (readers : Readers) (files : Files (StateM σ)) (base outDir : Path)
  (options : Options)

/-- The state after a module was written, or after this went wrong. -/
def Files.store (s : σ) (file : CompiledFile) : σ :=
  ((files.write file.output file.content).run s).2

/-- The state after modules were written one after another. -/
def Files.storeAll (s : σ) (modules : List CompiledFile) : σ :=
  modules.foldl files.store s

/-- The modules of those templates that were read and compile. -/
def compiledModules (read : List (Path × Except FileFault (List UInt8))) : List CompiledFile :=
  read.filterMap fun (template, content) =>
    (compileRead readers base outDir options template content).bind Except.toOption

/-- What goes wrong with a template in a state of the file system, if anything does: it
could not be read, which is reported with its path; it does not compile, which is reported
with its path too; or its module cannot be written, which is reported with the path of the
module. Of a template that breaks the batch nothing is reported. -/
def failureOf? (s : σ) (template : Path) (content : Except FileFault (List UInt8)) :
    Option BatchFailure :=
  match textOf content with
  | .error fault => some (.file template fault)
  | .ok text =>
      match compile readers (Text.dropByteOrderMark text) template.toString options with
      | none => none
      | some (.error error) => some (.template template error)
      | some (.ok unit) =>
          let output := outputPath template base outDir options.partialExtension.toList
          ((files.write output (Text.encodeUtf8 unit.code.toList)).run s).1.map
            (BatchFailure.file output)

/-- What goes wrong with the template at a position, once the modules of the templates
before it were written. -/
def failureAt (read : List (Path × Except FileFault (List UInt8))) (s : σ) (i : Nat) :
    Option BatchFailure :=
  read[i]?.bind fun (template, content) =>
    failureOf? readers files base outDir options
      (files.storeAll s (compiledModules readers base outDir options (read.take i)))
      template content

/-- Whether a batch comes to a position: nothing goes wrong before it, and something does
at the position itself, unless all templates are done there. -/
structure GetsTo (read : List (Path × Except FileFault (List UInt8))) (s : σ) (i : Nat) :
    Prop where
  le : i ≤ read.length
  before : ∀ j < i, failureAt readers files base outDir options read s j = none
  fails : i < read.length → failureAt readers files base outDir options read s i ≠ none

/-! ## One template -/

section

variable {readers base outDir options} {s : σ} {template : Path}
  {content : Except FileFault (List UInt8)}

/-- What goes wrong with a template is what leaves it without a module, or else what goes
wrong when this is written. -/
theorem failureOf?_eq (s : σ) (template : Path) (content : Except FileFault (List UInt8)) :
    failureOf? readers files base outDir options s template content
      = match compileRead readers base outDir options template content with
        | none => none
        | some (.error failure) => some failure
        | some (.ok file) => ((files.write file.output file.content).run s).1.map
            (BatchFailure.file file.output) := by
  unfold failureOf? compileRead
  cases textOf content with
  | error fault => rfl
  | ok text =>
      dsimp only
      cases compile readers (Text.dropByteOrderMark text) template.toString options with
      | none => rfl
      | some result => cases result <;> rfl

theorem failureOf?_of_error {failure : BatchFailure}
    (h : compileRead readers base outDir options template content = some (.error failure)) :
    failureOf? readers files base outDir options s template content = some failure := by
  rw [failureOf?_eq, h]

theorem failureOf?_of_ok {file : CompiledFile}
    (h : compileRead readers base outDir options template content = some (.ok file)) :
    failureOf? readers files base outDir options s template content
      = ((files.write file.output file.content).run s).1.map (BatchFailure.file file.output) := by
  rw [failureOf?_eq, h]

/-- A template that was compiled, and with which nothing goes wrong, has a module, and that
can be written. -/
theorem exists_module_of_failureOf?_none {result : Except BatchFailure CompiledFile}
    (hresult : compileRead readers base outDir options template content = some result)
    (h : failureOf? readers files base outDir options s template content = none) :
    ∃ file, result = .ok file ∧ ((files.write file.output file.content).run s).1 = none := by
  cases result with
  | error failure =>
      rw [failureOf?_of_error files hresult] at h
      cases h
  | ok file =>
      rw [failureOf?_of_ok files hresult] at h
      exact ⟨file, rfl, Option.map_eq_none_iff.mp h⟩

end

/-! ## Positions -/

section

variable {readers base outDir options} {template : Path}
  {content : Except FileFault (List UInt8)}
  {rest : List (Path × Except FileFault (List UInt8))} {file : CompiledFile}

theorem compiledModules_cons
    (h : compileRead readers base outDir options template content = some (.ok file)) :
    compiledModules readers base outDir options ((template, content) :: rest)
      = file :: compiledModules readers base outDir options rest := by
  apply List.filterMap_cons_some
  show (compileRead readers base outDir options template content).bind Except.toOption = some file
  rw [h]
  rfl

theorem compiledModules_cons_of_error {failure : BatchFailure}
    (h : compileRead readers base outDir options template content = some (.error failure)) :
    compiledModules readers base outDir options ((template, content) :: rest)
      = compiledModules readers base outDir options rest := by
  apply List.filterMap_cons_none
  show (compileRead readers base outDir options template content).bind Except.toOption = none
  rw [h]
  rfl

/-- Behind a template that compiles, positions are counted from the state in which its
module was written. -/
theorem failureAt_succ
    (h : compileRead readers base outDir options template content = some (.ok file)) (s : σ)
    (i : Nat) :
    failureAt readers files base outDir options ((template, content) :: rest) s (i + 1)
      = failureAt readers files base outDir options rest (files.store s file) i := by
  unfold failureAt
  rw [List.getElem?_cons_succ, List.take_succ_cons, compiledModules_cons h]
  rfl

end

theorem failureAt_zero (template : Path) (content : Except FileFault (List UInt8))
    (rest : List (Path × Except FileFault (List UInt8))) (s : σ) :
    failureAt readers files base outDir options ((template, content) :: rest) s 0
      = failureOf? readers files base outDir options s template content := rfl

/-- Nothing goes wrong behind the last template. -/
theorem failureAt_length (read : List (Path × Except FileFault (List UInt8))) (s : σ) :
    failureAt readers files base outDir options read s read.length = none := by
  unfold failureAt
  rw [List.getElem?_length]
  rfl

/-- A batch ends without a failure if it comes behind the last template. -/
theorem GetsTo.failureAt_eq_none_iff {read : List (Path × Except FileFault (List UInt8))} {s : σ}
    {i : Nat} (h : GetsTo readers files base outDir options read s i) :
    failureAt readers files base outDir options read s i = none ↔ i = read.length := by
  constructor
  · intro hnone
    by_contra hne
    exact h.fails (Nat.lt_of_le_of_ne h.le hne) hnone
  · rintro rfl
    exact failureAt_length readers files base outDir options read s

/-- A batch that does not break comes to some position. -/
theorem exists_getsTo {read : List (Path × Except FileFault (List UInt8))}
    {results : List (Except BatchFailure CompiledFile)}
    (hresults : compileEach readers base outDir options read = some results) (s : σ) :
    ∃ i, GetsTo readers files base outDir options read s i := by
  induction read generalizing s results with
  | nil =>
      refine ⟨0, Nat.le_refl 0, ?_, ?_⟩
      · intro j hj
        exact absurd hj (Nat.not_lt_zero j)
      · intro hlt
        exact absurd hlt (Nat.lt_irrefl 0)
  | cons first rest ih =>
      obtain ⟨template, content⟩ := first
      obtain ⟨result, more, hresult, hmore, -⟩ := compileEach_cons_eq_some.mp hresults
      -- The position is that in the rest, moved by one, unless the first template fails. The rest
      -- is written to the files as the first module leaves them, so the state is general.
      by_cases hfirst : failureOf? readers files base outDir options s template content = none
      · obtain ⟨file, rfl, -⟩ := exists_module_of_failureOf?_none files hresult hfirst
        obtain ⟨i, hi⟩ := ih hmore (files.store s file)
        refine ⟨i + 1, Nat.succ_le_succ hi.le, ?_, ?_⟩
        · intro j hj
          cases j with
          | zero => exact hfirst
          | succ j =>
              rw [failureAt_succ files hresult]
              exact hi.before j (by omega)
        · intro hlt
          rw [failureAt_succ files hresult]
          exact hi.fails (by simpa using hlt)
      · exact ⟨0, Nat.zero_le _, fun j hj => absurd hj (Nat.not_lt_zero j), fun _ => hfirst⟩

/-! ## The run -/

variable {readers files base outDir options}
  {read : List (Path × Except FileFault (List UInt8))}
  {results : List (Except BatchFailure CompiledFile)} {s : σ} {i : Nat}

/-- With the first template nothing goes wrong if the batch comes beyond it, and the batch
goes on from the state in which its module was written. -/
theorem GetsTo.of_cons {template : Path} {content : Except FileFault (List UInt8)}
    (h : GetsTo readers files base outDir options ((template, content) :: read) s (i + 1))
    (hresults : compileEach readers base outDir options ((template, content) :: read)
      = some results) :
    ∃ file more, compileRead readers base outDir options template content = some (.ok file)
      ∧ ((files.write file.output file.content).run s).1 = none
      ∧ results = .ok file :: more
      ∧ compileEach readers base outDir options read = some more
      ∧ GetsTo readers files base outDir options read (files.store s file) i := by
  obtain ⟨result, more, hresult, hmore, rfl⟩ := compileEach_cons_eq_some.mp hresults
  -- Position `i + 1` is behind the first template, so that one does not fail.
  have hfirst := h.before 0 (Nat.succ_pos i)
  rw [failureAt_zero] at hfirst
  obtain ⟨file, rfl, hwritten⟩ := exists_module_of_failureOf?_none files hresult hfirst
  refine ⟨file, more, hresult, hwritten, rfl, hmore, Nat.le_of_succ_le_succ h.le, ?_, ?_⟩
  · intro j hj
    rw [← failureAt_succ files hresult]
    exact h.before (j + 1) (Nat.succ_lt_succ hj)
  · intro hlt
    rw [← failureAt_succ files hresult]
    exact h.fails (Nat.succ_lt_succ hlt)

/-- The templates before the position that a batch comes to all have their modules. -/
theorem GetsTo.take_results (h : GetsTo readers files base outDir options read s i)
    (hresults : compileEach readers base outDir options read = some results) :
    results.take i = (compiledModules readers base outDir options (read.take i)).map .ok := by
  induction read generalizing s i results with
  | nil =>
      cases hresults
      simp [compiledModules]
  | cons first rest ih =>
      obtain ⟨template, content⟩ := first
      cases i with
      | zero => rfl
      | succ i =>
          obtain ⟨file, more, hfile, -, rfl, hmore, hrest⟩ := h.of_cons hresults
          rw [List.take_succ_cons, List.take_succ_cons, compiledModules_cons hfile, List.map_cons,
            ih hrest hmore]

/-- The modules that a batch ends with are those of the templates before that position. -/
theorem GetsTo.map_source (h : GetsTo readers files base outDir options read s i)
    (hresults : compileEach readers base outDir options read = some results) :
    (compiledModules readers base outDir options (read.take i)).map CompiledFile.source
      = (read.map Prod.fst).take i := by
  induction read generalizing s i results with
  | nil => simp [compiledModules]
  | cons first rest ih =>
      obtain ⟨template, content⟩ := first
      cases i with
      | zero => rfl
      | succ i =>
          obtain ⟨file, more, hfile, -, -, hmore, hrest⟩ := h.of_cons hresults
          rw [List.take_succ_cons, compiledModules_cons hfile, List.map_cons, ih hrest hmore,
            (compileRead_ok hfile).1]
          rfl

theorem run_noted_write (file : CompiledFile) (s : σ) (asked : List FileRequest) :
    (files.noted.write file.output (Text.encodeUtf8 file.unit.code.toList)).run (s, asked)
      = (((files.write file.output file.content).run s).1, files.store s file,
        asked ++ [file.request]) := rfl

/-- Modules are written in order up to the position that the batch comes to. There the
request may still be made that goes wrong. -/
theorem GetsTo.run_writeInOrder (h : GetsTo readers files base outDir options read s i)
    (hresults : compileEach readers base outDir options read = some results)
    (asked : List FileRequest) :
    (writeInOrder files.noted results).run (s, asked)
      = (⟨compiledModules readers base outDir options (read.take i),
          failureAt readers files base outDir options read s i⟩,
        files.storeAll s (compiledModules readers base outDir options (read.take (i + 1))),
        asked ++ (compiledModules readers base outDir options (read.take (i + 1))).map
          CompiledFile.request) := by
  induction read generalizing s i asked results with
  | nil =>
      have hzero : i = 0 := Nat.le_zero.mp h.le
      subst hzero
      cases hresults
      simp [compiledModules, failureAt, writeInOrder, Files.storeAll]
      rfl
  | cons first rest ih =>
      obtain ⟨template, content⟩ := first
      cases i with
      | zero =>
          obtain ⟨result, more, hresult, -, rfl⟩ := compileEach_cons_eq_some.mp hresults
          have hfails := h.fails (Nat.succ_pos _)
          rw [failureAt_zero] at hfails ⊢
          -- The first template fails: either it has no module, or this cannot be written.
          cases result with
          | error failure =>
              rw [failureOf?_of_error files hresult, List.take_succ_cons,
                compiledModules_cons_of_error hresult]
              show _ = (_, _, asked ++ [])
              rw [List.append_nil]
              rfl
          | ok file =>
              rw [failureOf?_of_ok files hresult] at hfails ⊢
              obtain ⟨fault, hfault⟩ := Option.ne_none_iff_exists'.mp fun hnone =>
                hfails (Option.map_eq_none_iff.mpr hnone)
              rw [run_writeInOrder_cons, run_noted_write, hfault, List.take_succ_cons,
                compiledModules_cons hresult]
              rfl
      | succ i =>
          obtain ⟨file, more, hfile, hwritten, rfl, hmore, hrest⟩ := h.of_cons hresults
          rw [run_writeInOrder_cons, List.take_succ_cons, List.take_succ_cons,
            compiledModules_cons hfile, compiledModules_cons hfile, failureAt_succ files hfile,
            run_noted_write, hwritten]
          have hrun := ih hrest hmore (asked ++ [file.request])
          simp only [hrun, List.map_cons, List.append_assoc, List.singleton_append]
          rfl

theorem run_noted_readAll (templates : List Path) (s : σ) (asked : List FileRequest) :
    (readAll files.noted templates).run (s, asked)
      = (((readAll files templates).run s).1, ((readAll files templates).run s).2,
        asked ++ templates.map .read) := by
  induction templates generalizing s asked with
  | nil => simp [readAll]; rfl
  | cons template rest ih =>
      have hfirst : (files.noted.read template).run (s, asked)
          = (((files.read template).run s).1, ((files.read template).run s).2,
            asked ++ [.read template]) := rfl
      rw [run_readAll_cons, run_readAll_cons, hfirst, ih, List.map_cons, List.append_assoc,
        List.singleton_append]

/-- A file system does the same whether it keeps a note or not. -/
theorem run_writeInOrder_noted (results : List (Except BatchFailure CompiledFile)) (s : σ)
    (asked : List FileRequest) :
    (writeInOrder files results).run s
      = (((writeInOrder files.noted results).run (s, asked)).1,
        ((writeInOrder files.noted results).run (s, asked)).2.1) := by
  induction results generalizing s asked with
  | nil => rfl
  | cons result rest ih =>
      cases result with
      | error failure => rfl
      | ok file =>
          have hwrite : (files.write file.output (Text.encodeUtf8 file.unit.code.toList)).run s
              = (((files.write file.output file.content).run s).1, files.store s file) := rfl
          rw [run_writeInOrder_cons, run_writeInOrder_cons, run_noted_write, hwrite]
          cases ((files.write file.output file.content).run s).1 with
          | some fault => rfl
          | none =>
              have hmore := ih (files.store s file) (asked ++ [file.request])
              simp only [hmore]

/-- A batch that breaks has asked for its templates and for nothing else. -/
theorem run_noted_compileAll_of_none {templates : List Path}
    (h : compileEach readers base outDir options ((readAll files templates).run s).1 = none) :
    (compileAll readers files.noted templates base outDir options).run (s, [])
      = (none, ((readAll files templates).run s).2, templates.map .read) := by
  rw [run_compileAll, run_noted_readAll, List.nil_append]
  simp only [h]

/-- A batch that keeps a note asks for its templates, and then writes what became of them. -/
theorem run_noted_compileAll_of_some {templates : List Path}
    (h : compileEach readers base outDir options ((readAll files templates).run s).1
      = some results)
    (hi : GetsTo readers files base outDir options ((readAll files templates).run s).1
      ((readAll files templates).run s).2 i) :
    let reading := (readAll files templates).run s
    (compileAll readers files.noted templates base outDir options).run (s, [])
      = (some ⟨compiledModules readers base outDir options (reading.1.take i),
          failureAt readers files base outDir options reading.1 reading.2 i⟩,
        files.storeAll reading.2
          (compiledModules readers base outDir options (reading.1.take (i + 1))),
        templates.map .read
          ++ (compiledModules readers base outDir options (reading.1.take (i + 1))).map
            CompiledFile.request) := by
  intro reading
  rw [run_compileAll, run_noted_readAll, List.nil_append]
  simp only [h, hi.run_writeInOrder h]
  rfl

/-- A batch does the same whether it keeps a note or not. -/
theorem run_compileAll_noted (readers : Readers) (files : Files (StateM σ))
    (templates : List Path) (base outDir : Path) (options : Options) (s : σ) :
    (compileAll readers files templates base outDir options).run s
      = (((compileAll readers files.noted templates base outDir options).run (s, [])).1,
        ((compileAll readers files.noted templates base outDir options).run (s, [])).2.1) := by
  rw [run_compileAll, run_compileAll, run_noted_readAll]
  cases compileEach readers base outDir options ((readAll files templates).run s).1 with
  | none => rfl
  | some results =>
      have hwrite := @run_writeInOrder_noted _ files results
        ((readAll files templates).run s).2 ([] ++ templates.map .read)
      simp only [hwrite]

end

end Mustache
