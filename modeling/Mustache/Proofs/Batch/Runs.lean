import Mathlib.Data.List.Basic
import Mustache.Batch.FileTree
import Mustache.Batch.Run

/-!
What a run reads and writes.

A run reads all templates and then writes modules, each to the path that its template is
laid out to. So whatever reading keeps, and writing to these paths, holds of the file
system after a run that it held of before (`compileAll_keeps`).
-/
set_option autoImplicit false

namespace Mustache

/-! ## Steps -/

section

variable {σ : Type} (files : Files (StateM σ))

theorem run_readAll_cons (template : Path) (rest : List Path) (s : σ) :
    (readAll files (template :: rest)).run s
      = ((template, ((files.read template).run s).1)
          :: ((readAll files rest).run ((files.read template).run s).2).1,
        ((readAll files rest).run ((files.read template).run s).2).2) := by
  rw [readAll, List.mapM_cons]
  rfl

theorem run_readAll_of_keeps {files : Files (StateM σ)}
    (hread : ∀ p s, ((files.read p).run s).2 = s) (templates : List Path) (s : σ) :
    (readAll files templates).run s
      = (templates.map fun p => (p, ((files.read p).run s).1), s) := by
  induction templates with
  | nil => rfl
  | cons template rest ih => rw [run_readAll_cons, hread, ih, List.map_cons]

theorem map_fst_readAll (templates : List Path) (s : σ) :
    ((readAll files templates).run s).1.map Prod.fst = templates := by
  induction templates generalizing s with
  | nil => rfl
  | cons template rest ih => rw [run_readAll_cons, List.map_cons, ih]

/-- Writing a module that is followed by others. -/
theorem run_writeInOrder_cons (file : CompiledFile)
    (rest : List (Except BatchFailure CompiledFile)) (s : σ) :
    (writeInOrder files (.ok file :: rest)).run s
      = match (files.write file.output (Text.encodeUtf8 file.unit.code.toList)).run s with
        | (some fault, s) => (⟨[], some (.file file.output fault)⟩, s)
        | (none, s) =>
            (⟨file :: ((writeInOrder files rest).run s).1.compiled,
              ((writeInOrder files rest).run s).1.failure⟩,
              ((writeInOrder files rest).run s).2) := by
  rw [writeInOrder, StateT.run_bind]
  rcases (files.write file.output (Text.encodeUtf8 file.unit.code.toList)).run s with ⟨_ | _, _⟩
  · rfl
  · rfl

/-- A run reads, compiles and then writes; it breaks after reading, if it does. -/
theorem run_compileAll (readers : Readers) (templates : List Path) (base outDir : Path)
    (options : Options) (s : σ) :
    (compileAll readers files templates base outDir options).run s
      = match compileEach readers base outDir options ((readAll files templates).run s).1 with
        | none => (none, ((readAll files templates).run s).2)
        | some results =>
            (some ((writeInOrder files results).run ((readAll files templates).run s).2).1,
              ((writeInOrder files results).run ((readAll files templates).run s).2).2) := by
  rw [compileAll, StateT.run_bind]
  show ((match compileEach readers base outDir options ((readAll files templates).run s).1 with
    | none => pure none
    | some results => do pure (some (← writeInOrder files results)) :
      StateM σ (Option BatchOutcome)).run ((readAll files templates).run s).2) = _
  cases compileEach readers base outDir options ((readAll files templates).run s).1 with
  | none => rfl
  | some results => rfl

/-! ## What is compiled -/

section

variable {readers : Readers} {base outDir : Path} {options : Options}
  {read : List (Path × Except FileFault (List UInt8))}

/-- A module that was compiled goes to the path that its template is laid out to. -/
theorem compileRead_ok {template : Path} {content : Except FileFault (List UInt8)}
    {file : CompiledFile}
    (h : compileRead readers base outDir options template content = some (.ok file)) :
    file.source = template
      ∧ file.output = outputPath template base outDir options.partialExtension.toList := by
  rw [compileRead] at h
  split at h
  · cases h
  · split at h
    · cases h
    · cases h
    · cases h
      exact ⟨rfl, rfl⟩

theorem compileEach_cons {template : Path} {content : Except FileFault (List UInt8)} :
    compileEach readers base outDir options ((template, content) :: read)
      = (compileRead readers base outDir options template content).bind fun result =>
          (compileEach readers base outDir options read).map (result :: ·) := by
  rw [compileEach, List.mapM_cons]
  refine congrArg (Option.bind _) (funext fun result => ?_)
  rw [Option.map_eq_bind]
  rfl

theorem compileEach_cons_eq_some {template : Path} {content : Except FileFault (List UInt8)}
    {results : List (Except BatchFailure CompiledFile)} :
    compileEach readers base outDir options ((template, content) :: read) = some results
      ↔ ∃ result more, compileRead readers base outDir options template content = some result
        ∧ compileEach readers base outDir options read = some more
        ∧ results = result :: more := by
  simp only [compileEach_cons, Option.bind_eq_some_iff, Option.map_eq_some_iff]
  constructor
  · rintro ⟨result, hresult, more, hmore, rfl⟩
    exact ⟨result, more, hresult, hmore, rfl⟩
  · rintro ⟨result, more, hresult, hmore, rfl⟩
    exact ⟨result, hresult, more, hmore, rfl⟩

theorem compileEach_eq_some {results : List (Except BatchFailure CompiledFile)} :
    compileEach readers base outDir options read = some results
      ↔ (read.map fun (template, content) =>
          compileRead readers base outDir options template content) = results.map some := by
  induction read generalizing results with
  | nil => cases results <;> simp [compileEach]
  | cons first rest ih =>
      rw [compileEach_cons_eq_some, List.map_cons, eq_comm, List.map_eq_cons_iff]
      constructor
      · rintro ⟨result, more, hresult, hmore, rfl⟩
        exact ⟨result, more, rfl, hresult.symm, (ih.mp hmore).symm⟩
      · rintro ⟨result, more, rfl, hresult, hmore⟩
        exact ⟨result, more, hresult.symm, ih.mpr hmore.symm, rfl⟩

/-- A module that was compiled is that of one of the templates that were read. -/
theorem output_of_mem_compileEach {results : List (Except BatchFailure CompiledFile)}
    (h : compileEach readers base outDir options read = some results) {file : CompiledFile}
    (hfile : .ok file ∈ results) :
    ∃ template ∈ read.map Prod.fst,
      file.output = outputPath template base outDir options.partialExtension.toList := by
  have hmem := List.mem_map_of_mem (f := some) hfile
  rw [← compileEach_eq_some.mp h] at hmem
  obtain ⟨⟨template, content⟩, hmem, hcompiled⟩ := List.mem_map.mp hmem
  exact ⟨template, List.mem_map.mpr ⟨_, hmem, rfl⟩, (compileRead_ok hcompiled).2⟩

end

/-! ## Runs -/

variable {files} {I : σ → Prop}

theorem readAll_keeps (hread : ∀ p s, I s → I ((files.read p).run s).2) (templates : List Path)
    {s : σ} (h : I s) : I ((readAll files templates).run s).2 := by
  induction templates generalizing s with
  | nil => exact h
  | cons template rest ih =>
      rw [run_readAll_cons]
      exact ih (hread template s h)

theorem writeInOrder_keeps {results : List (Except BatchFailure CompiledFile)}
    (hwrite : ∀ file, .ok file ∈ results → ∀ content s, I s →
      I ((files.write file.output content).run s).2)
    {s : σ} (h : I s) : I ((writeInOrder files results).run s).2 := by
  induction results generalizing s with
  | nil => exact h
  | cons result rest ih =>
      cases result with
      | error failure => exact h
      | ok file =>
          have hfile := hwrite file List.mem_cons_self
            (Text.encodeUtf8 file.unit.code.toList) s h
          have hrest := fun other hother => hwrite other (List.mem_cons_of_mem _ hother)
          rw [run_writeInOrder_cons]
          split
          · next heq =>
              rw [heq] at hfile
              exact hfile
          · next heq =>
              rw [heq] at hfile
              exact ih hrest hfile

/-- A run keeps what reading keeps, and writing to the paths that the templates are laid
out to. -/
theorem compileAll_keeps (readers : Readers) {templates : List Path} {base outDir : Path}
    {options : Options} (hread : ∀ p s, I s → I ((files.read p).run s).2)
    (hwrite : ∀ template ∈ templates, ∀ content s, I s →
      I ((files.write (outputPath template base outDir options.partialExtension.toList)
        content).run s).2)
    {s : σ} (h : I s) : I ((compileAll readers files templates base outDir options).run s).2 := by
  have hreading := readAll_keeps hread templates h
  rw [run_compileAll]
  split
  · exact hreading
  · -- A module is written to the output path of the template that it was made from.
    next results heq =>
      refine writeInOrder_keeps (fun file hfile => ?_) hreading
      obtain ⟨template, hmem, houtput⟩ := output_of_mem_compileEach heq hfile
      rw [map_fst_readAll] at hmem
      rw [houtput]
      exact hwrite template hmem

end

/-! ## Runs on a file tree -/

namespace FileTree

theorem run_readAll (templates : List Path) (t : FileTree) :
    (readAll files templates).run t = (templates.map fun p => (p, t.read p), t) :=
  run_readAll_of_keeps (fun _ _ => rfl) templates t

end FileTree

end Mustache
