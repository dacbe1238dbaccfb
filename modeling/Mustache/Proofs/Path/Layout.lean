import Mathlib.Data.List.Infix
import Mustache.Module.Body
import Mustache.Proofs.Path.Parts

/-!
Where modules are laid out.

The parts of the base are all that the directories of all templates start with, in whatever
order they come (`commonBase_deepest`), so each directory is laid out below the output
directory by the parts that the base leaves of it.
An inclusion names a file relative to the template that it stands in. Since both are laid
out in the same way, the path that the module of the one loads is that of the module of the
other (`reference_leads_to_module`).
-/
set_option autoImplicit false

namespace Mustache

/-! ## The common base -/

theorem commonStart_prefix_left {α : Type} [DecidableEq α] (as bs : List α) :
    commonStart as bs <+: as := by
  fun_induction commonStart as bs with
  | case1 as b bs ih => exact (List.prefix_cons_inj b).mpr ih
  | case2 => exact List.nil_prefix
  | case3 => exact List.nil_prefix

theorem commonStart_prefix_right {α : Type} [DecidableEq α] (as bs : List α) :
    commonStart as bs <+: bs := by
  fun_induction commonStart as bs with
  | case1 as b bs ih => exact (List.prefix_cons_inj b).mpr ih
  | case2 => exact List.nil_prefix
  | case3 => exact List.nil_prefix

theorem prefix_commonStart {α : Type} [DecidableEq α] {ps as bs : List α} (has : ps <+: as)
    (hbs : ps <+: bs) : ps <+: commonStart as bs := by
  induction ps generalizing as bs with
  | nil => exact List.nil_prefix
  | cons p ps ih =>
      obtain ⟨as, rfl⟩ := has
      obtain ⟨bs, rfl⟩ := hbs
      rw [List.cons_append, List.cons_append, commonStart, if_pos rfl, List.prefix_cons_inj]
      exact ih (List.prefix_append ps as) (List.prefix_append ps bs)

theorem directoryParts_eq (file : Path) : directoryParts file = file.parts.dropLast := by
  rw [directoryParts]
  rcases file.parts_parent with ⟨hnone, hroot⟩ | ⟨directory, hsome, hparts⟩
  · rw [hnone, Path.dropLast_of_parent?_none hroot]
    rfl
  · rw [hsome, ← hparts]
    rfl

/-- What is left of a start is a start of it and of the directories of all files. -/
theorem foldl_commonStart_prefix (start : List PathPart) (files : List Path) :
    let base := files.foldl (fun base file => commonStart base (directoryParts file)) start
    base <+: start ∧ ∀ file ∈ files, base <+: directoryParts file := by
  induction files generalizing start with
  | nil => exact ⟨List.prefix_rfl, fun _ h => absurd h List.not_mem_nil⟩
  | cons first rest ih =>
      obtain ⟨hstart, hrest⟩ := ih (commonStart start (directoryParts first))
      refine ⟨hstart.trans (commonStart_prefix_left _ _), fun file hfile => ?_⟩
      rcases List.mem_cons.mp hfile with rfl | hmem
      · exact hstart.trans (commonStart_prefix_right _ _)
      · exact hrest file hmem

theorem commonBase_parts (first : Path) (rest : List Path) :
    (commonBase (first :: rest)).parts
      = rest.foldl (fun base file => commonStart base (directoryParts file))
        (directoryParts first) := by
  obtain ⟨hfirst, -⟩ := foldl_commonStart_prefix (directoryParts first) rest
  rw [commonBase, Path.parts_ofParts]
  refine Spelled.of_prefix ?_ hfirst
  rw [directoryParts_eq]
  exact first.parts_spelled.of_prefix (List.dropLast_prefix _)

theorem commonBase_prefix_of_mem {files : List Path} {file : Path} (h : file ∈ files) :
    (commonBase files).parts <+: file.parts.dropLast := by
  cases files with
  | nil => exact absurd h List.not_mem_nil
  | cons first rest =>
      obtain ⟨hfirst, hrest⟩ := foldl_commonStart_prefix (directoryParts first) rest
      rw [commonBase_parts, ← directoryParts_eq]
      rcases List.mem_cons.mp h with rfl | hmem
      · exact hfirst
      · exact hrest file hmem

/-- No deeper directory holds all files. -/
theorem prefix_commonBase {files : List Path} {ps : List PathPart} (hne : files ≠ [])
    (h : ∀ file ∈ files, ps <+: file.parts.dropLast) : ps <+: (commonBase files).parts := by
  have hfold (start : List PathPart) (hstart : ps <+: start) (rest : List Path)
      (hrest : ∀ file ∈ rest, ps <+: file.parts.dropLast) :
      ps <+: rest.foldl (fun base file => commonStart base (directoryParts file)) start := by
    induction rest generalizing start with
    | nil => exact hstart
    | cons file rest ih =>
        refine ih _ (prefix_commonStart hstart ?_) fun other hother =>
          hrest other (List.mem_cons_of_mem file hother)
        rw [directoryParts_eq]
        exact hrest file List.mem_cons_self
  cases files with
  | nil => exact absurd rfl hne
  | cons first rest =>
      rw [commonBase_parts]
      refine hfold _ ?_ rest fun file hfile => h file (List.mem_cons_of_mem first hfile)
      rw [directoryParts_eq]
      exact h first List.mem_cons_self

/-! ## Relative directories -/

/-- Below the base a directory has the parts that the base leaves of it. -/
theorem relativeDirectory_parts {template base : Path}
    (h : base.parts <+: template.parts.dropLast) :
    (relativeDirectory template base).parts
      = template.parts.dropLast.drop base.parts.length := by
  rw [relativeDirectory]
  rcases template.parts_parent with ⟨hnone, hroot⟩ | ⟨directory, hsome, hparts⟩
  · rw [hnone, Path.dropLast_of_parent?_none hroot, List.drop_nil]
    rfl
  · rw [← hparts] at h ⊢
    obtain ⟨rest, hrest, hleft⟩ := Path.parts_relativeTo h
    rw [hsome, Option.bind_some, hrest]
    exact hleft

theorem relativeTo?_commonBase {files : List Path} {template : Path} (h : template ∈ files) :
    (template.parent?.getD .empty).relativeTo? (commonBase files)
      = some (relativeDirectory template (commonBase files)) := by
  have hbase := commonBase_prefix_of_mem h
  rcases template.parts_parent with ⟨hnone, hroot⟩ | ⟨directory, hsome, hparts⟩
  · -- Without a directory the base says nothing, and nothing is taken away.
    rw [Path.dropLast_of_parent?_none hroot] at hbase
    have hself : Path.empty.relativeTo? (commonBase files) = some .empty := by
      rw [Path.relativeTo?, List.prefix_nil.mp hbase]
      rfl
    rw [hnone, relativeDirectory, hnone]
    exact hself
  · rw [← hparts] at hbase
    obtain ⟨rest, hrest, -⟩ := Path.parts_relativeTo hbase
    rw [hsome, Option.getD_some, relativeDirectory, hsome, Option.bind_some, hrest]
    rfl

/-! ## The deepest directory -/

theorem commonBase_eq_ofParts (files : List Path) :
    commonBase files = .ofParts (commonBase files).parts := by
  cases files with
  | nil => rfl
  | cons first rest => rw [commonBase_parts, commonBase]

/-- The base depends on which files there are, and not on their order and number. -/
theorem commonBase_congr {files others : List Path} (h : ∀ file, file ∈ others ↔ file ∈ files) :
    commonBase others = commonBase files := by
  have hstarts {first second : List Path} (hmem : ∀ file, file ∈ first ↔ file ∈ second)
      (hne : second ≠ []) : (commonBase first).parts <+: (commonBase second).parts :=
    prefix_commonBase hne fun file hfile => commonBase_prefix_of_mem ((hmem file).mpr hfile)
  by_cases hfiles : files = []
  · have hothers : others = [] := by
      rw [List.eq_nil_iff_forall_not_mem]
      exact fun file hfile => List.not_mem_nil (hfiles ▸ (h file).mp hfile)
    rw [hfiles, hothers]
  · have hothers : others ≠ [] := by
      rintro rfl
      obtain ⟨file, hfile⟩ := List.exists_mem_of_ne_nil files hfiles
      exact absurd ((h file).mpr hfile) List.not_mem_nil
    have hparts : (commonBase others).parts = (commonBase files).parts :=
      antisymm (hstarts h hfiles) (hstarts (fun file => (h file).symm) hothers)
    rw [commonBase_eq_ofParts others, hparts, ← commonBase_eq_ofParts]

/-- The base is the deepest directory that holds all files: the directory of each file starts
with it, and whatever they all start with, it starts with too. It is the same for each list of
these files. So the directory of each template is found below the base, and a template that is
not the root, and whose path says something, has a directory that is. -/
theorem commonBase_deepest {files : List Path} (hne : files ≠ []) :
    (∀ file ∈ files, (commonBase files).parts <+: directoryParts file)
    ∧ (∀ parts, (∀ file ∈ files, parts <+: directoryParts file) →
      parts <+: (commonBase files).parts)
    ∧ (∀ others, (∀ file, file ∈ others ↔ file ∈ files) → commonBase others = commonBase files)
    ∧ ∀ template ∈ files,
      (template.parent?.getD .empty).relativeTo? (commonBase files)
          = some (relativeDirectory template (commonBase files))
      ∧ (template.parts ≠ [] → template.parts ≠ [.root] →
        (template.parent?.bind fun directory => directory.relativeTo? (commonBase files))
          = some (relativeDirectory template (commonBase files))) := by
  refine ⟨fun file hfile => ?_, fun parts h => ?_, fun others => commonBase_congr, ?_⟩
  · rw [directoryParts_eq]
    exact commonBase_prefix_of_mem hfile
  · exact prefix_commonBase hne fun file hfile => directoryParts_eq file ▸ h file hfile
  · intro template htemplate
    have hstripped := relativeTo?_commonBase htemplate
    refine ⟨hstripped, fun hsaid hroot => ?_⟩
    rcases template.parts_parent with ⟨-, htrivial⟩ | ⟨directory, hsome, -⟩
    · exact absurd htrivial (not_or.mpr ⟨hsaid, hroot⟩)
    · rw [hsome] at hstripped ⊢
      exact hstripped

/-- Templates that are given more than once, from the directory itself and with a way up. -/
def strewn : List Path :=
  [.ofString "./views/../views/page.mustache", .ofString "./views//../list/row.mustache",
    .ofString "./views/../views/page.mustache", .ofString "./views/./../views/a/b.mustache"]

/-- Their base is the directory that the way leads up to, and they are found below it. -/
theorem commonBase_deepest_of_strewn :
    strewn ≠ []
    ∧ [.here, .name (.ofString "views"), .up] <+: (commonBase strewn).parts
    ∧ (commonBase strewn).parts <+: directoryParts (.ofString "./views//../list/row.mustache")
    ∧ commonBase strewn.tail.reverse = commonBase strewn
    ∧ ((Path.ofString "./views/./../views/a/b.mustache").parent?.bind fun directory =>
        directory.relativeTo? (commonBase strewn)) = some (.ofString "views/a") := by
  have hne : strewn ≠ [] := by decide +kernel
  obtain ⟨hstarts, hdeepest, hsame, hstripped⟩ := commonBase_deepest hne
  have hmem : Path.ofString "./views/./../views/a/b.mustache" ∈ strewn := by decide +kernel
  have hmembers (file : Path) : file ∈ strewn.tail.reverse ↔ file ∈ strewn := by
    rw [List.mem_reverse]
    refine ⟨List.mem_of_mem_tail, fun h => ?_⟩
    -- The first of them is given again.
    rcases List.mem_cons.mp h with rfl | hrest
    · decide +kernel
    · exact hrest
  refine ⟨hne, hdeepest _ (by decide +kernel), hstarts _ (by decide +kernel), hsame _ hmembers, ?_⟩
  rw [(hstripped _ hmem).2 (by decide +kernel) (by decide +kernel)]
  decide +kernel

/-! ## Names -/

theorem outputPath_eq (template base outDir : Path) (extension : List Char) :
    outputPath template base outDir extension
      = (outDir.join (relativeDirectory template base)).join ⟨moduleName template extension⟩ :=
  rfl

namespace Path

theorem cutName_of_point (stem ending : RawText) (h : point ∉ ending) :
    cutName (stem ++ point :: ending)
      = if stem = [] then (stem ++ point :: ending, none) else (stem, some ending) := by
  have hending : ((stem ++ point :: ending).reverse.takeWhile (· ≠ point)).reverse = ending := by
    have hall : ∀ c ∈ ending.reverse, decide (c ≠ point) = true := by
      intro c hc
      exact decide_eq_true fun hdot => h (List.mem_reverse.mp (hdot ▸ hc))
    rw [List.reverse_append, List.reverse_cons, List.append_assoc,
      List.takeWhile_append_of_pos hall]
    simp
  have hcount : (stem ++ point :: ending).length - (ending.length + 1) = stem.length := by
    simp
  rw [cutName]
  simp only [hending, hcount, List.take_left]
  by_cases hstem : stem = [] <;> simp [hstem]

/-- A name that is cut is what stands before its last point and behind it. -/
theorem cutName_cases (name : RawText) :
    cutName name = (name, none) ∨ ∃ stem ending, stem ≠ []
      ∧ name = stem ++ point :: ending ∧ cutName name = (stem, some ending) := by
  by_cases hpoint : point ∈ name
  · obtain ⟨before, behind, hreverse, hbefore⟩ :=
      List.eq_append_cons_of_mem (List.mem_reverse.mpr hpoint)
    have hname : name = behind.reverse ++ point :: before.reverse := by
      rw [← List.reverse_reverse name, hreverse]
      simp
    have hcut := cutName_of_point behind.reverse before.reverse
      fun h => hbefore (List.mem_reverse.mp h)
    rw [← hname] at hcut
    split_ifs at hcut with hstem
    · exact .inl hcut
    · exact .inr ⟨_, _, hstem, hname, hcut⟩
  · left
    simp [cutName, hpoint]

theorem cutName_injective : Function.Injective cutName := by
  have hname (name : RawText) : name = match cutName name with
      | (stem, none) => stem
      | (stem, some ending) => stem ++ point :: ending := by
    rcases cutName_cases name with h | ⟨stem, ending, -, hname, hcut⟩
    · rw [h]
    · rw [hcut]
      exact hname
  intro first second h
  rw [hname first, h, ← hname second]

theorem cutName_prefix_self (name : RawText) : (cutName name).1 <+: name := by
  rcases cutName_cases name with h | ⟨stem, ending, -, hname, hcut⟩
  · exact ⟨[], by rw [h, List.append_nil]⟩
  · rw [hcut, hname]
    exact List.prefix_append stem _

/-- A part other than the root and the directory itself is an inner one. -/
theorem inner_of_mem_parts {p : Path} {part : PathPart} (h : part ∈ p.parts)
    (hroot : part ≠ .root) (hhere : part ≠ .here) : part.Inner := by
  have hinner (hmem : part ∈ innerParts (splitSlashes p.text)) : part.Inner := inner_of_mem hmem
  rcases p.parts_cases with ⟨-, hparts⟩ | ⟨-, hparts | hparts⟩
  · exact hinner ((List.mem_cons.mp (hparts ▸ h)).resolve_left hroot)
  · exact hinner ((List.mem_cons.mp (hparts ▸ h)).resolve_left hhere)
  · exact hinner (hparts ▸ h)

theorem fileName?_eq_some {p : Path} {name : RawText} :
    p.fileName? = some name ↔ p.parts.getLast? = some (.name name) := by
  rw [fileName?]
  split
  · next chars heq => simp [heq]
  · next hnot => exact ⟨nofun, fun hlast => absurd hlast (hnot name)⟩

theorem slash_not_mem_stem (p : Path) : slash ∉ (p.stem?).getD [] := by
  rw [stem?]
  cases hname : p.fileName? with
  | none => exact List.not_mem_nil
  | some name =>
      have hmem := List.mem_of_getLast? (fileName?_eq_some.mp hname)
      have hinner := inner_of_mem_parts hmem nofun nofun
      exact fun h => hinner.1 ((cutName_prefix_self name).mem h)

end Path

/-- The parts of a module's path: those of its directory, and those of its name. -/
theorem outputPath_parts {template : Path} {extension : List Char}
    (h : ∀ part ∈ (⟨moduleName template extension⟩ : Path).parts, part.Inner)
    (base outDir : Path) :
    (outputPath template base outDir extension).parts
      = (outDir.join (relativeDirectory template base)).parts
        ++ (⟨moduleName template extension⟩ : Path).parts := by
  rw [outputPath_eq, Path.parts_join, joinParts_of_inner _ h]

theorem slash_not_mem_moduleName (template : Path) {extension : List Char}
    (h : '/' ∉ extension) : slash ∉ moduleName template extension := by
  rw [moduleName, slash_mem_encodeUtf8, List.mem_append, not_or]
  exact ⟨mt slash_mem_of_mem_lossy template.slash_not_mem_stem, h⟩

/-! ## References -/

namespace Path

/-- The directory that a file is in, as its path spells it. -/
def directory (p : Path) : Path := ⟨p.text.rdropWhile (· ≠ slash)⟩

theorem rdropWhile_slash (s : RawText) {t : RawText} (h : slash ∉ t) :
    (s ++ slash :: t).rdropWhile (· ≠ slash) = s ++ [slash] := by
  induction t using List.reverseRec with
  | nil => exact List.rdropWhile_concat_neg _ s slash (by simp)
  | append_singleton t c ih =>
      rw [List.mem_append, not_or] at h
      have hc : c ≠ slash := fun hc => h.2 (hc ▸ List.mem_cons_self)
      rw [← List.cons_append, ← List.append_assoc,
        List.rdropWhile_concat_pos _ _ c (decide_eq_true hc), ih h.1]

/-- A file that is named in a directory is in that directory. -/
theorem parts_directory_join (p : Path) {s : RawText} (h : slash ∉ s) :
    (p.join ⟨s⟩).directory.parts = p.parts := by
  have hrelative : (⟨s⟩ : Path).isAbsolute = false := by
    rw [isAbsolute, beq_eq_false_iff_ne]
    exact fun hhead => h (List.mem_of_head? hhead)
  rw [directory, join, hrelative]
  simp only [Bool.false_eq_true, if_false]
  by_cases hp : p.text = []
  · have hnone : s.rdropWhile (· ≠ slash) = [] := by
      rw [List.rdropWhile_eq_nil_iff]
      exact fun c hc => decide_eq_true fun hslash => h (hslash ▸ hc)
    rw [if_pos (.inl hp), hp, List.nil_append, hnone, parts_eq_nil.mpr hp]
    rfl
  · split_ifs with hlast
    · obtain ⟨u, hu⟩ := List.getLast?_eq_some_iff.mp (hlast.resolve_left hp)
      rw [hu, List.append_assoc, List.singleton_append, rdropWhile_slash u h, ← hu]
    · rw [rdropWhile_slash _ h, parts_append_slash, if_neg hp]
      exact List.append_nil _

/-- The parts of the path that a relative reference in a file leads to. -/
def resolve (p : Path) (reference : RawText) : List PathPart :=
  p.directory.parts ++ innerParts (splitSlashes reference)

theorem innerParts_eq_parts {p : Path} (h : ∀ part ∈ p.parts, part.Inner) :
    innerParts (splitSlashes p.text) = p.parts := by
  rcases p.parts_cases with ⟨-, hparts⟩ | ⟨-, hparts | hparts⟩
  · exact absurd (h _ (hparts ▸ List.mem_cons_self)) PathPart.not_inner_root
  · exact absurd (h _ (hparts ▸ List.mem_cons_self)) PathPart.not_inner_here
  · exact hparts.symm

end Path

namespace PathPart

theorem name_inner_iff {chars : RawText} :
    (name chars).Inner ↔ slash ∉ chars ∧ chars ≠ [] ∧ chars ≠ [point] ∧ chars ≠ [point, point] := by
  rw [Inner, text, and_congr_right_iff, ofSegment?]
  intro _
  split_ifs with hsilent hup
  · simp only [false_iff, not_and]
    exact fun hnil hhere => absurd hsilent (not_or.mpr ⟨hnil, hhere⟩)
  · simp [hup]
  · rw [not_or] at hsilent
    simp [hsilent, hup]

/-- A name stays one with more behind it. -/
theorem name_inner_append {chars more : RawText} (h : (name chars).Inner) (hmore : slash ∉ more) :
    (name (chars ++ more)).Inner := by
  rw [name_inner_iff] at h ⊢
  obtain ⟨hslash, hnil, hhere, hup⟩ := h
  refine ⟨by simp [hslash, hmore], by simp [hnil], fun hdot => ?_, fun hdots => ?_⟩
  · rcases List.append_eq_singleton_iff.mp hdot with ⟨h, -⟩ | ⟨h, -⟩
    · exact hnil h
    · exact hhere h
  · rcases List.append_eq_cons_iff.mp hdots with ⟨h, -⟩ | ⟨rest, h, hrest⟩
    · exact hnil h
    · rcases List.append_eq_singleton_iff.mp hrest.symm with ⟨h', -⟩ | ⟨h', -⟩
      · exact hhere (by rw [h, h'])
      · exact hup (by rw [h, h'])

end PathPart

namespace Path

/-- Text without slashes adds to the last part of a path, if that is a name. -/
theorem parts_append {s t last : RawText} {segments : List RawText}
    (hsplit : splitSlashes s = segments ++ [last]) (hlast : (PathPart.name last).Inner)
    (ht : slash ∉ t) :
    (⟨s ++ t⟩ : Path).parts = (⟨s⟩ : Path).parts.dropLast ++ [.name (last ++ t)] := by
  have hmore : (PathPart.name (last ++ t)).Inner := PathPart.name_inner_append hlast ht
  have hsplit' := splitSlashes_append hsplit ht
  -- A path of one segment has it as its first part, where silence would mean the root; behind a
  -- slash the last segment is an inner part.
  cases segments with
  | nil =>
      obtain rfl : s = last := by
        rw [← joinSlashes_splitSlashes s, hsplit]
        rfl
      have hold : (⟨s⟩ : Path).parts = [.name s] := parts_of_inner hlast
      have hnew : (⟨s ++ t⟩ : Path).parts = [.name (s ++ t)] := parts_of_inner hmore
      rw [hold, hnew]
      rfl
  | cons first rest =>
      have hne {u : RawText} (h : splitSlashes u = first :: (rest ++ [last]) ∨
          splitSlashes u = first :: (rest ++ [last ++ t])) : u ≠ [] := by
        rintro rfl
        rcases h with h | h <;> simp [splitSlashes] at h
      have hlastParts : innerParts [last] = [.name last] := List.filterMap_cons_some hlast.2
      have hmoreParts : innerParts [last ++ t] = [.name (last ++ t)] :=
        List.filterMap_cons_some hmore.2
      rw [List.cons_append] at hsplit hsplit'
      rw [parts_of_split (p := ⟨s⟩) hsplit (hne (.inl hsplit)),
        parts_of_split (p := ⟨s ++ t⟩) hsplit' (hne (.inr hsplit')), innerParts_append,
        innerParts_append, hlastParts, hmoreParts,
        List.dropLast_cons_of_ne_nil (List.append_ne_nil_of_right_ne_nil _ (List.cons_ne_nil _ [])),
        List.dropLast_concat]
      rfl

end Path

/-- Whether a text names a file below a directory: all its parts are names, and its last
segment is not silent. -/
structure NamesBelow (name : RawText) : Prop where
  parts : ∀ part ∈ (⟨name⟩ : Path).parts, ∃ chars, part = .name chars
  last : ∀ segment ∈ (splitSlashes name).getLast?, isSilent segment = false

/-- Whether a text leads through directories to a last name, also with text without slashes
behind it. -/
structure LeadsTo (name : RawText) (directories : List PathPart) (last : RawText) : Prop where
  inner : ∀ part ∈ directories, part.Inner
  ne_nil : last ≠ []
  name_inner : ∀ t, slash ∉ t → (PathPart.name (last ++ t)).Inner
  parts : ∀ t, slash ∉ t → (⟨name ++ t⟩ : Path).parts = directories ++ [.name (last ++ t)]

theorem NamesBelow.exists_leadsTo {name : RawText} (h : NamesBelow name) :
    ∃ directories last, LeadsTo name directories last ∧ last ∈ splitSlashes name := by
  have hinner : ∀ part ∈ (⟨name⟩ : Path).parts, part.Inner := by
    intro part hpart
    obtain ⟨chars, rfl⟩ := h.parts part hpart
    exact Path.inner_of_mem_parts hpart nofun nofun
  obtain ⟨segments, last, hsplit⟩ : ∃ segments last, splitSlashes name = segments ++ [last] :=
    ⟨_, _, (List.dropLast_append_getLast (splitSlashes_ne_nil name)).symm⟩
  -- The last segment is not silent, so it stands for a part, and all parts are names.
  have hname : (PathPart.name last).Inner := by
    have hsilent : isSilent last = false := h.last last (by rw [hsplit]; simp)
    obtain ⟨part, hpart⟩ := Option.isSome_iff_exists.mp (Option.isNone_eq_false_iff.mp hsilent)
    have hmem : part ∈ (⟨name⟩ : Path).parts := by
      rw [← Path.innerParts_eq_parts hinner, hsplit, innerParts_append]
      exact List.mem_append_right _ (by simp [innerParts, hpart])
    obtain ⟨chars, rfl⟩ := h.parts part hmem
    obtain rfl : chars = last := PathPart.text_of_ofSegment? hpart
    exact hinner _ hmem
  exact ⟨(⟨name⟩ : Path).parts.dropLast, last,
    ⟨fun part hpart => hinner part ((List.dropLast_prefix _).mem hpart),
      (PathPart.name_inner_iff.mp hname).2.1, fun t ht => PathPart.name_inner_append hname ht,
      fun t ht => Path.parts_append hsplit hname ht⟩, by rw [hsplit]; simp⟩

namespace LeadsTo

variable {name last t : RawText} {directories : List PathPart}

theorem inner_parts (h : LeadsTo name directories last) (ht : slash ∉ t) :
    ∀ part ∈ directories ++ [.name (last ++ t)], part.Inner := by
  intro part hpart
  rcases List.mem_append.mp hpart with hpart | hpart
  · exact h.inner part hpart
  · exact List.mem_singleton.mp hpart ▸ h.name_inner t ht

theorem parts_join (h : LeadsTo name directories last) (ht : slash ∉ t) (p : Path) :
    (p.join ⟨name ++ t⟩).parts = p.parts ++ directories ++ [.name (last ++ t)] := by
  rw [Path.parts_join, h.parts t ht, joinParts_of_inner _ (h.inner_parts ht), List.append_assoc]

/-- The path that a module loads leads on from the directory of the module. -/
theorem resolve_modulePath {name extension : String} (h : LeadsTo (.ofString name) directories last)
    (hextension : slash ∉ RawText.ofString extension) (p : Path) :
    p.resolve (.ofString (modulePath extension name))
      = p.directory.parts ++ (directories ++ [.name (last ++ .ofString extension)]) := by
  have hpath : RawText.ofString (modulePath extension name)
      = [point] ++ slash :: (RawText.ofString name ++ RawText.ofString extension) := by
    simp [modulePath, RawText.ofString]
    rfl
  have hparts := h.parts _ hextension
  have hinner := h.inner_parts hextension
  rw [← hparts] at hinner ⊢
  rw [Path.resolve, hpath, splitSlashes_append_slash, innerParts_append,
    ← Path.innerParts_eq_parts hinner]
  rfl

end LeadsTo

/-- The module of a file with an ending has its name before the ending. -/
theorem moduleName_of_ending {p : Path} {directories : List PathPart} {last ending : RawText}
    (hparts : p.parts = directories ++ [.name (last ++ point :: ending)]) (hlast : last ≠ [])
    (htext : last.IsText) (hending : point ∉ ending) (extension : String) :
    moduleName p extension.toList = last ++ .ofString extension := by
  have hfile : p.fileName? = some (last ++ point :: ending) := by
    rw [Path.fileName?_eq_some, hparts, List.getLast?_concat]
  obtain ⟨s, rfl⟩ := htext
  rw [moduleName, Path.stem?, hfile, Option.map_some, Path.cutName_of_point _ ending hending,
    if_neg hlast, Option.getD_some, RawText.lossy, Text.decodeLossy_encodeUtf8,
    Text.encodeUtf8_append]
  rfl

/-- The path that the module of a template loads for an inclusion leads, from the directory
of the module, to the module of the template of that name. -/
theorem reference_leads_to_module {files : List Path} {template directory : Path}
    (htemplate : template ∈ files) (hdirectory : template.parent? = some directory)
    {name extension : String} (hname : NamesBelow (.ofString name)) {ending : RawText}
    (hending : point ∉ ending ∧ slash ∉ ending) (hextension : '/' ∉ extension.toList)
    {included : Path}
    (hincluded : included.same (directory.join ⟨.ofString name ++ point :: ending⟩))
    (outDir : Path) :
    (outputPath template (commonBase files) outDir extension.toList).resolve
        (.ofString (modulePath extension name))
      = (outputPath included (commonBase files) outDir extension.toList).parts := by
  obtain ⟨directories, last, hleads, hsegment⟩ := hname.exists_leadsTo
  have htext : last.IsText := isText_of_mem_splitSlashes ⟨name.toList, rfl⟩ hsegment
  have hbase := commonBase_prefix_of_mem htemplate
  generalize commonBase files = base at hbase
  have hslash : slash ∉ point :: ending := by
    rw [List.mem_cons, not_or]
    exact ⟨by decide, hending.2⟩
  have hextension' : slash ∉ RawText.ofString extension := mt slash_mem_encodeUtf8.mp hextension
  -- The included template is in a directory below that of the template.
  have hparts : included.parts
      = template.parts.dropLast ++ directories ++ [.name (last ++ point :: ending)] := by
    have hsame : included.parts = (directory.join ⟨.ofString name ++ point :: ending⟩).parts :=
      beq_iff_eq.mp hincluded
    rw [hsame, hleads.parts_join hslash, Path.parts_of_parent? hdirectory]
  have hrelative : (relativeDirectory included base).parts
      = (relativeDirectory template base).parts ++ directories := by
    have hdrop : included.parts.dropLast = template.parts.dropLast ++ directories := by
      rw [hparts, List.dropLast_concat]
    rw [relativeDirectory_parts hbase, relativeDirectory_parts (hdrop ▸
      hbase.trans (List.prefix_append _ _)), hdrop, List.drop_append_of_le_length hbase.length_le]
  have hmodule : (⟨moduleName included extension.toList⟩ : Path).parts
      = [.name (last ++ .ofString extension)] := by
    rw [moduleName_of_ending hparts hleads.ne_nil htext hending.1]
    exact Path.parts_of_inner (hleads.name_inner _ hextension')
  have hinner : ∀ part ∈ (⟨moduleName included extension.toList⟩ : Path).parts, part.Inner := by
    rw [hmodule]
    exact fun part hpart => List.mem_singleton.mp hpart ▸ hleads.name_inner _ hextension'
  calc (outputPath template base outDir extension.toList).resolve
        (.ofString (modulePath extension name))
      = joinParts outDir.parts (relativeDirectory template base).parts
          ++ (directories ++ [.name (last ++ .ofString extension)]) := by
        rw [hleads.resolve_modulePath hextension', outputPath_eq, Path.parts_directory_join _
          (slash_not_mem_moduleName template hextension), Path.parts_join]
    _ = joinParts outDir.parts (relativeDirectory included base).parts
          ++ [.name (last ++ .ofString extension)] := by
        rw [hrelative, joinParts_append _ _ hleads.inner, List.append_assoc]
    _ = (outputPath included base outDir extension.toList).parts := by
        rw [outputPath_parts hinner, Path.parts_join, hmodule]

/-- Templates below the root and below a directory that is not. -/
def scattered : List Path :=
  [.ofString "/a/x.mustache", .ofString "b/page.mustache", .ofString "b/list/row.en.mustache"]

/-- The module of a page loads that of a row in a directory below its own. -/
theorem reference_leads_to_row :
    (outputPath (.ofString "b/page.mustache") (commonBase scattered) (.ofString "out")
        ".js".toList).resolve (.ofString (modulePath ".js" "list/row.en"))
      = [.name (.ofString "out"), .name (.ofString "b"), .name (.ofString "list"),
        .name (.ofString "row.en.js")] := by
  have hname : NamesBelow (.ofString "list/row.en") := by
    refine ⟨fun part hpart => ?_, by decide +kernel⟩
    have hparts : (⟨.ofString "list/row.en"⟩ : Path).parts
        = [.name (.ofString "list"), .name (.ofString "row.en")] := by decide +kernel
    rw [hparts, List.mem_pair] at hpart
    rcases hpart with rfl | rfl <;> exact ⟨_, rfl⟩
  have htemplate : Path.ofString "b/page.mustache" ∈ scattered := by decide +kernel
  have hincluded : (Path.ofString "b/list/row.en.mustache").same ((Path.ofString "b").join
      ⟨.ofString "list/row.en" ++ point :: RawText.ofString "mustache"⟩) := by decide +kernel
  have hleads := reference_leads_to_module htemplate rfl hname (by decide +kernel)
    (show '/' ∉ ".js".toList by decide +kernel) hincluded (.ofString "out")
  exact hleads.trans (by decide +kernel)

end Mustache
