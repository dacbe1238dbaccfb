import Mustache.Proofs.Module.Assembly
import Mustache.Proofs.Module.Simulation
import Mustache.Proofs.Script.Reading

/-!
What a generated module means.

The function that a module renders data with is read as a script and run: the names
that it does not bind are the functions that the module brings along, and what it loads
are the modules of the templates that it includes. What it returns is what the renderer
gives for the template, a string for a flat one (`flat_meaning`) and a list of texts and
elements for a structural one (`structural_meaning`).
-/
set_option autoImplicit false

namespace Mustache

open Script
open Json (Value)

/-! ## The function of a module -/

/-- What the function returns. -/
def Tree.resultExpr (tree : Tree) (options : Options) : Expr :=
  match tree.target with
  | .flat => method (concatenated (Output.joined.close (tree.fragments options))) "join" [.text ""]
  | .structural => concatenated (Output.nodes.close (tree.fragments options))

/-- The fragments of a template are laid out well. -/
theorem fragments_laid (tree : Tree) (options : Options) :
    ∀ fragment ∈ tree.fragments options, fragment.Laid :=
  emitNodes_laid _ tree.target.output 0 tree.nodes

theorem resultExpr_laid (tree : Tree) (options : Options) : (tree.resultExpr options).Laid := by
  have hlist (output : Output) :
      (concatenated (output.close (tree.fragments options))).Laid :=
    concatenated_laid (close_laid output (fragments_laid tree options))
  rw [Tree.resultExpr]
  cases tree.target with
  | flat => exact method_laid (hlist .joined) ⟨rfl, rfl⟩ rfl ⟨trivial, trivial⟩
  | structural => exact hlist .nodes

/-- The function up to its body is cut into its tokens. -/
theorem tokens?_functionStart {s : List Char} {ts : List Token} (hs : tokens? s = some ts) :
    tokens? (functionStart ++ s)
      = some (tokensOf (parameterNests ["data"]) ++ .mark "\x7b" :: .word "return" :: .mark "["
        :: .mark "]" :: .mark "." :: .word "concat" :: .mark "(" :: ts) := by
  have hcall : tokens? ("[".toList ++ ("]".toList ++ (".".toList ++ ("concat".toList
      ++ ("(".toList ++ s))))) = some (.mark "[" :: .mark "]" :: .mark "." :: .word "concat"
        :: .mark "(" :: ts) := by
    refine tokens?_mark "[" rfl (tokens?_mark "]" rfl (tokens?_mark "." rfl ?_))
    exact tokens?_word "concat" rfl rfl (tokens?_mark "(" rfl hs)
  have hparameters : ["data"].all isName = true := rfl
  have hreturn := tokens?_word "return" rfl rfl (tokens?_blank (c := ' ') rfl hcall)
  have hlines := tokens?_blank (c := '\n') rfl (tokens?_blank (c := '\t') rfl
    (tokens?_blank (c := '\t') rfl (tokens?_blank (c := '\t') rfl hreturn)))
  exact tokens?_parameters hparameters hlines

/-- What is done with the list that a body is, as nests. -/
def Target.resultEnd : Target → List Nest
  | .flat =>
      [.token (.mark "."), .token (.word "join"), .group .round [.token (.text "")]]
  | .structural => []

theorem nests_resultExpr (tree : Tree) (options : Options) :
    (tree.resultExpr options).nests
      = [.group .square [], .token (.mark "."), .token (.word "concat"),
          .group .round (runNests .joined (tree.fragments options)
            ++ tree.target.output.terminator.nests)] ++ tree.target.resultEnd := by
  have hlist (output : Output) (houtput : output ≠ .summed) :
      (concatenated (output.close (tree.fragments options))).nests
        = [.group .square [], .token (.mark "."), .token (.word "concat"),
          .group .round (runNests .joined (tree.fragments options)
            ++ output.terminator.nests)] := by
    -- Only summands are separated by anything else than commas.
    have hcomma : runNests output (tree.fragments options)
        = runNests .joined (tree.fragments options) := by
      cases output with
      | joined | nodes => rfl
      | summed => exact absurd rfl houtput
    rw [← hcomma, ← commaNests_close]
    rfl
  rw [Tree.resultExpr]
  cases tree.target with
  | flat =>
      rw [method, Expr.nests, Expr.nests, hlist .joined (by decide)]
      rfl
  | structural => exact hlist .nodes (by decide)

/-- The function behind its body is cut into its tokens. -/
theorem tokens?_functionEnd (target : Target) :
    tokens? (functionEnd target)
      = some (tokensOf target.output.terminator.nests
        ++ .mark ")" :: (tokensOf target.resultEnd ++ [.mark ";", .mark "\x7d"])) := by
  -- Read from the end: each token with what follows it.
  have hbracket := tokens?_mark "\x7d" rfl tokens?_nil
  have hline := tokens?_blank (c := '\n') rfl (tokens?_blank (c := '\t') rfl
    (tokens?_blank (c := '\t') rfl hbracket))
  have hsemicolon := tokens?_mark ";" rfl hline
  cases target with
  | flat =>
      have hjoin := tokens?_mark "(" rfl (tokens?_literal [] (tokens?_mark ")" rfl hsemicolon))
      have hmethod := tokens?_mark "." rfl (tokens?_word "join" rfl rfl hjoin)
      exact tokens?_literal [] (tokens?_mark ")" rfl hmethod)
  | structural =>
      refine tokens?_mark "[" rfl (tokens?_mark "]" rfl ?_)
      exact tokens?_mark ")" rfl hsemicolon

/-- The text of the function is cut into the tokens of what it means. -/
theorem tokens?_renderFunction (tree : Tree) (options : Options) :
    tokens? (tree.renderFunction options)
      = some (tokensOf (Expr.function ["data"] (tree.resultExpr options)).nests) := by
  have hbody := tokens?_bodyText (fragments_laid tree options) (tokens?_functionEnd tree.target)
  refine (tokens?_functionStart hbody).trans ?_
  rw [Expr.nests, nests_resultExpr]
  simp [tokensOf, Nest.tokens, Bracket.opening, Bracket.closing]

theorem read?_renderFunction (tree : Tree) (options : Options) :
    read? (tree.renderFunction options)
      = some (.function ["data"] (tree.resultExpr options).term) := by
  have hlaid : (Expr.function ["data"] (tree.resultExpr options)).Laid :=
    ⟨rfl, resultExpr_laid tree options⟩
  exact read?_of_tokens hlaid (tokens?_renderFunction tree options)

/-! ## Running a module -/

/-- What the module of a template returns for data, given the modules that it may
load. -/
def Template.run (template : Template) (modules : Modules) (data : Value) : Option Value := do
  let function ← read? (template.tree.renderFunction template.options)
  (← (← function.eval modules globals).call modules [.of data]).present?

/-- A module returns what its function has as its result. -/
theorem Template.run_eq {template : Template} {modules : Modules} {data v : Value}
    (h : (template.tree.resultExpr template.options).Yields modules 0 data v) :
    template.run modules data = some v := by
  -- The parameter of the function is the variable of depth 0.
  have hdata : Holds (globals.bind "data" (some data)) 0 data := by
    refine ⟨rfl, fun name hname => ?_⟩
    have hne : ∀ name ∈ globalNames, name ≠ "data" := by decide
    rw [Environment.bind, if_neg (hne name hname)]
  have harguments : List.mapM Denotation.value? [.of data] = some [some data] := rfl
  have hresult : (template.tree.resultExpr template.options).term.eval modules
      (globals.bindAll ["data"] [some data]) = some (.of v) := h _ hdata
  rw [Template.run, read?_renderFunction]
  simp only [Option.bind_eq_bind, Option.bind_some, Term.eval, Denotation.call, harguments, hresult]
  rfl

/-- What the code of a template depends on besides its nodes. -/
def Template.emitOptions (template : Template) : EmitOptions :=
  ⟨template.tree.target, template.options.invertedPolicy, template.options.partialExtension⟩

/-- The module of a flat template returns the text of the template, if the modules that
it loads do. -/
theorem Template.run_flat {template : Template} (htarget : template.tree.target = .flat)
    {inclusions : Inclusions} {modules : Modules}
    (hincluded : ∀ p ∈ template.inclusions, Agrees template.emitOptions inclusions modules p)
    (data : Value) :
    ∃ text, template.textWith inclusions data = some text
      ∧ template.run modules data = some (.str text) := by
  -- All of a flat template stands in text, and includes flat templates alone.
  have hsite : template.inclusions = inclusionsOfNodes .text template.tree.nodes := by
    rw [Template.inclusions, htarget, Target.site]
  rw [hsite] at hincluded
  obtain ⟨ts, hts, htext⟩ := nodes_spell (by decide : Output.joined ≠ .nodes)
    template.tree.nodes hincluded 0 data
  obtain ⟨items, hitems, hjoin⟩ := closed_text (by decide : Output.joined ≠ .nodes) hts
  refine ⟨String.join ts, ?_, Template.run_eq fun env henv => ?_⟩
  · rw [Template.emitOptions, htarget] at htext
    exact htext rfl
  · have hfragments : template.tree.fragments template.options
        = emitNodes template.emitOptions .joined 0 template.tree.nodes := by
      rw [Tree.fragments, htarget]
      rw [Template.emitOptions, htarget]
      rfl
    rw [Tree.resultExpr, htarget, hfragments, ← hjoin]
    exact join_eval (hitems env henv) (.text "") rfl

/-- The module of a structural template returns the entries of the template, if the
modules that it loads do. -/
theorem Template.run_structural {template : Template} (htarget : template.tree.target = .structural)
    {inclusions : Inclusions} {modules : Modules}
    (hincluded : ∀ p ∈ template.inclusions, Agrees template.emitOptions inclusions modules p)
    (data : Value) :
    ∃ entries, template.nodesWith inclusions data = some entries
      ∧ template.run modules data = some (.arr (valuesOf entries)) := by
  have hsite : template.inclusions = inclusionsOfNodes .child template.tree.nodes := by
    rw [Template.inclusions, htarget, Target.site]
  rw [hsite] at hincluded
  obtain ⟨parts, hparts, hentries⟩ := nodes_give template.tree.nodes hincluded 0 data
  obtain ⟨entries, hrender, hvalues⟩ := Option.map_eq_some_iff.mp (hentries htarget)
  refine ⟨entries, hrender, Template.run_eq ?_⟩
  have hfragments : template.tree.fragments template.options
      = emitNodes template.emitOptions .nodes 0 template.tree.nodes := by
    rw [Tree.fragments, htarget, Template.emitOptions, htarget]
    rfl
  rw [Tree.resultExpr, htarget, hfragments, hvalues]
  exact closed_nodes hparts

/-! ## Loading modules -/

/-- The name of the template whose module a path leads to. -/
def moduleName? (extension path : String) : Option String :=
  let file := path.toList.drop 2
  if path.toList.take 2 = "./".toList ∧ extension.toList <:+ file then
    some (String.ofList (file.take (file.length - extension.toList.length)))
  else none

/-- An inclusion leads to the module of the template that it names. -/
theorem moduleName?_modulePath (extension name : String) :
    moduleName? extension (modulePath extension name) = some name := by
  have hpath : (modulePath extension name).toList
      = '.' :: '/' :: (name.toList ++ extension.toList) := by
    simp [modulePath]
  have hlength : (name.toList ++ extension.toList).length - extension.toList.length
      = name.toList.length := by
    rw [List.length_append]
    omega
  rw [moduleName?, hpath, List.drop_succ_cons, List.drop_succ_cons, List.drop_zero,
    if_pos ⟨rfl, List.suffix_append _ _⟩, hlength, List.take_left', String.ofList_toList]
  rfl

/-- Modules by the paths that lead to them, given what the modules of templates return
by their names. -/
def modulesOf (extension : String) (returned : String → Value → Option Value) : Modules :=
  fun path data => (moduleName? extension path).bind fun name => returned name data

/-- What the modules of templates return that may load each other `depth` deep. -/
def returnedTo (resolve : Resolver) : (depth : Nat) → String → Value → Option Value
  | 0 => fun _ _ => none
  | depth + 1 => fun name data => do
      let template ← resolve name
      template.run (modulesOf template.options.partialExtension (returnedTo resolve depth)) data

/-- What the module of a template returns whose inclusions go `depth` deep. -/
def Template.runTo (template : Template) (resolve : Resolver) (depth : Nat) (data : Value) :
    Option Value :=
  template.run (modulesOf template.options.partialExtension (returnedTo resolve depth)) data

/-- Whether the modules of a depth agree with the renderer on an inclusion, whatever
template it stands in. -/
def AgreesTo (resolve : Resolver) (depth : Nat) (p : Site × String) : Prop :=
  ∀ o : EmitOptions, Agrees o (inclusionsTo resolve depth)
    (modulesOf o.partialExtension (returnedTo resolve depth)) p

/-- The module that an inclusion leads to is that of the template of the name. -/
theorem modulesOf_modulePath {resolve : Resolver} {name : String} {template : Template}
    (hresolve : resolve name = some template) (extension : String) (depth : Nat) (data : Value) :
    modulesOf extension (returnedTo resolve (depth + 1)) (modulePath extension name) data
      = template.runTo resolve depth data := by
  rw [modulesOf, moduleName?_modulePath, Option.bind_some]
  simp only [returnedTo, hresolve, Option.bind_eq_bind, Option.bind_some]
  rfl

/-- Modules agree with the renderer on an inclusion if they do, one level deeper, on
what its template includes. -/
theorem agreesTo_succ {resolve : Resolver} {depth : Nat} {p : Site × String} {template : Template}
    (hresolve : resolve p.2 = some template) (hfits : template.Fits p.1)
    (hincluded : ∀ q ∈ template.inclusions, AgreesTo resolve depth q) :
    AgreesTo resolve (depth + 1) p := by
  intro o
  obtain ⟨site, name⟩ := p
  have hinner : ∀ q ∈ template.inclusions, Agrees template.emitOptions (inclusionsTo resolve depth)
      (modulesOf template.options.partialExtension (returnedTo resolve depth)) q :=
    fun q hq => hincluded q hq template.emitOptions
  have hmodule := modulesOf_modulePath hresolve o.partialExtension depth
  cases site with
  | text =>
      intro data
      obtain ⟨text, htext, hrun⟩ := Template.run_flat hfits.1 hinner data
      refine ⟨text, .str text, ?_, (hmodule data).trans hrun, .inl rfl⟩
      simp only [inclusionsTo, hresolve]
      exact htext
  | child =>
      intro data
      have hnodes : (inclusionsTo resolve (depth + 1)).nodes name data
          = template.includedNodes (inclusionsTo resolve depth) data := by
        simp only [inclusionsTo, hresolve]
      rw [hnodes, Template.includedNodes, ← hfits]
      cases htarget : template.tree.target with
      | flat =>
          -- Among children a flat template is one text, even an empty one.
          obtain ⟨text, htext, hrun⟩ := Template.run_flat htarget hinner data
          refine ⟨[.text text], .str text, ?_, (hmodule data).trans hrun, rfl⟩
          rw [htext]
          rfl
      | structural =>
          obtain ⟨entries, hentries, hrun⟩ := Template.run_structural htarget hinner data
          exact ⟨entries, .arr (valuesOf entries), hentries, (hmodule data).trans hrun, rfl⟩

/-- From some depth on, the modules that a template loads agree with the renderer. -/
theorem Sound.agrees {resolve : Resolver} {page : Template} (hsound : Sound resolve page) :
    ∃ bound, ∀ depth, bound ≤ depth → ∀ p ∈ page.inclusions,
      Agrees page.emitOptions (inclusionsTo resolve depth)
        (modulesOf page.options.partialExtension (returnedTo resolve depth)) p := by
  obtain ⟨bound, hbound⟩ := hsound.exists_bound (P := AgreesTo resolve)
    fun _ _ _ hresolve hfits hincluded => agreesTo_succ hresolve hfits hincluded
  exact ⟨bound, fun depth hdepth p hp => hbound depth hdepth p hp page.emitOptions⟩

/-! ## A list of items -/

/-- The options for a target that are the default ones otherwise. -/
def optionsFor (target : Target) : Options :=
  { Options.default with target }

/-- A template that shows a name. -/
def itemTemplate : Template :=
  ⟨⟨"item", .flat, [.interpolation "name" true ⟨1, 1⟩, .text ";"]⟩, optionsFor .flat⟩

/-- The resolver that knows this template alone. -/
def itemOnly : Resolver :=
  fun name => if name = "item" then some itemTemplate else none

theorem sound_of_items {page : Template} (h : ∀ p ∈ page.inclusions, p.2 = "item") :
    Sound itemOnly page := by
  refine sound_of_leaves fun p hp => ⟨itemTemplate, ?_, ?_, rfl⟩
  · rw [h p hp]
    rfl
  · cases p.1 with
    | text => exact ⟨rfl, rfl⟩
    | child => rfl

/-- Two items of a kind. -/
def twoItems : Value :=
  .obj [("items", .arr [.obj [("name", .str "a")], .obj [("name", .str "<")]]),
    ("kind", .str "x")]

/-- A flat template that includes another for each item. -/
def flatList : Template :=
  ⟨⟨"list", .flat, [.block .normal "items" [.inclusion "item" ⟨1, 1⟩] ⟨1, 1⟩]⟩,
    optionsFor .flat⟩

/-- A structural template that includes another for each item, in an element whose
attribute depends on the data. -/
def structuralList : Template :=
  ⟨⟨"list", .structural,
    [.element "ul" [.dynamic "class" [.text "list ", .interpolation "kind" true ⟨1, 1⟩]]
      [.block .normal "items" [.inclusion "item" ⟨1, 1⟩] ⟨1, 1⟩]]⟩,
    optionsFor .structural⟩

/-! ## Meaning -/

/-- The module of a flat template whose inclusions are in order returns the string that
the template renders to, for all data. -/
theorem flat_meaning {resolve : Resolver} {page : Template} (hflat : page.tree.target = .flat)
    (hsound : Sound resolve page) :
    ∃ bound, ∀ depth, bound ≤ depth → ∀ data, ∃ text,
      page.renderText resolve depth data = some text
        ∧ page.runTo resolve depth data = some (.str text) := by
  obtain ⟨bound, hbound⟩ := hsound.agrees
  exact ⟨bound, fun depth hdepth => Template.run_flat hflat (hbound depth hdepth)⟩

/-- The module of a flat list returns the text of its items. -/
theorem flat_meaning_of_list :
    ∃ depth, flatList.runTo itemOnly depth twoItems = some (.str "a;&lt;;") := by
  have hsound : Sound itemOnly flatList := sound_of_items (by decide)
  obtain ⟨bound, hbound⟩ := flat_meaning rfl hsound
  obtain ⟨text, htext, hrun⟩ := hbound (bound + 1) (by omega) twoItems
  have hrender : flatList.renderText itemOnly (bound + 1) twoItems = some "a;&lt;;" := rfl
  rw [hrender] at htext
  cases htext
  exact ⟨bound + 1, hrun⟩

/-- The module of a structural template whose inclusions are in order returns the list
of texts and elements that the template renders to, for all data. -/
theorem structural_meaning {resolve : Resolver} {page : Template}
    (hstructural : page.tree.target = .structural) (hsound : Sound resolve page) :
    ∃ bound, ∀ depth, bound ≤ depth → ∀ data, ∃ entries,
      page.renderNodes resolve depth data = some entries
        ∧ page.runTo resolve depth data = some (.arr (valuesOf entries)) := by
  obtain ⟨bound, hbound⟩ := hsound.agrees
  exact ⟨bound, fun depth hdepth => Template.run_structural hstructural (hbound depth hdepth)⟩

/-- The module of a structural list returns one element with its items. -/
theorem structural_meaning_of_list :
    ∃ depth, structuralList.runTo itemOnly depth twoItems
      = some (.arr (valuesOf
        [.element "ul" [("class", "list x")] [.text "a;", .text "&lt;;"]])) := by
  have hsound : Sound itemOnly structuralList := sound_of_items (by decide)
  obtain ⟨bound, hbound⟩ := structural_meaning rfl hsound
  obtain ⟨entries, hentries, hrun⟩ := hbound (bound + 1) (by omega) twoItems
  have hrender : structuralList.renderNodes itemOnly (bound + 1) twoItems
      = some [.element "ul" [("class", "list x")] [.text "a;", .text "&lt;;"]] := rfl
  rw [hrender] at hentries
  cases hentries
  exact ⟨bound + 1, hrun⟩

end Mustache
