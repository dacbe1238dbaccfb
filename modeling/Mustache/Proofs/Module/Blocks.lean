import Mustache.Proofs.Module.Runs
import Mustache.Proofs.Script.Evaluation

/-!
What the code of a block means.

The variable of a block depth holds the data of that depth, and no function or block
that is emitted hides the names that a module brings along. Under that invariant a
lookup in emitted code is a lookup in the data, the test for hidden values is the
renderer's, and the function of a block is run once in each scope that the renderer
shows the block in.
-/
set_option autoImplicit false

namespace Mustache

open Json Script Text

/-! ## The variables of block depths -/

/-- Two depths have two variables. -/
theorem contextVar_injective {m n : Nat} (h : contextVar m = contextVar n) : m = n := by
  have hvalue (d : Nat) : digitsValue ((contextVar d).drop 5) = d := by
    rw [contextVar]
    split_ifs with hd
    · rw [hd]
      rfl
    · exact digitsValue_decimal d
  rw [← hvalue m, ← hvalue n, h]

theorem take_contextVar (depth : Nat) : (contextVar depth).take 4 = "data".toList := by
  rw [contextVar]
  split_ifs <;> rfl

/-! ## The invariant -/

/-- The names that emitted code does not bind. -/
def globalNames : List String :=
  ["safeAccess", "toArray", "merge", "spread", "require", "Object"]

/-- Whether the variable of a depth holds the data of that depth, and the names that
emitted code does not bind stand for what they do. -/
structure Holds (env : Environment) (depth : Nat) (scope : Value) : Prop where
  context : env (String.ofList (contextVar depth)) = some (.of scope)
  globals : ∀ name ∈ globalNames, env name = Script.globals name

variable {modules : Modules} {env : Environment} {depth : Nat} {scope : Value}

theorem contextVar_ne_of_take {name : String} (h : name.toList.take 4 ≠ "data".toList)
    (depth : Nat) : String.ofList (contextVar depth) ≠ name := by
  rintro rfl
  rw [String.toList_ofList] at h
  exact h (take_contextVar depth)

theorem Holds.bind (h : Holds env depth scope) {name : String} (v : Option Value)
    (hcontext : String.ofList (contextVar depth) ≠ name) (hglobal : name ∉ globalNames) :
    Holds (env.bind name v) depth scope := by
  refine ⟨?_, fun other hother => ?_⟩
  · rw [Environment.bind, if_neg hcontext]
    exact h.context
  · have hne : other ≠ name := fun heq => hglobal (heq ▸ hother)
    rw [Environment.bind, if_neg hne]
    exact h.globals other hother

theorem Holds.next (h : Holds env depth scope) (inner : Value) :
    Holds (env.bind (String.ofList (contextVar (depth + 1))) (some inner)) (depth + 1) inner := by
  refine ⟨?_, fun other hother => ?_⟩
  · rw [Environment.bind, if_pos rfl]
    rfl
  · have hnames : ∀ name ∈ globalNames, name.toList.take 4 ≠ "data".toList := by decide
    have hne := (contextVar_ne_of_take (hnames other hother) (depth + 1)).symm
    rw [Environment.bind, if_neg hne]
    exact h.globals other hother

/-- Before the variable of the next depth is bound it is missing. -/
theorem Holds.hoisted (h : Holds env depth scope) :
    Holds (env.bind (String.ofList (contextVar (depth + 1))) none) depth scope := by
  have hnames : ∀ name ∈ globalNames, name.toList.take 4 ≠ "data".toList := by decide
  refine h.bind none (fun heq => ?_) fun hmem => ?_
  · have hlists := congrArg String.toList heq
    rw [String.toList_ofList, String.toList_ofList] at hlists
    have := contextVar_injective hlists
    omega
  · exact contextVar_ne_of_take (hnames _ hmem) (depth + 1) rfl

/-! ## Values of expressions -/

/-- What an expression stands for over the data of a depth. -/
def Script.Expr.Denotes (e : Expr) (modules : Modules) (depth : Nat) (scope : Value)
    (d : Denotation) : Prop :=
  ∀ env, Holds env depth scope → e.term.eval modules env = some d

/-- Which value an expression has over the data of a depth. -/
def Script.Expr.Yields (e : Expr) (modules : Modules) (depth : Nat) (scope v : Value) : Prop :=
  e.Denotes modules depth scope (.of v)

/-- The variable of a depth has the data as its value. -/
theorem contextRef_yields : (contextRef depth).Yields modules depth scope scope :=
  fun _ h => h.context

theorem text_yields (s : String) : (Expr.text s).Yields modules depth scope (.str s) :=
  fun _ _ => rfl

theorem mapM_value? (values : List (Option Value)) :
    (values.map Denotation.value).mapM Denotation.value? = some values := by
  induction values with
  | nil => rfl
  | cons v values ih =>
      rw [List.map_cons, List.mapM_cons, ih]
      rfl

theorem mapM_present? (values : List Value) :
    (values.map Denotation.of).mapM Denotation.present? = some values := by
  induction values with
  | nil => rfl
  | cons v values ih =>
      rw [List.map_cons, List.mapM_cons, ih]
      rfl

theorem eval_call (name : String) (values : List (Option Value))
    {run : List (Option Value) → Option (Option Value)}
    (hglobal : env name = some (.function run)) {arguments : List Expr}
    (harguments : evalList modules (termsOfList arguments) env = some (values.map .value)) :
    (call name arguments).term.eval modules env = (run values).map .value := by
  simp only [call, Expr.term, Term.eval, hglobal, harguments, Option.bind_eq_bind, Option.bind_some,
    Denotation.call, mapM_value?]

/-! ## Lookups -/

/-- A lookup in emitted code is a lookup in the data. -/
theorem lookup_denotes (expression : String) (escape : Bool) :
    (call "safeAccess" ([contextRef depth, .text expression]
      ++ if escape then [.yes] else [])).Denotes modules depth scope
        (.value (lookup scope expression escape)) := by
  intro env h
  have hcontext : (contextRef depth).term.eval modules env = some (.of scope) :=
    contextRef_yields env h
  have hglobal : env "safeAccess" = some (.function safeAccessOf) :=
    h.globals "safeAccess" (by decide)
  -- Without the flag the call has two arguments, and the function takes the third for false.
  cases escape with
  | false =>
      refine eval_call "safeAccess" [some scope, some (.str expression)] hglobal ?_
      simp only [Bool.false_eq_true, if_false, List.append_nil, termsOfList, evalList, hcontext,
        Option.bind_eq_bind, Option.bind_some]
      rfl
  | true =>
      refine eval_call "safeAccess" [some scope, some (.str expression), some (.bool true)]
        hglobal ?_
      simp only [if_true, List.cons_append, List.nil_append, termsOfList, evalList, hcontext,
        Option.bind_eq_bind, Option.bind_some]
      rfl

/-- What a section is shown for is what the renderer lists. -/
theorem elements_yields (expression : String) :
    (call "toArray" [contextRef depth, .text expression]).Yields modules depth scope
      (.arr (elements scope expression)) := by
  intro env h
  have hcontext : (contextRef depth).term.eval modules env = some (.of scope) :=
    contextRef_yields env h
  refine eval_call "toArray" [some scope, some (.str expression)]
    (h.globals "toArray" (by decide)) ?_
  simp only [termsOfList, evalList, hcontext, Option.bind_eq_bind, Option.bind_some]
  rfl

/-! ## Scopes -/

theorem elementScope_eval (h : Holds env depth scope) {element : Value} {place : Nat}
    {whole : List Value} (he : env "e" = some (.of element))
    (hi : env "i" = some (.of (.ofNat place))) (ha : env "a" = some (.of (.arr whole))) :
    (call "merge" [.record [], contextRef depth, elementBindingsExpr, .var "e"]).term.eval modules
      env = some (.of (elementScope scope element place whole.length)) := by
  have hcontext : (contextRef depth).term.eval modules env = some (.of scope) :=
    contextRef_yields env h
  -- The code lists the bindings in the order of their names, so setting them one by one gives the
  -- list as it is written.
  have hbindings : elementBindingsExpr.term.eval modules env
      = some (.of (.obj (elementBindings element place whole.length))) := by
    have hsorted : NameMap.insertAll [] (elementBindings element place whole.length)
        = elementBindings element place whole.length := by
      have hindex : ¬ ".index" < "." := by decide
      have hlength : ¬ ".length" < "." := by decide
      have hnext : ¬ ".length" < ".index" := by decide
      simp [elementBindings, NameMap.insertAll, NameMap.insert, hindex, hlength, hnext]
    rw [elementBindings] at hsorted
    simp [elementBindingsExpr, Expr.term, termsOfFields, FieldName.name, Term.eval, evalFields, he,
      hi, ha, Denotation.of, Denotation.present?, Denotation.value?, Denotation.member, property?,
      indexed?, Value.ofMembers, elementBindings, hsorted]
  refine eval_call "merge" [some (.obj []), some scope,
    some (.obj (elementBindings element place whole.length)), some element]
    (h.globals "merge" (by decide)) ?_
  simp only [termsOfList, evalList, hcontext, hbindings, Expr.term, Term.eval, he,
    Option.bind_eq_bind, Option.bind_some]
  rfl

theorem invertedScope_eval (h : Holds env depth scope) :
    (call "merge" [.record [], contextRef depth]).term.eval modules env
      = some (.of (.obj (overlay [] scope))) := by
  have hcontext : (contextRef depth).term.eval modules env = some (.of scope) :=
    contextRef_yields env h
  refine eval_call "merge" [some (.obj []), some scope] (h.globals "merge" (by decide)) ?_
  simp only [termsOfList, evalList, hcontext, Option.bind_eq_bind, Option.bind_some]
  rfl

/-! ## Hidden values -/

/-- A disjunction of booleans. -/
theorem or_eval {left right : Expr} {a b : Bool}
    (hl : left.term.eval modules env = some (.of (.bool a)))
    (hr : right.term.eval modules env = some (.of (.bool b))) :
    (Expr.binary .or left right).term.eval modules env = some (.of (.bool (a || b))) := by
  rw [Expr.term, Term.eval, hl]
  cases a
  · exact hr
  · rfl

/-- A conjunction of booleans, of which the second need not have a value if the first
is false. -/
theorem and_eval {left right : Expr} {a b : Bool}
    (hl : left.term.eval modules env = some (.of (.bool a)))
    (hr : a = true → right.term.eval modules env = some (.of (.bool b))) :
    (Expr.binary .and left right).term.eval modules env = some (.of (.bool (a && b))) := by
  rw [Expr.term, Term.eval, hl]
  cases a
  · rfl
  · exact hr rfl

/-- Two negations tell whether a value counts as true. -/
theorem not_not_eval {v : Option Value} (hv : env "v" = some (.value v)) :
    (Expr.not (.not (.var "v"))).term.eval modules env = some (.of (.bool (truthy v))) := by
  have hnot (b : Bool) : truthy (some (.bool b)) = b := rfl
  simp only [Expr.term, Term.eval, hv, Denotation.value?, Denotation.of, hnot, Bool.not_not,
    Option.bind_eq_bind, Option.bind_some]

/-- The parts of the test for hidden values, for a value that counts as true. -/
theorem hiddenParts_eval {value : Value} (htruthy : value.truthy = true)
    (hv : env "v" = some (.of value)) (hobject : env "Object" = some (.builtin ["Object"])) :
    (Expr.binary .equal (.typeOf (.var "v")) (.text "boolean")).term.eval modules env
        = some (.of (.bool (isBoolean value)))
      ∧ (Expr.binary .above (.member (.var "v") "length") (.number 0)).term.eval modules env
        = some (.of (.bool (hasPositiveLength value)))
      ∧ (Expr.binary .differ (method (.member (.member (.var "Object") "prototype") "toString")
          "call" [.var "v"]) (.text "[object Array]")).term.eval modules env
        = some (.of (.bool (!isArray value))) := by
  refine ⟨?_, ?_, ?_⟩
  · simp only [Expr.term, Term.eval, hv]
    cases value <;> rfl
  · have hlength : (Expr.member (.var "v") "length").term.eval modules env
        = some (.value (property? value "length")) := by
      simp only [Expr.term, Term.eval, hv, Option.bind_eq_bind, Option.bind_some]
      -- Only null has no properties, and it does not count as true.
      cases value <;> first | rfl | cases htruthy
    rw [Expr.term, Term.eval, hlength]
    rfl
  · have hcall : (method (.member (.member (.var "Object") "prototype") "toString") "call"
        [.var "v"]).term.eval modules env = some (.of (.str (className (some value)))) := by
      simp only [method, Expr.term, termsOfList, Term.eval, evalList, hv, hobject,
        Option.bind_eq_bind, Option.bind_some]
      rfl
    rw [Expr.term, Term.eval, hcall]
    cases value <;> rfl

theorem hiddenTest_eval (policy : InvertedPolicy) {v : Option Value}
    (hv : env "v" = some (.value v)) (hobject : env "Object" = some (.builtin ["Object"])) :
    (hiddenTest policy).term.eval modules env = some (.of (.bool (isHidden policy v))) := by
  have hnot : (Expr.not (.not (.var "v"))).term.eval modules env = some (.of (.bool (truthy v))) :=
    not_not_eval hv
  cases v with
  | none =>
      -- The rest of the test has no value here, and is not reached.
      have hfalse : isHidden policy none = (truthy none && true) := rfl
      rw [hfalse]
      exact and_eval hnot fun h => by cases h
  | some value =>
      cases policy with
      | arrayAware =>
          refine and_eval hnot fun h => ?_
          obtain ⟨hboolean, hlength, harray⟩ := hiddenParts_eval h hv hobject
          exact or_eval (or_eval hboolean hlength) harray
      | lengthOnly =>
          refine and_eval hnot fun h => ?_
          obtain ⟨hboolean, hlength, -⟩ := hiddenParts_eval h hv hobject
          exact or_eval hboolean hlength

/-! ## The function of a block -/

/-- What the function of a block does with its arguments. -/
def closureRun (modules : Modules) (env : Environment) (parameters : List String) (name : String)
    (value result : Expr) (arguments : List (Option Value)) : Option (Option Value) := do
  let inner := (env.bind name none).bindAll parameters arguments
  let v ← (← value.term.eval modules inner).value?
  (← result.term.eval modules (inner.bind name v)).value?

/-- A function that binds a variable first stands for what it does. -/
theorem closure_eval (parameters : List String) (name : String) (value result : Expr) :
    (Expr.closure parameters name value result).term.eval modules env
      = some (.function (closureRun modules env parameters name value result)) :=
  rfl

/-- The function of a section, run for one element, gives what the body gives in the
scope of that element. -/
theorem closureRun_section (h : Holds env depth scope) {result : Expr} {element : Value}
    {place : Nat} {whole items : List Value}
    (hresult : result.Yields modules (depth + 1) (elementScope scope element place whole.length)
      (.arr items)) :
    closureRun modules env ["e", "i", "a"] (String.ofList (contextVar (depth + 1)))
      (call "merge" [.record [], contextRef depth, elementBindingsExpr, .var "e"]) result
      [some element, some (.ofNat place), some (.arr whole)] = some (some (.arr items)) := by
  let inner := (((env.bind (String.ofList (contextVar (depth + 1))) none).bind "e"
    (some element)).bind "i" (some (.ofNat place))).bind "a" (some (.arr whole))
  have hne (name : String) (hname : name.toList.take 4 ≠ "data".toList) :
      String.ofList (contextVar depth) ≠ name := contextVar_ne_of_take hname depth
  -- The parameters hide neither the data of the depth nor a function of the module.
  have hinner : Holds inner depth scope :=
    ((h.hoisted.bind (some element) (hne "e" (by decide)) (by decide)).bind (some (.ofNat place))
      (hne "i" (by decide)) (by decide)).bind (some (.arr whole)) (hne "a" (by decide)) (by decide)
  have hscope : (call "merge" [.record [], contextRef depth, elementBindingsExpr,
      .var "e"]).term.eval modules inner
      = some (.of (elementScope scope element place whole.length)) :=
    elementScope_eval hinner rfl rfl rfl
  have hbody := hresult _ (hinner.next (elementScope scope element place whole.length))
  simp only [closureRun, Environment.bindAll, List.head?_cons, List.tail_cons, Option.getD_some]
  rw [hscope]
  simp only [Option.bind_eq_bind, Option.bind_some, Denotation.of, Denotation.value?]
  rw [hbody]
  rfl

/-- The function of an inverted section gives what the body gives in its scope. -/
theorem closureRun_inverted (h : Holds env depth scope) {result : Expr} {items : List Value}
    (hresult : result.Yields modules (depth + 1) (.obj (overlay [] scope)) (.arr items))
    (arguments : List (Option Value)) :
    closureRun modules env [] (String.ofList (contextVar (depth + 1)))
      (call "merge" [.record [], contextRef depth]) result arguments
      = some (some (.arr items)) := by
  have hscope : (call "merge" [.record [], contextRef depth]).term.eval modules
      (env.bind (String.ofList (contextVar (depth + 1))) none)
      = some (.of (.obj (overlay [] scope))) :=
    invertedScope_eval h.hoisted
  -- The variable of the scope is declared before it is set, and hides none that the body reads.
  have hbody := hresult _ (h.hoisted.next (.obj (overlay [] scope)))
  simp only [closureRun, Environment.bindAll]
  rw [hscope]
  simp only [Option.bind_eq_bind, Option.bind_some, Denotation.of, Denotation.value?]
  rw [hbody]
  rfl

/-! ## Running a block -/

theorem mapItems_section (h : Holds env depth scope) {result : Expr} (whole : List Value)
    (rest : List Value) (place : Nat) {results : List (List Value)}
    (hresults : List.Forall₂ (fun s items => result.Yields modules (depth + 1) s (.arr items))
      (elementScopesFrom scope whole.length place rest) results) :
    mapItems (closureRun modules env ["e", "i", "a"] (String.ofList (contextVar (depth + 1)))
      (call "merge" [.record [], contextRef depth, elementBindingsExpr, .var "e"]) result)
      whole place rest = some (results.map .arr) := by
  induction rest generalizing place results with
  | nil =>
      cases hresults
      rfl
  | cons element rest ih =>
      cases hresults with
      | cons hfirst hrest =>
          rw [mapItems, closureRun_section h hfirst, ih (place + 1) hrest]
          rfl

/-- Lists that are flattened by one level. -/
theorem flatMap_spliced (results : List (List Value)) :
    (results.map Value.arr).flatMap spliced = results.flatten := by
  induction results with
  | nil => rfl
  | cons items results ih => rw [List.map_cons, List.flatMap_cons, ih, List.flatten_cons, spliced]

/-- Applying the function of a block to the items of a list, and flattening what it
gives. -/
theorem spread_eval (h : Holds env depth scope) {source each : Expr} {items : List Value}
    {run : List (Option Value) → Option (Option Value)} {results : List (List Value)}
    (hsource : source.term.eval modules env = some (.of (.arr items)))
    (heach : each.term.eval modules env = some (.function run))
    (hresults : mapItems run items 0 items = some (results.map .arr)) :
    (call "spread" [method source "map" [each]]).term.eval modules env
      = some (.of (.arr results.flatten)) := by
  have hmap : (method source "map" [each]).term.eval modules env
      = some (.of (.arr (results.map .arr))) := by
    simp only [method, Expr.term, termsOfList, Term.eval, evalList, hsource, heach,
      Option.bind_eq_bind, Option.bind_some]
    have hcall : Denotation.call modules (.method (.of (.arr items)) "map") [.function run]
        = (mapItems run items 0 items).map fun results => .of (.arr results) := rfl
    rw [hresults] at hcall
    exact hcall
  rw [eval_call "spread" [some (.arr (results.map .arr))] (h.globals "spread" (by decide))]
  · rw [spreadOf, flatMap_spliced]
    rfl
  · simp only [termsOfList, evalList, hmap, Option.bind_eq_bind, Option.bind_some]
    rfl

/-! ## Results of blocks -/

/-- What a block with given items amounts to: their text, unless a list is built. -/
def Output.resultValue (output : Output) (items : List Value) : Value :=
  match output with
  | .joined | .summed => .str (String.join (printedItems items))
  | .nodes => .arr items

theorem intercalate_empty (parts : List String) : "".intercalate parts = String.join parts := by
  induction parts with
  | nil => simp
  | cons first rest ih =>
      cases rest with
      | nil => simp
      | cons next rest =>
          rw [String.intercalate_cons_cons, ih, String.join_cons, String.append_empty,
            String.join_cons, String.join_cons]

theorem join_eval {e : Expr} {items : List Value}
    (h : e.term.eval modules env = some (.of (.arr items))) (separator : Expr)
    (hseparator : separator.term.eval modules env = some (.of (.str ""))) :
    (method e "join" [separator]).term.eval modules env
      = some (.of (.str (String.join (printedItems items)))) := by
  simp only [method, Expr.term, termsOfList, Term.eval, evalList, h, hseparator,
    Option.bind_eq_bind, Option.bind_some]
  have hcall : Denotation.call modules (.method (.of (.arr items)) "join") [.of (.str "")]
      = some (.of (.str ("".intercalate (printedItems items)))) := rfl
  rw [intercalate_empty] at hcall
  exact hcall

theorem blockResult_yields (output : Output) {e : Expr} {items : List Value}
    (h : e.Yields modules depth scope (.arr items)) :
    (output.blockResult e).Yields modules depth scope (output.resultValue items) := by
  intro env henv
  cases output with
  | joined | summed => exact join_eval (h env henv) .emptyText rfl
  | nodes => exact h env henv

/-- A section amounts to what its body gives in the scopes that the renderer shows it
in. -/
theorem section_yields (output : Output) {expression : String} {result : Expr}
    {results : List (List Value)}
    (hresults : List.Forall₂ (fun s items => result.Yields modules (depth + 1) s (.arr items))
      (sectionScopes scope expression) results) :
    (sectionExpr output depth expression result).Yields modules depth scope
      (output.resultValue results.flatten) := by
  refine blockResult_yields output fun env h => ?_
  exact spread_eval h (elements_yields expression env h) (closure_eval _ _ _ _)
    (mapItems_section h (elements scope expression) _ 0 hresults)

/-- The condition of an inverted section is the renderer's. -/
theorem hidden_eval (policy : InvertedPolicy) (h : Holds env depth scope) (expression : String) :
    (Expr.paren (.apply (.function ["v"] (hiddenTest policy))
      [call "safeAccess" [contextRef depth, .text expression]])).term.eval modules env
      = some (.of (.bool (isHidden policy (lookup scope expression false)))) := by
  have hlookup : (call "safeAccess" [contextRef depth, .text expression]).term.eval modules env
      = some (.value (lookup scope expression false)) := lookup_denotes expression false env h
  have hobject : (env.bind "v" (lookup scope expression false)) "Object"
      = some (.builtin ["Object"]) := h.globals "Object" (by decide)
  -- The test runs with the value found as its one argument.
  have htest : (hiddenTest policy).term.eval modules (env.bind "v" (lookup scope expression false))
      = some (.of (.bool (isHidden policy (lookup scope expression false)))) :=
    hiddenTest_eval policy rfl hobject
  simp only [Expr.term, termsOfList, Term.eval, evalList, hlookup, Option.bind_eq_bind,
    Option.bind_some, Denotation.call]
  rw [← List.map_singleton, mapM_value?]
  simp only [Environment.bindAll, Option.bind_some, List.head?_cons, Option.getD_some]
  rw [htest]
  rfl

/-- A hidden inverted section amounts to an empty list. -/
theorem inverted_yields_of_hidden (policy : InvertedPolicy) (output : Output) {expression : String}
    (hhidden : isHidden policy (lookup scope expression false) = true) (result : Expr) :
    (invertedExpr policy output depth expression result).Yields modules depth scope (.arr []) := by
  intro env h
  have htest : (Expr.paren (.apply (.function ["v"] (hiddenTest policy))
      [call "safeAccess" [contextRef depth, .text expression]])).term.eval modules env
      = some (.of (.bool (isHidden policy (lookup scope expression false)))) :=
    hidden_eval policy h expression
  rw [hhidden] at htest
  rw [invertedExpr, Expr.term, Expr.term, Term.eval, htest]
  rfl

/-- The function of an inverted section is run once. -/
theorem once_yields {result : Expr} {items : List Value}
    (hresult : result.Yields modules (depth + 1) (.obj (overlay [] scope)) (.arr items)) :
    (call "spread" [method (.list [.number 1]) "map" [.closure []
      (String.ofList (contextVar (depth + 1))) (call "merge" [.record [], contextRef depth])
      result]]).Yields modules depth scope (.arr items) := by
  intro env h
  have hlist : (Expr.list [.number 1]).term.eval modules env = some (.of (.arr [.ofNat 1])) := rfl
  have hrun : mapItems (closureRun modules env [] (String.ofList (contextVar (depth + 1)))
      (call "merge" [.record [], contextRef depth]) result) [.ofNat 1] 0 [.ofNat 1]
      = some ([items].map .arr) := by
    rw [mapItems, closureRun_inverted h hresult]
    rfl
  have hspread := spread_eval h hlist (closure_eval _ _ _ _) hrun
  rwa [List.flatten_cons, List.flatten_nil, List.append_nil] at hspread

/-- An inverted section that is shown amounts to what its body gives. -/
theorem inverted_yields_of_shown (policy : InvertedPolicy) (output : Output) {expression : String}
    (hshown : isHidden policy (lookup scope expression false) = false) {result : Expr}
    {items : List Value}
    (hresult : result.Yields modules (depth + 1) (.obj (overlay [] scope)) (.arr items)) :
    (invertedExpr policy output depth expression result).Yields modules depth scope
      (output.resultValue items) := by
  intro env h
  have htest : (Expr.paren (.apply (.function ["v"] (hiddenTest policy))
      [call "safeAccess" [contextRef depth, .text expression]])).term.eval modules env
      = some (.of (.bool (isHidden policy (lookup scope expression false)))) :=
    hidden_eval policy h expression
  rw [hshown] at htest
  rw [invertedExpr, Expr.term, Expr.term, Term.eval, htest]
  exact blockResult_yields output (once_yields hresult) env h

/-- A block amounts to what its body gives in the scopes that the renderer shows it in;
without any it may be an empty list. -/
theorem block_yields (policy : InvertedPolicy) (output : Output) (kind : BlockKind)
    {expression : String} {result : Expr} {results : List (List Value)}
    (hresults : List.Forall₂ (fun s items => result.Yields modules (depth + 1) s (.arr items))
      (blockScopes policy kind scope expression) results) :
    ∃ v, Expr.Yields (match kind with
        | .normal => sectionExpr output depth expression result
        | .inverted => invertedExpr policy output depth expression result) modules depth scope v
      ∧ (v = output.resultValue results.flatten ∨ v = .arr [] ∧ results = []) := by
  cases kind with
  | normal => exact ⟨_, section_yields output hresults, .inl rfl⟩
  | inverted =>
      rw [blockScopes, invertedScopes] at hresults
      split_ifs at hresults with hhidden
      · -- Hidden, there is no scope at all, and the module gives the empty list as it is.
        cases hresults
        exact ⟨_, inverted_yields_of_hidden policy output hhidden result, .inr ⟨rfl, rfl⟩⟩
      · rw [Bool.not_eq_true] at hhidden
        cases hresults with
        | cons hfirst hrest =>
            cases hrest
            refine ⟨_, inverted_yields_of_shown policy output hhidden hfirst, .inl ?_⟩
            rw [List.flatten_cons, List.flatten_nil, List.append_nil]

end Mustache
