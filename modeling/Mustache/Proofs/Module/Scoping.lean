import Mustache.Proofs.Module.Meaning
import Mustache.Proofs.Module.Skeleton

/-!
The variables of emitted code.

Each block of a template becomes a function that declares one variable, named for the depth of
the block. In the code of a template a name is the variable of the depth it stands at, a
parameter of a function around it, or a name that the module provides (`Term.ScopedAt`); so no
variable is used outside the function that declares it. The uses of these variables, read off
the code in order, are those that are read off the tree by counting the blocks around each node
(`refers_emitNodes`, by induction on the tree). Emission with a stack that is pushed and popped
in front of and behind the body of a block gives the same code and leaves the stack as it was
(`run_stackedNodes`).
-/
set_option autoImplicit false

namespace Mustache

open Script Text

/-- The variable of a block depth, as a name. -/
def contextName (depth : Nat) : String :=
  String.ofList (contextVar depth)

/-- Whether a name starts as the variables of block depths do. -/
def isContextName (name : String) : Bool :=
  name.toList.take 4 == "data".toList

/-- The variables of block depths start as they do. -/
theorem isContextName_contextName (depth : Nat) : isContextName (contextName depth) = true := by
  rw [isContextName, contextName, String.toList_ofList, take_contextVar, beq_self_eq_true]

/-- A module provides no name that starts as the variables of block depths do. -/
theorem isContextName_eq_false {name : String} (h : name ∈ globalNames) :
    isContextName name = false := by
  have hall : ∀ name ∈ globalNames, isContextName name = false := by decide
  exact hall name h

/-! ## Uses of variables -/

/-- One use of a variable. -/
inductive ContextUse where
  /-- Its value is taken. -/
  | read (name : String)
  /-- It is declared. -/
  | declared (name : String)
  deriving DecidableEq, Repr

namespace Script

mutual

/-- The uses of names that start as the variables of block depths do, and all declarations,
in the order in which they stand in code. -/
def Term.contextUses : Term → List ContextUse
  | .text _ | .number _ | .yes => []
  | .name name => if isContextName name then [.read name] else []
  | .member object _ => object.contextUses
  | .call function arguments => function.contextUses ++ contextUsesOfTerms arguments
  | .array items => contextUsesOfTerms items
  | .object fields => contextUsesOfFields fields
  | .not operand | .typeOf operand => operand.contextUses
  | .binary _ left right => left.contextUses ++ right.contextUses
  | .choose test t f => test.contextUses ++ (t.contextUses ++ f.contextUses)
  | .function _ result => result.contextUses
  | .closure _ bound value result =>
      .declared bound :: (value.contextUses ++ result.contextUses)

def contextUsesOfTerms : List Term → List ContextUse
  | [] => []
  | t :: rest => t.contextUses ++ contextUsesOfTerms rest

/-- The uses in the fields of an object. -/
def contextUsesOfFields : List (String × Term) → List ContextUse
  | [] => []
  | (_, t) :: rest => t.contextUses ++ contextUsesOfFields rest

end

attribute [simp] Term.contextUses contextUsesOfTerms contextUsesOfFields

/-! ## Code in scope -/

/-- Whether a parameter hides neither a variable of a block depth nor what a module
provides. -/
def IsLocalName (name : String) : Prop :=
  isContextName name = false ∧ name ∉ globalNames

/-- Whether the first value of a variable is a new object that the entries of the variable of
a block depth are copied to first. -/
def Term.Extends (depth : Nat) (t : Term) : Prop :=
  ∃ more, t = .call (.name "merge") (.object [] :: .name (contextName depth) :: more)

mutual

/-- Whether the names in code are in scope at a block depth, among functions with the
parameters `locals`. A name is the variable of the depth, a parameter, or what a module
provides. A function that declares a variable declares that of the next depth, with a value
made from that of its own, and returns code of the next depth. -/
def Term.ScopedAt (depth : Nat) (locals : List String) : Term → Prop
  | .text _ | .number _ | .yes => True
  | .name name => name = contextName depth ∨ name ∈ locals ∨ name ∈ globalNames
  | .member object _ => object.ScopedAt depth locals
  | .call function arguments =>
      function.ScopedAt depth locals ∧ TermsScopedAt depth locals arguments
  | .array items => TermsScopedAt depth locals items
  | .object fields => FieldsScopedAt depth locals fields
  | .not operand | .typeOf operand => operand.ScopedAt depth locals
  | .binary _ left right => left.ScopedAt depth locals ∧ right.ScopedAt depth locals
  | .choose test t f =>
      test.ScopedAt depth locals ∧ t.ScopedAt depth locals ∧ f.ScopedAt depth locals
  | .function parameters result =>
      (∀ p ∈ parameters, IsLocalName p) ∧ result.ScopedAt depth (parameters ++ locals)
  | .closure parameters bound value result =>
      (∀ p ∈ parameters, IsLocalName p) ∧ bound = contextName (depth + 1) ∧ value.Extends depth
        ∧ value.ScopedAt depth (parameters ++ locals)
        ∧ result.ScopedAt (depth + 1) (parameters ++ locals)

/-- Whether the names in terms are in scope. -/
def TermsScopedAt (depth : Nat) (locals : List String) : List Term → Prop
  | [] => True
  | t :: rest => t.ScopedAt depth locals ∧ TermsScopedAt depth locals rest

/-- Whether the names in the fields of an object are in scope. -/
def FieldsScopedAt (depth : Nat) (locals : List String) : List (String × Term) → Prop
  | [] => True
  | (_, t) :: rest => t.ScopedAt depth locals ∧ FieldsScopedAt depth locals rest

end

attribute [simp] Term.ScopedAt TermsScopedAt FieldsScopedAt

/-- Whether code is in scope and uses variables as told. -/
structure Term.Refers (depth : Nat) (locals : List String) (t : Term) (uses : List ContextUse) :
    Prop where
  inScope : t.ScopedAt depth locals
  used : t.contextUses = uses

/-- Whether terms are in scope and use variables as told. -/
structure TermsRefer (depth : Nat) (locals : List String) (ts : List Term)
    (uses : List ContextUse) : Prop where
  inScope : TermsScopedAt depth locals ts
  used : contextUsesOfTerms ts = uses

section

variable {depth : Nat} {locals : List String} {t : Term} {ts ts' : List Term}
  {uses uses' : List ContextUse}

theorem termsRefer_nil : TermsRefer depth locals [] [] := ⟨trivial, rfl⟩

theorem Term.Refers.cons (h : t.Refers depth locals uses) (h' : TermsRefer depth locals ts uses') :
    TermsRefer depth locals (t :: ts) (uses ++ uses') :=
  ⟨⟨h.inScope, h'.inScope⟩, by rw [contextUsesOfTerms, h.used, h'.used]⟩

theorem Term.Refers.single (h : t.Refers depth locals uses) : TermsRefer depth locals [t] uses := by
  have hcons := h.cons termsRefer_nil
  rwa [List.append_nil] at hcons

theorem TermsRefer.exists_cons (h : TermsRefer depth locals (t :: ts) uses) :
    ∃ first rest, uses = first ++ rest ∧ t.Refers depth locals first
      ∧ TermsRefer depth locals ts rest := by
  obtain ⟨⟨ht, hts⟩, rfl⟩ := h
  exact ⟨_, _, rfl, ⟨ht, rfl⟩, ⟨hts, rfl⟩⟩

theorem TermsRefer.append (h : TermsRefer depth locals ts uses)
    (h' : TermsRefer depth locals ts' uses') :
    TermsRefer depth locals (ts ++ ts') (uses ++ uses') := by
  induction ts generalizing uses with
  | nil =>
      obtain ⟨-, rfl⟩ := h
      exact h'
  | cons t ts ih =>
      obtain ⟨first, rest, rfl, ht, hts⟩ := h.exists_cons
      rw [List.append_assoc]
      exact ht.cons (ih hts)

theorem refers_text (value : String) : (Term.text value).Refers depth locals [] :=
  ⟨trivial, rfl⟩

/-- What a module provides is in scope everywhere, and is no variable. -/
theorem refers_global {name : String} (h : name ∈ globalNames) :
    (Term.name name).Refers depth locals [] := by
  refine ⟨.inr (.inr h), ?_⟩
  rw [Term.contextUses, isContextName_eq_false h]
  rfl

/-- The variable of a depth is in scope at that depth. -/
theorem refers_contextRef : (contextRef depth).term.Refers depth locals
    [.read (contextName depth)] := by
  refine ⟨.inl rfl, ?_⟩
  have hname : (contextRef depth).term = .name (contextName depth) := rfl
  rw [hname, Term.contextUses, isContextName_contextName]
  rfl

theorem refers_call {name : String} {arguments : List Expr} (hname : name ∈ globalNames)
    (h : TermsRefer depth locals (termsOfList arguments) uses) :
    (call name arguments).term.Refers depth locals uses := by
  have hglobal : (Term.name name).Refers depth locals [] := refers_global hname
  refine ⟨⟨hglobal.inScope, h.inScope⟩, ?_⟩
  have hcall : (call name arguments).term = .call (.name name) (termsOfList arguments) := rfl
  rw [hcall, Term.contextUses, hglobal.used, h.used, List.nil_append]

theorem refers_method {object : Expr} {arguments : List Expr}
    (hobject : object.term.Refers depth locals uses) (name : String)
    (h : TermsRefer depth locals (termsOfList arguments) uses') :
    (method object name arguments).term.Refers depth locals (uses ++ uses') := by
  refine ⟨⟨hobject.inScope, h.inScope⟩, ?_⟩
  have hmethod : (method object name arguments).term
      = .call (.member object.term name) (termsOfList arguments) := rfl
  rw [hmethod, Term.contextUses, Term.contextUses, hobject.used, h.used]

/-- A list that is put together uses what its parts use. -/
theorem refers_concatenated {arguments : List Expr}
    (h : TermsRefer depth locals (termsOfList arguments) uses) :
    (concatenated arguments).term.Refers depth locals uses := by
  have hempty : (Expr.list []).term.Refers depth locals [] := ⟨trivial, rfl⟩
  exact refers_method hempty "concat" h

/-! ## Blocks -/

/-- The result of a block uses what the list and the function use that it is made of. -/
theorem refers_blockResult (output : Output) {source each : Expr}
    (hsource : source.term.Refers depth locals uses)
    (heach : each.term.Refers depth locals uses') :
    (output.blockResult (call "spread" [method source "map" [each]])).term.Refers depth locals
      (uses ++ uses') := by
  have hmap : (method source "map" [each]).term.Refers depth locals (uses ++ uses') :=
    refers_method hsource "map" heach.single
  have hspread : (call "spread" [method source "map" [each]]).term.Refers depth locals
      (uses ++ uses') := refers_call (by decide) hmap.single
  cases output with
  | nodes => exact hspread
  | joined | summed =>
      have hempty : TermsRefer depth locals (termsOfList [.emptyText]) [] := (refers_text "").single
      have hjoin := refers_method hspread "join" hempty
      rwa [List.append_nil] at hjoin

/-- The function of a block declares the variable of the next depth. -/
theorem refers_closure {parameters : List String} {value result : Expr} {more : List Term}
    (hparameters : ∀ p ∈ parameters, IsLocalName p)
    (hvalue : value.term = .call (.name "merge") (.object [] :: (contextRef depth).term :: more))
    (hmore : TermsRefer depth (parameters ++ locals) more [])
    (hresult : result.term.Refers (depth + 1) (parameters ++ locals) uses) :
    (Expr.closure parameters (String.ofList (contextVar (depth + 1))) value result).term.Refers
      depth locals
      (.declared (contextName (depth + 1)) :: .read (contextName depth) :: uses) := by
  have hcontext : (contextRef depth).term.Refers depth (parameters ++ locals)
      [.read (contextName depth)] := refers_contextRef
  have hmerge : (Term.name "merge").Refers depth (parameters ++ locals) [] :=
    refers_global (by decide)
  -- The scope is declared before its value is read, and the value reads the scope around.
  refine ⟨⟨hparameters, rfl, ⟨more, hvalue⟩, ?_, hresult.inScope⟩, ?_⟩
  · rw [hvalue]
    exact ⟨hmerge.inScope, trivial, hcontext.inScope, hmore.inScope⟩
  · rw [Expr.term, Term.contextUses, hvalue, hresult.used, Term.contextUses, hmerge.used,
      contextUsesOfTerms, contextUsesOfTerms, hcontext.used, hmore.used]
    rfl

/-- A section takes the variable of its depth, and declares that of the next for its body. -/
theorem refers_sectionExpr (output : Output) (expression : String) {result : Expr}
    (h : result.term.Refers (depth + 1) (["e", "i", "a"] ++ locals) uses) :
    (sectionExpr output depth expression result).term.Refers depth locals
      (.read (contextName depth) :: .declared (contextName (depth + 1))
        :: .read (contextName depth) :: uses) := by
  have helements : (call "toArray" [contextRef depth, .text expression]).term.Refers depth locals
      [.read (contextName depth)] :=
    refers_call (by decide) (refers_contextRef.cons (refers_text expression).single)
  have hlocal : ∀ p ∈ ["e", "i", "a"], IsLocalName p := by
    unfold IsLocalName
    decide
  -- Besides its depth's variable the value of the scope takes the parameters alone.
  have hbindings : TermsRefer depth (["e", "i", "a"] ++ locals)
      [elementBindingsExpr.term, (Expr.var "e").term] [] := by
    constructor
    · simp [elementBindingsExpr, Expr.term, termsOfFields]
    · rfl
  exact refers_blockResult output helements (refers_closure hlocal rfl hbindings h)

/-- The test for hidden values takes no variable of a block depth. -/
theorem refers_hiddenTest (policy : InvertedPolicy) :
    (hiddenTest policy).term.Refers depth ("v" :: locals) [] := by
  cases policy <;> constructor <;>
    simp [hiddenTest, method, Expr.term, termsOfList, globalNames, isContextName]

/-- An inverted section takes the variable of its depth, and declares that of the next for its
body. -/
theorem refers_invertedExpr (policy : InvertedPolicy) (output : Output) (expression : String)
    {result : Expr} (h : result.term.Refers (depth + 1) locals uses) :
    (invertedExpr policy output depth expression result).term.Refers depth locals
      (.read (contextName depth) :: .declared (contextName (depth + 1))
        :: .read (contextName depth) :: uses) := by
  have hlookup : (call "safeAccess" [contextRef depth, .text expression]).term.Refers depth locals
      [.read (contextName depth)] :=
    refers_call (by decide) (refers_contextRef.cons (refers_text expression).single)
  have hlocal : IsLocalName "v" := by
    unfold IsLocalName
    decide
  have htest : (hiddenTest policy).term.Refers depth ("v" :: locals) [] := refers_hiddenTest policy
  have hone : (Expr.list [.number 1]).term.Refers depth locals [] := ⟨⟨trivial, trivial⟩, rfl⟩
  have hnone : ∀ p ∈ ([] : List String), IsLocalName p := fun p hp => nomatch hp
  have hscope : (call "merge" [.record [], contextRef depth]).term
      = .call (.name "merge") (.object [] :: (contextRef depth).term :: []) := rfl
  have hshown := refers_blockResult output hone (refers_closure hnone hscope termsRefer_nil h)
  constructor
  · refine ⟨⟨⟨?_, htest.inScope⟩, hlookup.inScope, trivial⟩, trivial, hshown.inScope⟩
    intro p hp
    rw [List.mem_singleton.mp hp]
    exact hlocal
  · -- The order of the uses is read off the term: the lookup, then the scope that the block
    -- declares.
    have hterm : (invertedExpr policy output depth expression result).term
        = .choose (.call (.function ["v"] (hiddenTest policy).term)
            [(call "safeAccess" [contextRef depth, .text expression]).term]) (.array [])
          (output.blockResult (call "spread" [method (.list [.number 1]) "map"
            [.closure [] (String.ofList (contextVar (depth + 1)))
              (call "merge" [.record [], contextRef depth]) result]])).term := rfl
    have hhidden : (Term.function ["v"] (hiddenTest policy).term).contextUses = [] := htest.used
    rw [hterm, Term.contextUses, Term.contextUses, hhidden, hlookup.single.used, hshown.used]
    rfl

/-! ## Runs -/

/-- The code of the fragments of a run. -/
def argumentTerms (fragments : List Fragment) : List Term :=
  termsOfList (fragments.map Fragment.argument)

theorem termsOfList_append (es es' : List Expr) :
    termsOfList (es ++ es') = termsOfList es ++ termsOfList es' := by
  induction es with
  | nil => rfl
  | cons e es ih => rw [List.cons_append, termsOfList, termsOfList, ih, List.cons_append]

theorem argumentTerms_append (first rest : List Fragment) :
    argumentTerms (first ++ rest) = argumentTerms first ++ argumentTerms rest := by
  rw [argumentTerms, List.map_append, termsOfList_append]
  rfl

theorem refers_termOfSum {left : Term} {rest : List (Bool × Expr)}
    (hleft : left.Refers depth locals uses)
    (h : TermsRefer depth locals (termsOfList (rest.map Prod.snd)) uses') :
    (termOfSum left rest).Refers depth locals (uses ++ uses') := by
  induction rest generalizing left uses uses' with
  | nil =>
      obtain ⟨-, rfl⟩ := h
      rwa [termOfSum, List.map_nil, termsOfList, contextUsesOfTerms, List.append_nil]
  | cons summand rest ih =>
      obtain ⟨spaced, e⟩ := summand
      obtain ⟨first, others, rfl, hfirst, hothers⟩ := h.exists_cons
      rw [termOfSum, ← List.append_assoc]
      refine ih ⟨⟨hleft.inScope, hfirst.inScope⟩, ?_⟩ hothers
      rw [Term.contextUses, hleft.used, hfirst.used]

theorem refers_sumOf {summands : List (Bool × Expr)}
    (h : TermsRefer depth locals (termsOfList (summands.map Prod.snd)) uses) :
    (sumOf summands).term.Refers depth locals uses := by
  match summands with
  | [] =>
      obtain ⟨-, rfl⟩ := h
      exact refers_text ""
  | [(_, only)] =>
      obtain ⟨first, rest, rfl, hfirst, hrest⟩ := h.exists_cons
      obtain ⟨-, rfl⟩ := hrest
      rwa [List.map_nil, termsOfList, contextUsesOfTerms, List.append_nil]
  | (_, first) :: next :: rest =>
      obtain ⟨uses, others, rfl, hfirst, hothers⟩ := h.exists_cons
      exact refers_termOfSum hfirst hothers

theorem TermsRefer.summands {fragments : List Fragment}
    (h : TermsRefer depth locals (argumentTerms fragments) uses) :
    TermsRefer depth locals
      (termsOfList ((fragments.flatMap Fragment.summands).map Prod.snd)) uses := by
  induction fragments generalizing uses with
  | nil => exact h
  | cons fragment rest ih =>
      obtain ⟨first, others, rfl, hfirst, hothers⟩ := h.exists_cons
      rw [List.flatMap_cons, List.map_append, termsOfList_append]
      refine TermsRefer.append ?_ (ih hothers)
      cases fragment with
      | whole value =>
          exact hfirst.single
      | printed value =>
          -- The empty text comes first, as a summand of its own.
          obtain ⟨⟨-, hscoped⟩, rfl⟩ := hfirst
          have hvalue : value.term.Refers depth locals value.term.contextUses := ⟨hscoped, rfl⟩
          exact (refers_text "").cons hvalue.single

theorem refers_runSum {fragments : List Fragment}
    (h : TermsRefer depth locals (argumentTerms fragments) uses) :
    (runSum fragments).term.Refers depth locals uses := by
  refine refers_sumOf ?_
  have hend : TermsRefer depth locals (termsOfList [.text ""]) [] :=
    (refers_text "").single
  have happend := h.summands.append hend
  rw [List.append_nil, ← termsOfList_append] at happend
  rwa [List.map_append]

theorem TermsRefer.close (output : Output) {fragments : List Fragment}
    (h : TermsRefer depth locals (argumentTerms fragments) uses) :
    TermsRefer depth locals (termsOfList (output.close fragments)) uses := by
  have harguments (terminator : Expr) (hend : terminator.term.Refers depth locals []) :
      TermsRefer depth locals
        (termsOfList (fragments.map Fragment.argument ++ [terminator])) uses := by
    have happend := h.append hend.single
    rw [List.append_nil] at happend
    rw [termsOfList_append]
    exact happend
  cases output with
  | joined => exact harguments (.text "") (refers_text "")
  | nodes => exact harguments (.list []) ⟨trivial, rfl⟩
  | summed =>
      exact (refers_runSum h).single

end

end Script

/-! ## Emitted code -/

mutual

/-- The uses of variables in the code of a node that is in so many blocks. -/
def Node.contextUses (depth : Nat) : Node → List ContextUse
  | .text _ => []
  | .interpolation .. | .inclusion .. => [.read (contextName depth)]
  | .block _ _ body _ =>
      .read (contextName depth) :: .declared (contextName (depth + 1))
        :: .read (contextName depth) :: contextUsesOfNodes (depth + 1) body
  | .element _ attributes children =>
      contextUsesOfAttributes depth attributes ++ contextUsesOfNodes depth children

/-- The uses of variables in the code of nodes that are in so many blocks. -/
def contextUsesOfNodes (depth : Nat) : List Node → List ContextUse
  | [] => []
  | node :: rest => node.contextUses depth ++ contextUsesOfNodes depth rest

/-- The uses of variables in the code of an attribute of an element in so many blocks. -/
def Attribute.contextUses (depth : Nat) : Attribute → List ContextUse
  | .static .. => []
  | .dynamic _ parts => contextUsesOfNodes depth parts

/-- The uses of variables in the code of attributes of an element in so many blocks. -/
def contextUsesOfAttributes (depth : Nat) : List Attribute → List ContextUse
  | [] => []
  | attr :: rest => attr.contextUses depth ++ contextUsesOfAttributes depth rest

end

mutual

/-- The code of a node is in scope at its block depth, and uses the variables that it is meant
to use. -/
theorem refers_emitNode (o : EmitOptions) (output : Output) (depth : Nat) (locals : List String)
    (node : Node) :
    TermsRefer depth locals (argumentTerms (emitNode o output depth node).toList)
      (node.contextUses depth) := by
  cases node with
  | text value =>
      cases hvalue : literalFragment? o.target value with
      | none =>
          rw [emitNode, hvalue]
          exact termsRefer_nil
      | some fragment =>
          rw [emitNode, hvalue, eq_text_of_literalFragment hvalue]
          exact (refers_text _).single
  | interpolation expression escape location =>
      have hescape : TermsRefer depth locals (termsOfList (if escape then [.yes] else [])) [] := by
        cases escape
        · exact termsRefer_nil
        · exact ⟨⟨trivial, trivial⟩, rfl⟩
      have hlookup : (call "safeAccess" (contextRef depth :: .text expression
          :: if escape then [.yes] else [])).term.Refers depth locals
            [.read (contextName depth)] :=
        refers_call (by decide) (refers_contextRef.cons ((refers_text expression).cons hescape))
      have hprinted : (Term.binary .plus (.text "") (call "safeAccess" (contextRef depth
          :: .text expression :: if escape then [.yes] else [])).term).Refers depth locals
            [.read (contextName depth)] :=
        ⟨⟨trivial, hlookup.inScope⟩, hlookup.used⟩
      exact hprinted.single
  | inclusion name location =>
      have hload : (call "require" [.text (modulePath o.partialExtension name)]).term.Refers depth
          locals [] := refers_call (by decide) (refers_text _).single
      have hcontext : TermsRefer depth locals (termsOfList [contextRef depth])
          [.read (contextName depth)] := refers_contextRef.single
      exact (refers_method hload "render" hcontext).single
  | block kind expression body location =>
      -- The parameters of the function around the body are in scope in the body.
      cases kind with
      | normal =>
          have hbody := refers_emitNodes o output (depth + 1) (["e", "i", "a"] ++ locals) body
          exact (refers_sectionExpr output expression
            (refers_concatenated (hbody.close output))).single
      | inverted =>
          have hbody := refers_emitNodes o output (depth + 1) locals body
          exact (refers_invertedExpr o.invertedPolicy output expression
            (refers_concatenated (hbody.close output))).single
  | element tag attributes children =>
      obtain ⟨hscoped, huses⟩ := refers_emitAttributes o depth locals attributes
      have hchildren := refers_concatenated
        ((refers_emitNodes o .nodes depth locals children).close .nodes)
      have helement : (Term.object
          [("tag", .text tag),
            ("attrs", .object (termsOfFields (emitAttributes o depth attributes))),
            ("children", (concatenated (Output.nodes.close
              (emitNodes o .nodes depth children))).term)]).Refers depth locals
            ((Node.element tag attributes children).contextUses depth) := by
        refine ⟨⟨trivial, hscoped, hchildren.inScope, trivial⟩, ?_⟩
        simp only [Term.contextUses, contextUsesOfFields, huses, hchildren.used, Node.contextUses,
          List.nil_append, List.append_nil]
      exact helement.single

/-- The code of nodes is in scope at their block depth, and uses the variables that it is meant
to use. -/
theorem refers_emitNodes (o : EmitOptions) (output : Output) (depth : Nat) (locals : List String)
    (nodes : List Node) :
    TermsRefer depth locals (argumentTerms (emitNodes o output depth nodes))
      (contextUsesOfNodes depth nodes) := by
  cases nodes with
  | nil => exact termsRefer_nil
  | cons node rest =>
      rw [emitNodes, argumentTerms_append]
      exact (refers_emitNode o output depth locals node).append
        (refers_emitNodes o output depth locals rest)

/-- The code of attributes is in scope at the block depth of their element, and uses the
variables that it is meant to use. -/
theorem refers_emitAttributes (o : EmitOptions) (depth : Nat) (locals : List String)
    (attributes : List Attribute) :
    FieldsScopedAt depth locals (termsOfFields (emitAttributes o depth attributes))
      ∧ contextUsesOfFields (termsOfFields (emitAttributes o depth attributes))
        = contextUsesOfAttributes depth attributes := by
  cases attributes with
  | nil => exact ⟨trivial, rfl⟩
  | cons attr rest =>
      obtain ⟨hscoped, huses⟩ := refers_emitAttributes o depth locals rest
      rw [emitAttributes, contextUsesOfAttributes, ← huses]
      cases attr with
      | static name value => exact ⟨⟨trivial, hscoped⟩, rfl⟩
      | dynamic name parts =>
          have hvalue := refers_runSum (refers_emitNodes o .summed depth locals parts)
          refine ⟨⟨hvalue.inScope, hscoped⟩, ?_⟩
          rw [emitAttribute, termsOfFields, contextUsesOfFields, hvalue.used]
          rfl

end

/-! ## The stack of open blocks -/

/-- The code of a block, given the variables in front of and in its body. -/
def blockOver (policy : InvertedPolicy) (output : Output) (kind : BlockKind)
    (parent child expression : String) (result : Expr) : Expr :=
  match kind with
  | .normal =>
      let scope := call "merge" [.record [], .var parent, elementBindingsExpr, .var "e"]
      .paren (output.blockResult
        (call "spread"
          [method (call "toArray" [.var parent, .text expression]) "map"
            [.closure ["e", "i", "a"] child scope result]]))
  | .inverted =>
      let value := call "safeAccess" [.var parent, .text expression]
      let scope := call "merge" [.record [], .var parent]
      .paren (.choose (.paren (.apply (.function ["v"] (hiddenTest policy)) [value])) (.list [])
        (output.blockResult
          (call "spread" [method (.list [.number 1]) "map" [.closure [] child scope result]])))

/-- Emission, with the open blocks as its state. -/
abbrev Emission := StateM ScopeStack

/-- The variable of the innermost open block. -/
def currentRef : Emission Expr := do
  return .var (String.ofList (← get).currentVar)

/-- Emission inside a block that is opened in front of it and closed behind it. Gives the
variables in front of and in the block as well. -/
def inScope {α : Type} (kind : BlockKind) (expression : String) (location : Location)
    (emission : Emission α) : Emission (String × String × α) := do
  let outside ← get
  let inside := outside.push kind expression location
  set inside
  let result ← emission
  modify fun stack => (stack.pop?.map Prod.snd).getD stack
  let child := (inside.current?.map Scope.depth).getD 0
  return (String.ofList outside.currentVar, String.ofList (contextVar child), result)

mutual

/-- The fragment of a node, with the variable of the innermost open block. -/
def stackedNode (o : EmitOptions) (output : Output) : Node → Emission (Option Fragment)
  | .text value => return literalFragment? o.target value
  | .interpolation expression escape _ => do
      let context ← currentRef
      return some (.printed (call "safeAccess"
        ([context, .text expression] ++ if escape then [.yes] else [])))
  | .inclusion name _ => do
      let context ← currentRef
      return some (.whole (method (call "require" [.text (modulePath o.partialExtension name)])
        "render" [context]))
  | .block kind expression body location => do
      let (parent, child, fragments) ←
        inScope kind expression location (stackedNodes o output body)
      return some (.whole (blockOver o.invertedPolicy output kind parent child expression
        (concatenated (output.close fragments))))
  | .element tag attributes children => do
      let fields ← stackedAttributes o attributes
      let fragments ← stackedNodes o .nodes children
      return some (.whole (.record
        [(.bare "tag", .text tag), (.bare "attrs", .record fields),
         (.bare "children", concatenated (Output.nodes.close fragments))]))

def stackedNodes (o : EmitOptions) (output : Output) : List Node → Emission (List Fragment)
  | [] => return []
  | node :: rest => do
      let fragment ← stackedNode o output node
      let fragments ← stackedNodes o output rest
      return fragment.toList ++ fragments

def stackedAttribute (o : EmitOptions) : Attribute → Emission (FieldName × Expr)
  | .static name value => return (.quoted name, .text value)
  | .dynamic name parts => do
      let fragments ← stackedNodes o .summed parts
      return (.quoted name, runSum fragments)

def stackedAttributes (o : EmitOptions) : List Attribute → Emission (List (FieldName × Expr))
  | [] => return []
  | attr :: rest => do
      let field ← stackedAttribute o attr
      let fields ← stackedAttributes o rest
      return field :: fields

end

/-- An emission goes on from the stack that a first part leaves. -/
theorem run_bind {α β : Type} {emission : Emission α} {next : α → Emission β} {value : α}
    {stack stack' : ScopeStack} (h : emission.run stack = (value, stack')) :
    (emission >>= next).run stack = (next value).run stack' := by
  rw [StateT.run_bind, h]
  rfl

/-- An emission that leaves the stack as it was, leaves it as it was in a block. -/
theorem run_inScope {α : Type} {emission : Emission α} {stack : ScopeStack} {kind : BlockKind}
    {expression : String} {location : Location} {value : α}
    (h : emission.run (stack.push kind expression location)
      = (value, stack.push kind expression location)) :
    (inScope kind expression location emission).run stack
      = ((contextName stack.depth, contextName (stack.depth + 1), value), stack) := by
  rw [inScope]
  refine (run_bind rfl).trans ((run_bind rfl).trans ((run_bind h).trans ?_))
  rfl

mutual

/-- Emission of a node gives the code for the number of open blocks, and leaves these as they
were. -/
theorem run_stackedNode (o : EmitOptions) (output : Output) (node : Node) (stack : ScopeStack) :
    (stackedNode o output node).run stack = (emitNode o output stack.depth node, stack) := by
  cases node with
  | text value =>
      rw [stackedNode, emitNode]
      rfl
  | interpolation expression escape location =>
      rw [stackedNode, emitNode]
      rfl
  | inclusion name location =>
      rw [stackedNode, emitNode]
      rfl
  | block kind expression body location =>
      -- The stack has one scope more inside the block, and is the same again behind it.
      have hbody := run_stackedNodes o output body (stack.push kind expression location)
      rw [stackedNode]
      refine (run_bind (run_inScope hbody)).trans ?_
      cases kind <;> rfl
  | element tag attributes children =>
      rw [stackedNode, emitNode]
      refine (run_bind (run_stackedAttributes o attributes stack)).trans ?_
      exact run_bind (run_stackedNodes o .nodes children stack)

/-- Emission of nodes gives the code for the number of open blocks, and leaves these as they
were. -/
theorem run_stackedNodes (o : EmitOptions) (output : Output) (nodes : List Node)
    (stack : ScopeStack) :
    (stackedNodes o output nodes).run stack = (emitNodes o output stack.depth nodes, stack) := by
  cases nodes with
  | nil =>
      rw [stackedNodes, emitNodes]
      rfl
  | cons node rest =>
      rw [stackedNodes, emitNodes]
      refine (run_bind (run_stackedNode o output node stack)).trans ?_
      exact run_bind (run_stackedNodes o output rest stack)

/-- Emission of an attribute gives the code for the number of open blocks, and leaves these as
they were. -/
theorem run_stackedAttribute (o : EmitOptions) (attr : Attribute) (stack : ScopeStack) :
    (stackedAttribute o attr).run stack = (emitAttribute o stack.depth attr, stack) := by
  cases attr with
  | static name value =>
      rw [stackedAttribute, emitAttribute]
      rfl
  | dynamic name parts =>
      rw [stackedAttribute, emitAttribute]
      exact run_bind (run_stackedNodes o .summed parts stack)

/-- Emission of attributes gives the code for the number of open blocks, and leaves these as
they were. -/
theorem run_stackedAttributes (o : EmitOptions) (attributes : List Attribute)
    (stack : ScopeStack) :
    (stackedAttributes o attributes).run stack
      = (emitAttributes o stack.depth attributes, stack) := by
  cases attributes with
  | nil =>
      rw [stackedAttributes, emitAttributes]
      rfl
  | cons attr rest =>
      rw [stackedAttributes, emitAttributes]
      refine (run_bind (run_stackedAttribute o attr stack)).trans ?_
      exact run_bind (run_stackedAttributes o rest stack)

end

/-! ## Whole templates -/

/-- What the function of a template returns is in scope outside all blocks, and uses the
variables that its nodes are meant to use. -/
theorem refers_resultExpr (tree : Tree) (options : Options) :
    (tree.resultExpr options).term.Refers 0 [] (contextUsesOfNodes 0 tree.nodes) := by
  have hlist (output : Output) : (concatenated (output.close (tree.fragments options))).term.Refers
      0 [] (contextUsesOfNodes 0 tree.nodes) :=
    refers_concatenated ((refers_emitNodes _ tree.target.output 0 [] tree.nodes).close output)
  rw [Tree.resultExpr]
  cases tree.target with
  | flat =>
      have hempty : TermsRefer 0 [] (termsOfList [.text ""]) [] := (refers_text "").single
      have hjoin := refers_method (hlist .joined) "join" hempty
      rwa [List.append_nil] at hjoin
  | structural => exact hlist .nodes

/-- The function of every template is in scope and uses the variables that its nodes are meant
to use; the variables of different depths differ; and emission leaves the open blocks as they
were. -/
theorem variables_scoped (tree : Tree) (options : Options) :
    (∃ result, read? (tree.renderFunction options) = some (.function [contextName 0] result)
      ∧ result.ScopedAt 0 [] ∧ result.contextUses = contextUsesOfNodes 0 tree.nodes)
    ∧ Function.Injective contextName
    ∧ ∀ o output nodes stack, (stackedNodes o output nodes).run stack
        = (emitNodes o output stack.depth nodes, stack) := by
  have hrefers := refers_resultExpr tree options
  refine ⟨⟨_, read?_renderFunction tree options, hrefers.inScope, hrefers.used⟩, ?_,
    run_stackedNodes⟩
  intro m n h
  exact contextVar_injective (String.ofList_injective h)

end Mustache
