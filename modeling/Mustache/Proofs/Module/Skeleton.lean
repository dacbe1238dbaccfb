import Mustache.Proofs.Module.Runs

/-!
What the strings of a template can change in emitted code.

The strings of a template stand in string literals alone. The shape of a template is
what is left of it without its strings, and the skeleton of code is what is left of
its tokens without what string literals stand for. Templates of one shape have one
skeleton, its brackets match, and the literals stand for the strings of the template
in order, with the strings that are the same for every template between them.
-/
set_option autoImplicit false

namespace Mustache

namespace Script

/-! ## Tokens without strings -/

/-- The text that a token stands for, if it is a string literal. -/
def Token.text? : Token → Option String
  | .text value => some value
  | .word _ | .number _ | .mark _ => none

@[simp] theorem text?_text (value : String) : (Token.text value).text? = some value := rfl

@[simp] theorem text?_word (name : String) : (Token.word name).text? = none := rfl

@[simp] theorem text?_number (n : Nat) : (Token.number n).text? = none := rfl

@[simp] theorem text?_mark (spelling : String) : (Token.mark spelling).text? = none := rfl

/-- A token without what it stands for, if it is a string literal. -/
def Token.blank : Token → Token
  | .text _ => .text ""
  | t => t

/-- The tokens of nests without what string literals stand for. -/
def blanked (ns : List Nest) : List Token :=
  (tokensOf ns).map Token.blank

/-- The texts that the string literals of nests stand for, in order. -/
def textsOf (ns : List Nest) : List String :=
  (tokensOf ns).filterMap Token.text?

@[simp] theorem blanked_append (ms ns : List Nest) :
    blanked (ms ++ ns) = blanked ms ++ blanked ns := by
  simp [blanked]

@[simp] theorem textsOf_append (ms ns : List Nest) :
    textsOf (ms ++ ns) = textsOf ms ++ textsOf ns := by
  simp [textsOf]

@[simp] theorem blanked_nil : blanked [] = [] := rfl

@[simp] theorem textsOf_nil : textsOf [] = [] := rfl

@[simp] theorem blanked_token (t : Token) (ns : List Nest) :
    blanked (.token t :: ns) = t.blank :: blanked ns := rfl

@[simp] theorem textsOf_token (t : Token) (ns : List Nest) :
    textsOf (.token t :: ns) = t.text?.toList ++ textsOf ns := by
  cases h : t.text? <;> simp [textsOf, tokensOf, Nest.tokens, h]

@[simp] theorem blanked_group (b : Bracket) (content ns : List Nest) :
    blanked (.group b content :: ns)
      = .mark b.opening :: (blanked content ++ .mark b.closing :: blanked ns) := by
  simp [blanked, tokensOf, Nest.tokens, Token.blank]

@[simp] theorem textsOf_group (b : Bracket) (content ns : List Nest) :
    textsOf (.group b content :: ns) = textsOf content ++ textsOf ns := by
  simp [textsOf, tokensOf, Nest.tokens, List.filterMap_cons]

/-- Commas leave a list of nests as it is, but for themselves. -/
theorem blanked_commaNests {nss nss' : List (List Nest)}
    (h : nss.map blanked = nss'.map blanked) :
    blanked (commaNests nss) = blanked (commaNests nss') := by
  induction nss generalizing nss' with
  | nil => cases nss' <;> simp_all
  | cons ns rest ih =>
      cases nss' with
      | nil => simp at h
      | cons ns' rest' =>
          rw [List.map_cons, List.map_cons, List.cons.injEq] at h
          have hrest := ih h.2
          cases rest <;> cases rest' <;> simp_all [commaNests]

/-- A comma stands for no text. -/
theorem textsOf_commaNests (nss : List (List Nest)) :
    textsOf (commaNests nss) = nss.flatMap textsOf := by
  induction nss with
  | nil => rfl
  | cons ns rest ih =>
      cases rest with
      | nil => simp [commaNests]
      | cons next rest => simp [commaNests, ih]

end Script

open Script Text

/-! ## Shapes -/

mutual

/-- A node with a fixed string in place of each of its strings. A literal keeps
whether it is emitted. -/
def Node.shape (target : Target) : Node → Node
  | .text value => .text (if (literalFragment? target value).isSome then "-" else "")
  | .interpolation _ escape _ => .interpolation "" escape ⟨0, 0⟩
  | .block kind _ body _ => .block kind "" (shapeOfNodes target body) ⟨0, 0⟩
  | .inclusion _ _ => .inclusion "" ⟨0, 0⟩
  | .element _ attributes children =>
      .element "" (shapeOfAttributes target attributes) (shapeOfNodes target children)

/-- The nodes of a list with a fixed string in place of each string. -/
def shapeOfNodes (target : Target) : List Node → List Node
  | [] => []
  | node :: rest => node.shape target :: shapeOfNodes target rest

/-- An attribute with a fixed string in place of each of its strings. -/
def Attribute.shape (target : Target) : Attribute → Attribute
  | .static _ _ => .static "" ""
  | .dynamic _ parts => .dynamic "" (shapeOfNodes target parts)

/-- The attributes of a list with a fixed string in place of each string. -/
def shapeOfAttributes (target : Target) : List Attribute → List Attribute
  | [] => []
  | attr :: rest => attr.shape target :: shapeOfAttributes target rest

end

/-- What is left of a template without its strings. -/
def Tree.shape (tree : Tree) : Target × List Node :=
  (tree.target, shapeOfNodes tree.target tree.nodes)

/-! ## Literals -/

/-- The texts of the literals that end a run, or a block besides its run. -/
def Output.endLiterals : Output → List String
  | .joined | .summed => [""]
  | .nodes => []

/-- The texts of the literals in the test for hidden values. -/
def InvertedPolicy.literals : InvertedPolicy → List String
  | .arrayAware => ["boolean", "[object Array]"]
  | .lengthOnly => ["boolean"]

mutual

/-- The texts that the string literals in the code of a node stand for, in order. -/
def Node.literals (o : EmitOptions) (output : Output) : Node → List String
  | .text value =>
      if (literalFragment? o.target value).isSome then
        [String.ofList (literalText o.target value)]
      else []
  | .interpolation expression _ _ => ["", expression]
  | .inclusion name _ => [modulePath o.partialExtension name]
  | .block .normal expression body _ =>
      [expression, ".", ".index", ".length"] ++ literalsOfNodes o output body
        ++ output.endLiterals ++ output.endLiterals
  | .block .inverted expression body _ =>
      o.invertedPolicy.literals ++ [expression] ++ literalsOfNodes o output body
        ++ output.endLiterals ++ output.endLiterals
  | .element tag attributes children =>
      tag :: (literalsOfAttributes o attributes ++ literalsOfNodes o .nodes children)

/-- The texts of the string literals in the code of a list of nodes. -/
def literalsOfNodes (o : EmitOptions) (output : Output) : List Node → List String
  | [] => []
  | node :: rest => node.literals o output ++ literalsOfNodes o output rest

/-- The texts of the string literals in the code of an attribute. -/
def Attribute.literals (o : EmitOptions) : Attribute → List String
  | .static name value => [name, value]
  | .dynamic name parts => name :: (literalsOfNodes o .summed parts ++ [""])

/-- The texts of the string literals in the code of a list of attributes. -/
def literalsOfAttributes (o : EmitOptions) : List Attribute → List String
  | [] => []
  | attr :: rest => attr.literals o ++ literalsOfAttributes o rest

end

/-- The texts that the string literals in the body of a template stand for, in
order. -/
def Tree.literals (tree : Tree) (options : Options) : List String :=
  literalsOfNodes ⟨tree.target, options.invertedPolicy, options.partialExtension⟩
    tree.target.output tree.nodes

section

-- Skeletons and literals are computed from the nests of the code.
attribute [local simp] call method Fragment.argument Expr.nests nestsOfList nestsOfFields
  nestsOfSummands commaNests parameterNests FieldName.nest Token.blank Output.endLiterals

/-! ## The skeleton of a run -/

/-- The code of a section depends on its expression in one literal alone. -/
theorem blanked_sectionExpr (output : Output) (depth : Nat) (x y : String) {result result' : Expr}
    (h : blanked result.nests = blanked result'.nests) :
    blanked (sectionExpr output depth x result).nests
      = blanked (sectionExpr output depth y result').nests := by
  cases output <;> simp [sectionExpr, Output.blockResult, h]

/-- The code of an inverted section depends on its expression in one literal
alone. -/
theorem blanked_invertedExpr (policy : InvertedPolicy) (output : Output) (depth : Nat)
    (x y : String) {result result' : Expr} (h : blanked result.nests = blanked result'.nests) :
    blanked (invertedExpr policy output depth x result).nests
      = blanked (invertedExpr policy output depth y result').nests := by
  cases output <;> simp [invertedExpr, Output.blockResult, h]

/-- What is built of a run has the skeleton of the run around it. -/
theorem blanked_concatenated (output : Output) {fragments fragments' : List Fragment}
    (h : blanked (runNests output fragments) = blanked (runNests output fragments')) :
    blanked (concatenated (output.close fragments)).nests
      = blanked (concatenated (output.close fragments')).nests := by
  simp [concatenated, commaNests_close, h]

theorem runNests_append (output : Output) (first rest : List Fragment) :
    runNests output (first ++ rest) = runNests output first ++ runNests output rest := by
  simp [runNests]

theorem runNests_singleton (output : Output) (fragment : Fragment) :
    runNests output [fragment] = fragment.argument.nests ++ [output.separator] := by
  simp [runNests]

theorem eq_text_of_literalFragment {target : Target} {value : String} {fragment : Fragment}
    (h : literalFragment? target value = some fragment) :
    fragment = .whole (.text (String.ofList (literalText target value))) := by
  rw [literalFragment?] at h
  split_ifs at h
  exact (Option.some.inj h).symm

/-- A literal that newlines leave alone is emitted. -/
theorem literalFragment?_dash (target : Target) :
    literalFragment? target "-" = some (.whole (.text "-")) := by
  cases target <;> rfl

theorem literalFragment?_empty {target : Target} {value : String}
    (h : literalFragment? target value = none) : literalFragment? target "" = none := by
  cases target with
  | flat => simp [literalFragment?] at h
  | structural => rfl

mutual

theorem blanked_emitNode (o o' : EmitOptions) (htarget : o'.target = o.target)
    (hpolicy : o'.invertedPolicy = o.invertedPolicy) (output : Output) (depth : Nat)
    (node : Node) :
    blanked (runNests output (emitNode o output depth node).toList)
      = blanked (runNests output (emitNode o' output depth (node.shape o.target)).toList) := by
  cases node with
  | text value =>
      -- The shape keeps a literal that is emitted and one that is not, and nothing else.
      cases hvalue : literalFragment? o.target value with
      | none =>
          simp [Node.shape, emitNode, htarget, hvalue, literalFragment?_empty hvalue]
      | some fragment =>
          rw [eq_text_of_literalFragment hvalue] at hvalue
          simp [Node.shape, emitNode, htarget, hvalue, literalFragment?_dash, runNests_singleton]
  | interpolation expression escape location =>
      cases escape <;> simp [Node.shape, emitNode, runNests_singleton]
  | inclusion name location =>
      simp [Node.shape, emitNode, runNests_singleton]
  | block kind expression body location =>
      -- The expression is one of the strings that the shape leaves out; the body keeps its depth.
      have hresult := blanked_concatenated output
        (blanked_emitNodes o o' htarget hpolicy output (depth + 1) body)
      cases kind with
      | normal =>
          have hsection := blanked_sectionExpr output depth expression "" hresult
          simp [Node.shape, emitNode, runNests_singleton, hsection]
      | inverted =>
          have hinverted := blanked_invertedExpr o.invertedPolicy output depth expression "" hresult
          simp [Node.shape, emitNode, runNests_singleton, hpolicy, hinverted]
  | element tag attributes children =>
      -- The children make up a list and attribute values a sum, whatever is built around.
      have hattributes := blanked_commaNests
        (blanked_emitAttributes o o' htarget hpolicy depth attributes)
      have hchildren := blanked_concatenated .nodes
        (blanked_emitNodes o o' htarget hpolicy .nodes depth children)
      simp [Node.shape, emitNode, runNests_singleton, hattributes, hchildren]

theorem blanked_emitNodes (o o' : EmitOptions) (htarget : o'.target = o.target)
    (hpolicy : o'.invertedPolicy = o.invertedPolicy) (output : Output) (depth : Nat)
    (nodes : List Node) :
    blanked (runNests output (emitNodes o output depth nodes))
      = blanked (runNests output (emitNodes o' output depth (shapeOfNodes o.target nodes))) := by
  cases nodes with
  | nil => rfl
  | cons node rest =>
      rw [shapeOfNodes, emitNodes, emitNodes, runNests_append, runNests_append, blanked_append,
        blanked_append, blanked_emitNode o o' htarget hpolicy output depth node,
        blanked_emitNodes o o' htarget hpolicy output depth rest]

theorem blanked_emitAttributes (o o' : EmitOptions) (htarget : o'.target = o.target)
    (hpolicy : o'.invertedPolicy = o.invertedPolicy) (depth : Nat) (attributes : List Attribute) :
    (nestsOfFields (emitAttributes o depth attributes)).map blanked
      = (nestsOfFields (emitAttributes o' depth
          (shapeOfAttributes o.target attributes))).map blanked := by
  cases attributes with
  | nil => rfl
  | cons attr rest =>
      rw [shapeOfAttributes, emitAttributes, emitAttributes]
      cases attr with
      | static name value =>
          simp [Attribute.shape, emitAttribute,
            blanked_emitAttributes o o' htarget hpolicy depth rest]
      | dynamic name parts =>
          simp [Attribute.shape, emitAttribute, nests_runSum,
            blanked_emitNodes o o' htarget hpolicy .summed depth parts,
            blanked_emitAttributes o o' htarget hpolicy depth rest]

end

/-! ## The literals of a run -/

/-- The literals of what is built of a run are those of the run and of its end. -/
theorem textsOf_concatenated (output : Output) (fragments : List Fragment) :
    textsOf (concatenated (output.close fragments)).nests
      = textsOf (runNests output fragments) ++ output.endLiterals := by
  cases output <;> simp [concatenated, commaNests_close, Output.terminator]

/-- The variable of a block depth stands for no text. -/
theorem textsOf_contextRef (depth : Nat) : textsOf (contextRef depth).nests = [] := rfl

/-- The literals of a section are its expression, the names that it binds, those of
its body and those of its end. -/
theorem textsOf_sectionExpr (output : Output) (depth : Nat) (expression : String)
    (result : Expr) :
    textsOf (sectionExpr output depth expression result).nests
      = [expression, ".", ".index", ".length"] ++ textsOf result.nests ++ output.endLiterals := by
  cases output <;> simp [sectionExpr, Output.blockResult, elementBindingsExpr, textsOf_contextRef]

/-- The literals of an inverted section are those of its test, its expression, those
of its body and those of its end. -/
theorem textsOf_invertedExpr (policy : InvertedPolicy) (output : Output) (depth : Nat)
    (expression : String) (result : Expr) :
    textsOf (invertedExpr policy output depth expression result).nests
      = policy.literals ++ [expression] ++ textsOf result.nests ++ output.endLiterals := by
  cases output <;> cases policy <;>
    simp [invertedExpr, hiddenTest, Output.blockResult, textsOf_contextRef, InvertedPolicy.literals]

mutual

/-- The literals in the code of a node, and those that it is meant to have. -/
theorem textsOf_emitNode (o : EmitOptions) (output : Output) (depth : Nat) (node : Node) :
    textsOf (runNests output (emitNode o output depth node).toList) = node.literals o output := by
  have hseparator : textsOf [output.separator] = [] := by cases output <;> rfl
  -- The texts of a fragment are its own and those of what it holds; the code around them has fixed
  -- texts, which the list of a node repeats.
  cases node with
  | text value =>
      cases hvalue : literalFragment? o.target value with
      | none => simp [Node.literals, emitNode, hvalue, runNests]
      | some fragment =>
          rw [eq_text_of_literalFragment hvalue] at hvalue
          simp [Node.literals, emitNode, hvalue, runNests_singleton, hseparator]
  | interpolation expression escape location =>
      cases escape <;>
        simp [Node.literals, emitNode, runNests_singleton, textsOf_contextRef, hseparator]
  | inclusion name location =>
      simp [Node.literals, emitNode, runNests_singleton, textsOf_contextRef, hseparator]
  | block kind expression body location =>
      have hbody := textsOf_emitNodes o output (depth + 1) body
      cases kind <;>
        simp [Node.literals, emitNode, runNests_singleton, hseparator, textsOf_sectionExpr,
          textsOf_invertedExpr, textsOf_concatenated, hbody]
  | element tag attributes children =>
      have hattributes := textsOf_emitAttributes o depth attributes
      have hchildren := textsOf_emitNodes o .nodes depth children
      simp [Node.literals, emitNode, runNests_singleton, hseparator, textsOf_commaNests,
        textsOf_concatenated, hattributes, hchildren]

/-- The literals in the code of a list of nodes, and those that it is meant to
have. -/
theorem textsOf_emitNodes (o : EmitOptions) (output : Output) (depth : Nat) (nodes : List Node) :
    textsOf (runNests output (emitNodes o output depth nodes))
      = literalsOfNodes o output nodes := by
  cases nodes with
  | nil => rfl
  | cons node rest =>
      rw [literalsOfNodes, emitNodes, runNests_append, textsOf_append,
        textsOf_emitNode o output depth node, textsOf_emitNodes o output depth rest]

/-- The literals in the code of attributes, and those that it is meant to have. -/
theorem textsOf_emitAttributes (o : EmitOptions) (depth : Nat) (attributes : List Attribute) :
    (nestsOfFields (emitAttributes o depth attributes)).flatMap textsOf
      = literalsOfAttributes o attributes := by
  cases attributes with
  | nil => rfl
  | cons attr rest =>
      rw [literalsOfAttributes, emitAttributes]
      cases attr with
      | static name value =>
          simp [Attribute.literals, emitAttribute, textsOf_emitAttributes o depth rest]
      | dynamic name parts =>
          simp [Attribute.literals, emitAttribute, nests_runSum,
            textsOf_emitNodes o .summed depth parts, textsOf_emitAttributes o depth rest]

end

end

/-! ## Bodies -/

/-- The tokens of the body of a template. -/
def Tree.bodyTokens (tree : Tree) (options : Options) : List Token :=
  tokensOf (runNests .joined (tree.fragments options))

/-- A comma separates the fragments of a body, whatever is built of them. -/
theorem bodyTokens_eq (tree : Tree) (options : Options) :
    tree.bodyTokens options
      = tokensOf (runNests tree.target.output (tree.fragments options)) := by
  rw [Tree.bodyTokens]
  cases tree.target <;> rfl

theorem tokens?_body (tree : Tree) (options : Options) :
    tokens? (bodyText (tree.fragments options)) = some (tree.bodyTokens options) := by
  have hlaid := emitNodes_laid ⟨tree.target, options.invertedPolicy, options.partialExtension⟩
    tree.target.output 0 tree.nodes
  have hread := tokens?_bodyText hlaid tokens?_nil
  rw [List.append_nil, List.append_nil] at hread
  exact hread

theorem blank_bodyTokens {tree other : Tree} {options options' : Options}
    (hshape : other.shape = tree.shape)
    (hpolicy : options'.invertedPolicy = options.invertedPolicy) :
    (other.bodyTokens options').map Token.blank = (tree.bodyTokens options).map Token.blank := by
  obtain ⟨htarget, hnodes⟩ := Prod.mk.inj hshape
  let o : EmitOptions := ⟨tree.target, options.invertedPolicy, options.partialExtension⟩
  let o' : EmitOptions := ⟨other.target, options'.invertedPolicy, options'.partialExtension⟩
  have htree := blanked_emitNodes o o rfl rfl tree.target.output 0 tree.nodes
  have hother := blanked_emitNodes o' o htarget.symm hpolicy.symm other.target.output 0 other.nodes
  -- Both bodies have the skeleton that the common shape has under their own options.
  rw [bodyTokens_eq, bodyTokens_eq, ← blanked, ← blanked]
  refine hother.trans (Eq.trans ?_ htree.symm)
  rw [show o'.target = other.target from rfl, hnodes, htarget]

/-- The strings of a template cannot break out of the literals that they stand in.
The text of every body is cut into tokens whose brackets match; its string literals
stand for the strings of the template, as they are, and for the fixed ones; and every
template of the same shape, whatever its strings, has a body with the same tokens
besides. -/
theorem body_skeleton (tree : Tree) (options : Options) :
    ∃ ts, tokens? (bodyText (tree.fragments options)) = some ts ∧ Balanced ts
      ∧ ts.filterMap Token.text? = tree.literals options
      ∧ ∀ (other : Tree) (options' : Options), other.shape = tree.shape →
        options'.invertedPolicy = options.invertedPolicy →
        ∃ ts', tokens? (bodyText (other.fragments options')) = some ts'
          ∧ ts'.map Token.blank = ts.map Token.blank := by
  refine ⟨tree.bodyTokens options, tokens?_body tree options, ?_, ?_, ?_⟩
  · exact balanced_tokensOf (allPlain_runNests .joined _)
  · rw [bodyTokens_eq]
    exact textsOf_emitNodes _ tree.target.output 0 tree.nodes
  · intro other options' hshape hpolicy
    exact ⟨other.bodyTokens options', tokens?_body other options',
      blank_bodyTokens hshape hpolicy⟩

/-- A literal that tries to end its string and to call a function has the skeleton of
a letter. -/
theorem body_skeleton_of_quote :
    ∃ ts ts', tokens? (bodyText (Tree.fragments ⟨"", .flat, [.text "a"]⟩ .default)) = some ts
      ∧ tokens? (bodyText (Tree.fragments ⟨"", .flat, [.text "'); b('"]⟩ .default)) = some ts'
      ∧ ts'.map Token.blank = ts.map Token.blank := by
  obtain ⟨ts, hts, -, -, hall⟩ := body_skeleton ⟨"", .flat, [.text "a"]⟩ .default
  obtain ⟨ts', hts', heq⟩ := hall ⟨"", .flat, [.text "'); b('"]⟩ .default rfl rfl
  exact ⟨ts, ts', hts, hts', heq⟩

end Mustache
