import Mustache.Proofs.Module.Embedding
import Mustache.Proofs.Module.Skeleton

/-!
What a module calls, and what it brings along.

The body of a module calls functions that stand in the module or nowhere. Which of them it
calls is read off the tree (`callsOf_emitNodes`): an interpolation looks a value up, a block
makes a scope and flattens what it gets for each. So whether there is a block anywhere, in
children or in the value of an attribute, decides what a module brings along. Emission finds
that out on the way, at the first block that it enters, and a query on the tree finds it out
without entering blocks; they agree (`recorded_eq`). A module has therefore the text of every
function that it calls, once, and the functions for blocks only if it calls them
(`module_brings_what_it_calls`).
-/
set_option autoImplicit false

namespace Mustache

open Script Text

/-! ## Calls in code -/

/-- The function that a module can bring along under a name. -/
def Helper.named? (name : String) : Option Helper :=
  Helper.all.find? fun helper => helper.name = name

/-- The functions that code calls, in order; `member` holds right behind a point. A word is
called if an opening parenthesis follows it; behind a point it names a method. -/
def callsIn : (member : Bool) → List Token → List Helper
  | _, [] => []
  | member, .word name :: rest =>
      (if !member && rest.head? == some (.mark "(") then (Helper.named? name).toList else [])
        ++ callsIn false rest
  | _, t :: rest => callsIn (t == .mark ".") rest

/-- The functions that the code of nests calls. -/
def callsOf (ns : List Nest) : List Helper :=
  callsIn false (tokensOf ns)

@[simp] theorem callsIn_nil (member : Bool) : callsIn member [] = [] := by
  cases member <;> rfl

@[simp] theorem callsIn_word (member : Bool) (name : String) (ts : List Token) :
    callsIn member (.word name :: ts)
      = (if !member && ts.head? == some (.mark "(") then (Helper.named? name).toList else [])
        ++ callsIn false ts := by
  rw [callsIn]

@[simp] theorem callsIn_text (member : Bool) (value : String) (ts : List Token) :
    callsIn member (.text value :: ts) = callsIn false ts := rfl

@[simp] theorem callsIn_number (member : Bool) (n : Nat) (ts : List Token) :
    callsIn member (.number n :: ts) = callsIn false ts := rfl

@[simp] theorem callsIn_mark (member : Bool) (s : String) (ts : List Token) :
    callsIn member (.mark s :: ts) = callsIn (s == ".") ts := by
  have hpoint : (Token.mark s == .mark ".") = (s == ".") := by
    by_cases h : s = "." <;> simp [h]
  rw [← hpoint]
  rfl

/-- A mark other than an opening parenthesis parts the calls before it from those behind. -/
@[simp] theorem callsIn_append_mark {s : String} (hs : s ≠ "(") (member : Bool)
    (ts us : List Token) :
    callsIn member (ts ++ .mark s :: us) = callsIn member ts ++ callsIn false (.mark s :: us) := by
  induction ts generalizing member with
  | nil => simp
  | cons t ts ih =>
      cases t with
      | word name =>
          -- If the word comes last, the mark follows it and it is not called.
          have hhead : ((ts ++ .mark s :: us).head? == some (.mark "("))
              = (ts.head? == some (.mark "(")) := by
            cases ts with
            | nil => simpa using hs
            | cons t ts => rfl
          rw [List.cons_append, callsIn_word, callsIn_word, hhead, ih, List.append_assoc]
      | text value => exact ih false
      | number n => exact ih false
      | mark s' =>
          rw [List.cons_append, callsIn_mark, callsIn_mark, ih]

/-! ## Calls of emitted code -/

mutual

/-- The functions that the code of a node calls, in order. -/
def Node.calls : Node → List Helper
  | .text _ | .inclusion .. => []
  | .interpolation .. => [.safeAccess]
  | .block .normal _ body _ => [.spread, .toArray, .merge] ++ callsOfNodes body
  | .block .inverted _ body _ => [.safeAccess, .spread, .merge] ++ callsOfNodes body
  | .element _ attributes children => callsOfAttributes attributes ++ callsOfNodes children

/-- The functions that the code of a list of nodes calls. -/
def callsOfNodes : List Node → List Helper
  | [] => []
  | node :: rest => node.calls ++ callsOfNodes rest

/-- The functions that the code of an attribute calls. -/
def Attribute.calls : Attribute → List Helper
  | .static .. => []
  | .dynamic _ parts => callsOfNodes parts

/-- The functions that the code of a list of attributes calls. -/
def callsOfAttributes : List Attribute → List Helper
  | [] => []
  | attr :: rest => attr.calls ++ callsOfAttributes rest

end

section

-- Calls are computed from the tokens of the code, with the names of the functions at hand.
attribute [local simp] callsOf call method contextRef Fragment.argument Expr.nests nestsOfList
  nestsOfFields nestsOfSummands commaNests parameterNests FieldName.nest Bracket.opening
  Bracket.closing Helper.named? Helper.all Helper.name

/-- A run ends in a separator, so that what follows it has its own calls. -/
theorem callsOf_run_append (output : Output) (fragments : List Fragment) (ns : List Nest) :
    callsOf (runNests output fragments ++ ns)
      = callsOf (runNests output fragments) ++ callsOf ns := by
  induction fragments with
  | nil => rfl
  | cons fragment rest ih =>
      simp only [callsOf, tokensOf_append] at ih
      rw [runNests, List.flatMap_cons, ← runNests]
      cases output <;> simp [Output.separator, ih]

theorem callsOf_commaNests (nss : List (List Nest)) :
    callsOf (commaNests nss) = nss.flatMap callsOf := by
  induction nss with
  | nil => rfl
  | cons ns rest ih =>
      cases rest with
      | nil => simp
      | cons next rest =>
          rw [commaNests, callsOf, tokensOf_append, tokensOf_token,
            callsIn_append_mark (by decide), callsIn_mark]
          exact congrArg (callsOf ns ++ ·) ih

theorem callsOf_concatenated (arguments : List Expr) :
    callsOf (concatenated arguments).nests = callsOf (commaNests (nestsOfList arguments)) := by
  simp [concatenated]

theorem callsOf_close (output : Output) (fragments : List Fragment) :
    callsOf (concatenated (output.close fragments)).nests
      = callsOf (runNests output fragments) := by
  have hend : callsOf output.terminator.nests = [] := by cases output <;> rfl
  rw [callsOf_concatenated, commaNests_close, callsOf_run_append, hend, List.append_nil]

/-- A section calls the functions for blocks, and what its body calls. -/
theorem callsOf_sectionExpr (output : Output) (depth : Nat) (expression : String)
    (result : Expr) :
    callsOf (sectionExpr output depth expression result).nests
      = [.spread, .toArray, .merge] ++ callsOf result.nests := by
  cases output <;> simp [sectionExpr, Output.blockResult, elementBindingsExpr]

/-- An inverted section calls the lookup and the functions for scopes, and what its body
calls. -/
theorem callsOf_invertedExpr (policy : InvertedPolicy) (output : Output) (depth : Nat)
    (expression : String) (result : Expr) :
    callsOf (invertedExpr policy output depth expression result).nests
      = [.safeAccess, .spread, .merge] ++ callsOf result.nests := by
  cases output <;> cases policy <;> simp [invertedExpr, hiddenTest, Output.blockResult]

theorem callsOf_run_singleton (output : Output) (fragment : Fragment) :
    callsOf (runNests output [fragment]) = callsOf fragment.argument.nests := by
  rw [runNests_singleton]
  cases output <;> simp [Output.separator]

mutual

/-- The calls in the code of a node, and those that it is meant to have. -/
theorem callsOf_emitNode (o : EmitOptions) (output : Output) (depth : Nat) (node : Node) :
    callsOf (runNests output (emitNode o output depth node).toList) = node.calls := by
  cases node with
  | text value =>
      -- A literal is a string if it is emitted at all, and strings call nothing.
      cases hvalue : literalFragment? o.target value with
      | none =>
          rw [emitNode, hvalue]
          rfl
      | some fragment =>
          rw [emitNode, hvalue, eq_text_of_literalFragment hvalue]
          exact callsOf_run_singleton output _
  | interpolation expression escape location =>
      rw [emitNode, Option.toList_some, callsOf_run_singleton]
      cases escape <;> simp [Node.calls]
  | inclusion name location =>
      rw [emitNode, Option.toList_some, callsOf_run_singleton]
      simp [Node.calls]
  | block kind expression body location =>
      have hbody := callsOf_emitNodes o output (depth + 1) body
      simp only [emitNode, Option.toList_some, callsOf_run_singleton]
      cases kind with
      | normal => rw [Fragment.argument, callsOf_sectionExpr, callsOf_close, hbody, Node.calls]
      | inverted => rw [Fragment.argument, callsOf_invertedExpr, callsOf_close, hbody, Node.calls]
  | element tag attributes children =>
      have hattributes := callsOf_emitAttributes o depth attributes
      have hchildren := callsOf_emitNodes o .nodes depth children
      rw [emitNode, Option.toList_some, callsOf_run_singleton]
      -- What the fields of an element hold ends in a bracket, so that their calls are parted.
      rw [← callsOf_commaNests, callsOf] at hattributes
      rw [← callsOf_close, callsOf] at hchildren
      simp [Node.calls, hattributes, hchildren]

/-- The calls in the code of a list of nodes, and those that it is meant to have. -/
theorem callsOf_emitNodes (o : EmitOptions) (output : Output) (depth : Nat) (nodes : List Node) :
    callsOf (runNests output (emitNodes o output depth nodes)) = callsOfNodes nodes := by
  cases nodes with
  | nil => rfl
  | cons node rest =>
      rw [callsOfNodes, emitNodes, runNests_append, callsOf_run_append,
        callsOf_emitNode o output depth node, callsOf_emitNodes o output depth rest]

/-- The calls in the code of attributes, and those that it is meant to have. -/
theorem callsOf_emitAttributes (o : EmitOptions) (depth : Nat) (attributes : List Attribute) :
    (nestsOfFields (emitAttributes o depth attributes)).flatMap callsOf
      = callsOfAttributes attributes := by
  cases attributes with
  | nil => rfl
  | cons attr rest =>
      have hrest := callsOf_emitAttributes o depth rest
      rw [callsOfAttributes, emitAttributes]
      cases attr with
      | static name value =>
          rw [Attribute.calls, List.nil_append, ← hrest]
          rfl
      | dynamic name parts =>
          have hvalue : callsOf (runSum (emitNodes o .summed depth parts)).nests
              = callsOfNodes parts := by
            have hend : callsOf [.token (.text "")] = [] := rfl
            rw [nests_runSum, callsOf_run_append, hend, List.append_nil,
              callsOf_emitNodes o .summed depth parts]
          rw [Attribute.calls, ← hvalue, ← hrest]
          rfl

end

end

/-! ## Calls and blocks -/

/-- Whether calls are those of code with blocks or without: nothing is called that is not
needed, and with blocks scopes are made and results flattened. -/
structure Matching (calls : List Helper) (usesBlocks : Bool) : Prop where
  needed : ∀ helper ∈ calls, Helper.isNeeded usesBlocks helper = true
  called : usesBlocks = true → .merge ∈ calls ∧ .spread ∈ calls

theorem matching_nil : Matching [] false where
  needed := fun _ hmem => absurd hmem List.not_mem_nil
  called := fun h => nomatch h

theorem Helper.isNeeded_or (a b : Bool) (helper : Helper) :
    isNeeded (a || b) helper = (isNeeded a helper || isNeeded b helper) := by
  cases helper <;> rfl

/-- Calls of two parts, one after another. -/
theorem Matching.append {calls calls' : List Helper} {usesBlocks usesBlocks' : Bool}
    (h : Matching calls usesBlocks) (h' : Matching calls' usesBlocks') :
    Matching (calls ++ calls') (usesBlocks || usesBlocks') where
  needed := by
    intro helper hmem
    rw [Helper.isNeeded_or]
    rcases List.mem_append.mp hmem with hmem | hmem
    · rw [h.needed helper hmem, Bool.true_or]
    · rw [h'.needed helper hmem, Bool.or_true]
  called := by
    intro hblocks
    rcases Bool.or_eq_true_iff.mp hblocks with hblocks | hblocks
    · obtain ⟨hmerge, hspread⟩ := h.called hblocks
      exact ⟨List.mem_append_left _ hmerge, List.mem_append_left _ hspread⟩
    · obtain ⟨hmerge, hspread⟩ := h'.called hblocks
      exact ⟨List.mem_append_right _ hmerge, List.mem_append_right _ hspread⟩

mutual

theorem Node.matching (node : Node) : Matching node.calls node.usesBlocks := by
  cases node with
  | text _ | inclusion _ _ => exact matching_nil
  | interpolation expression escape location =>
      refine ⟨fun helper hmem => ?_, fun h => nomatch h⟩
      rw [List.mem_singleton.mp hmem]
      rfl
  -- A block needs all functions, whatever is in it.
  | block kind expression body location =>
      have hneeded : ∀ helper, Helper.isNeeded true helper = true := by
        intro helper
        cases helper <;> rfl
      refine ⟨fun helper _ => hneeded helper, fun _ => ?_⟩
      cases kind <;> simp [Node.calls]
  | element tag attributes children =>
      rw [Node.calls, Node.usesBlocks, Bool.or_comm]
      exact (matching_callsOfAttributes attributes).append (matching_callsOfNodes children)

theorem matching_callsOfNodes (nodes : List Node) :
    Matching (callsOfNodes nodes) (anyUsesBlocks nodes) := by
  cases nodes with
  | nil => exact matching_nil
  | cons node rest => exact node.matching.append (matching_callsOfNodes rest)

theorem matching_callsOfAttributes (attributes : List Attribute) :
    Matching (callsOfAttributes attributes) (Attribute.anyUsesBlocks attributes) := by
  cases attributes with
  | nil => exact matching_nil
  | cons attr rest =>
      refine Matching.append ?_ (matching_callsOfAttributes rest)
      cases attr with
      | static _ _ => exact matching_nil
      | dynamic name parts => exact matching_callsOfNodes parts

end

/-! ## The record of emission

Emission keeps a flag while it goes through a tree: it is not set at first, each block that is
entered sets it, and nothing takes it back. The fragments do not depend on it. -/

mutual

/-- Emits a node, and records on the way that a block is entered. -/
def recordNode (o : EmitOptions) (output : Output) (depth : Nat) :
    Node → StateM Bool (Option Fragment)
  | .block kind expression body _ => do
      set true
      let fragments ← recordNodes o output (depth + 1) body
      let result := concatenated (output.close fragments)
      return some (.whole (match kind with
        | .normal => sectionExpr output depth expression result
        | .inverted => invertedExpr o.invertedPolicy output depth expression result))
  | .element tag attributes children => do
      let fields ← recordAttributes o depth attributes
      let fragments ← recordNodes o .nodes depth children
      return some (.whole (.record
        [(.bare "tag", .text tag), (.bare "attrs", .record fields),
         (.bare "children", concatenated (Output.nodes.close fragments))]))
  | node => return emitNode o output depth node

def recordNodes (o : EmitOptions) (output : Output) (depth : Nat) :
    List Node → StateM Bool (List Fragment)
  | [] => return []
  | node :: rest => do
      let first ← recordNode o output depth node
      let others ← recordNodes o output depth rest
      return first.toList ++ others

def recordAttribute (o : EmitOptions) (depth : Nat) : Attribute → StateM Bool (FieldName × Expr)
  | .dynamic name parts => do
      let fragments ← recordNodes o .summed depth parts
      return (.quoted name, runSum fragments)
  | attr => return emitAttribute o depth attr

def recordAttributes (o : EmitOptions) (depth : Nat) :
    List Attribute → StateM Bool (List (FieldName × Expr))
  | [] => return []
  | attr :: rest => do
      let field ← recordAttribute o depth attr
      let fields ← recordAttributes o depth rest
      return field :: fields

end

/-- The fragments of a whole template, and what emission has recorded. -/
def Tree.recorded (tree : Tree) (options : Options) : List Fragment × Bool :=
  (recordNodes ⟨tree.target, options.invertedPolicy, options.partialExtension⟩
    tree.target.output 0 tree.nodes).run false

/-- Whether an action gives a value, and records exactly if it enters a block. -/
def Records {α : Type} (action : StateM Bool α) (value : α) (blocks : Bool) : Prop :=
  ∀ used, action.run used = (value, used || blocks)

section

variable {α β : Type} {action : StateM Bool α} {next : α → StateM Bool β} {a : α} {b : β}
  {x y : Bool}

theorem records_pure (a : α) : Records (pure a) a false := by
  intro used
  rw [Bool.or_false]
  rfl

theorem records_set : Records (set true) PUnit.unit true := by
  intro used
  rw [Bool.or_true]
  rfl

theorem Records.bind (h : Records action a x) (h' : Records (next a) b y) :
    Records (action >>= next) b (x || y) := by
  intro used
  have hrun : (action >>= next).run used = (next (action.run used).1).run (action.run used).2 :=
    rfl
  rw [hrun, h used, h' (used || x), Bool.or_assoc]

end

mutual

/-- Emission of a node enters a block exactly if the node is or holds one. -/
theorem records_node (o : EmitOptions) (output : Output) (depth : Nat) (node : Node) :
    Records (recordNode o output depth node) (emitNode o output depth node) node.usesBlocks := by
  cases node with
  | text _ | interpolation _ _ _ | inclusion _ _ => exact records_pure _
  | block kind expression body location =>
      -- The flag is set before the body is emitted, so that the body adds nothing to it.
      have hbody := records_nodes o output (depth + 1) body
      exact records_set.bind (hbody.bind (records_pure _))
  | element tag attributes children =>
      have hattributes := records_attributes o depth attributes
      have hchildren := records_nodes o .nodes depth children
      rw [Node.usesBlocks, Bool.or_comm, ← Bool.or_false (anyUsesBlocks children)]
      exact hattributes.bind (hchildren.bind (records_pure _))

/-- Emission of a list of nodes enters a block exactly if there is one. -/
theorem records_nodes (o : EmitOptions) (output : Output) (depth : Nat) (nodes : List Node) :
    Records (recordNodes o output depth nodes) (emitNodes o output depth nodes)
      (anyUsesBlocks nodes) := by
  cases nodes with
  | nil => exact records_pure _
  | cons node rest =>
      have hrest := records_nodes o output depth rest
      rw [anyUsesBlocks, ← Bool.or_false (anyUsesBlocks rest)]
      exact (records_node o output depth node).bind (hrest.bind (records_pure _))

/-- Emission of an attribute enters a block exactly if its value holds one. -/
theorem records_attribute (o : EmitOptions) (depth : Nat) (attr : Attribute) :
    Records (recordAttribute o depth attr) (emitAttribute o depth attr) attr.usesBlocks := by
  cases attr with
  | static _ _ => exact records_pure _
  | dynamic name parts =>
      rw [Attribute.usesBlocks, ← Bool.or_false (anyUsesBlocks parts)]
      exact (records_nodes o .summed depth parts).bind (records_pure _)

/-- Emission of a list of attributes enters a block exactly if some value holds one. -/
theorem records_attributes (o : EmitOptions) (depth : Nat) (attributes : List Attribute) :
    Records (recordAttributes o depth attributes) (emitAttributes o depth attributes)
      (Attribute.anyUsesBlocks attributes) := by
  cases attributes with
  | nil => exact records_pure _
  | cons attr rest =>
      have hrest := records_attributes o depth rest
      rw [Attribute.anyUsesBlocks, ← Bool.or_false (Attribute.anyUsesBlocks rest)]
      exact (records_attribute o depth attr).bind (hrest.bind (records_pure _))

end

/-- Emission records what the query on the tree finds. -/
theorem recorded_eq (tree : Tree) (options : Options) :
    tree.recorded options = (tree.fragments options, tree.usesBlocks) :=
  records_nodes _ tree.target.output 0 tree.nodes false

/-! ## Names in emitted code -/

theorem anyMentions_eq (x : String) (es : List Expr) :
    anyMentions x es = es.any fun e => e.mentions x := by
  induction es with
  | nil => rfl
  | cons e rest ih => rw [anyMentions, ih, List.any_cons]

theorem anySummandMentions_eq (x : String) (summands : List (Bool × Expr)) :
    anySummandMentions x summands = summands.any fun summand => summand.2.mentions x := by
  induction summands with
  | nil => rfl
  | cons summand rest ih => rw [anySummandMentions, ih, List.any_cons]

/-- The variable of a block depth is not the function that makes scopes. -/
theorem mentions_contextRef (depth : Nat) : (contextRef depth).mentions "merge" = false := by
  have hstart : (contextVar depth).head? = some 'd' := by
    unfold contextVar
    split_ifs <;> rfl
  rw [contextRef, Expr.mentions, beq_eq_false_iff_ne]
  intro heq
  have hhead := congrArg (fun name => name.toList.head?) heq
  rw [String.toList_ofList, hstart] at hhead
  exact absurd hhead (by decide)

/-- A sum refers to the names that its summands refer to. -/
theorem mentions_sumOf (x : String) (summands : List (Bool × Expr)) :
    (sumOf summands).mentions x = summands.any fun summand => summand.2.mentions x := by
  match summands with
  | [] => rfl
  | [(_, only)] => simp [sumOf]
  | (_, first) :: next :: rest =>
      rw [sumOf, Expr.mentions, anySummandMentions_eq]
      rfl

theorem mentions_runSum (fragments : List Fragment) :
    (runSum fragments).mentions "merge" = bodyUsesBlock fragments := by
  have hfragment (fragment : Fragment) :
      (fragment.summands.any fun summand => summand.2.mentions "merge")
        = fragment.argument.mentions "merge" := by
    cases fragment with
    | whole value => simp [Fragment.summands, Fragment.argument]
    | printed value =>
        simp [Fragment.summands, Fragment.argument, Expr.mentions, anySummandMentions]
  rw [runSum, mentions_sumOf, List.any_append, List.any_flatMap, bodyUsesBlock]
  simp [hfragment, Expr.mentions]

/-- What is built of a run makes scopes if a fragment does. -/
theorem mentions_close (output : Output) (fragments : List Fragment) :
    (concatenated (output.close fragments)).mentions "merge" = bodyUsesBlock fragments := by
  have hconcat (arguments : List Expr) : (concatenated arguments).mentions "merge"
      = arguments.any fun argument => argument.mentions "merge" := anyMentions_eq "merge" arguments
  rw [hconcat]
  cases output with
  | summed => simp [Output.close, mentions_runSum]
  | joined | nodes =>
      simp [Output.close, Output.terminator, Expr.mentions, anyMentions, bodyUsesBlock,
        Function.comp_def]

mutual

/-- The fragment of a node makes scopes exactly if the node is or holds a block. -/
theorem bodyUsesBlock_emitNode (o : EmitOptions) (output : Output) (depth : Nat) (node : Node) :
    bodyUsesBlock (emitNode o output depth node).toList = node.usesBlocks := by
  cases node with
  | text value =>
      cases hvalue : literalFragment? o.target value with
      | none =>
          rw [emitNode, hvalue]
          rfl
      | some fragment =>
          rw [emitNode, hvalue, eq_text_of_literalFragment hvalue]
          rfl
  | interpolation expression escape location =>
      cases escape <;>
        simp [emitNode, bodyUsesBlock, Fragment.argument, call, Expr.mentions, anyMentions,
          anySummandMentions, mentions_contextRef, Node.usesBlocks]
  | inclusion name location =>
      simp [emitNode, bodyUsesBlock, Fragment.argument, call, method, Expr.mentions, anyMentions,
        mentions_contextRef, Node.usesBlocks]
  | block kind expression body location =>
      -- A block makes a scope itself, whatever its body holds.
      cases kind <;> cases output <;>
        simp [emitNode, bodyUsesBlock, Fragment.argument, sectionExpr, invertedExpr,
          Output.blockResult, call, method, Expr.mentions, anyMentions, Node.usesBlocks]
  | element tag attributes children =>
      have hattributes := anyFieldMentions_emitAttributes o depth attributes
      have hchildren := bodyUsesBlock_emitNodes o .nodes depth children
      rw [emitNode, Option.toList_some, bodyUsesBlock, List.any_cons, Fragment.argument,
        Expr.mentions, anyFieldMentions, anyFieldMentions, anyFieldMentions, mentions_close,
        Expr.mentions, Expr.mentions, hattributes, hchildren]
      simp [anyFieldMentions, Node.usesBlocks, Bool.or_comm]

/-- A run makes scopes exactly if there is a block in its nodes. -/
theorem bodyUsesBlock_emitNodes (o : EmitOptions) (output : Output) (depth : Nat)
    (nodes : List Node) :
    bodyUsesBlock (emitNodes o output depth nodes) = anyUsesBlocks nodes := by
  cases nodes with
  | nil => rfl
  | cons node rest =>
      rw [emitNodes, bodyUsesBlock, List.any_append, ← bodyUsesBlock, ← bodyUsesBlock,
        bodyUsesBlock_emitNode o output depth node, bodyUsesBlock_emitNodes o output depth rest,
        anyUsesBlocks]

/-- Attributes make scopes exactly if the value of one holds a block. -/
theorem anyFieldMentions_emitAttributes (o : EmitOptions) (depth : Nat)
    (attributes : List Attribute) :
    anyFieldMentions "merge" (emitAttributes o depth attributes)
      = Attribute.anyUsesBlocks attributes := by
  cases attributes with
  | nil => rfl
  | cons attr rest =>
      have hrest := anyFieldMentions_emitAttributes o depth rest
      rw [emitAttributes, Attribute.anyUsesBlocks, ← hrest]
      cases attr with
      | static name value => rfl
      | dynamic name parts =>
          rw [emitAttribute, anyFieldMentions, mentions_runSum,
            bodyUsesBlock_emitNodes o .summed depth parts, Attribute.usesBlocks]

end

/-! ## Modules -/

/-- The words of a text, in order. -/
def wordsIn (s : List Char) : List (List Char) :=
  s.splitOnP fun c => !isWordChar c

/-- The lookup names no other function. -/
theorem name_not_mem_safeAccessSource :
    ∀ name ∈ ["merge", "toArray", "spread"],
      name.toList ∉ wordsIn Helper.safeAccessSource.toList := by
  rw [← Routine.layout_safeAccess, String.toList_ofList]
  decide +kernel

theorem Helper.mem_select {usesBlock : Bool} {helper : Helper} :
    helper ∈ select usesBlock ↔ isNeeded usesBlock helper = true := by
  rw [select, List.mem_filter]
  exact and_iff_right helper.mem_all

/-- A function names no other than those that are brought along with it. -/
theorem Helper.isNeeded_of_word {options : Options} {usesBlock : Bool} {user helper : Helper}
    (huser : user ∈ select usesBlock)
    (hword : helper.name.toList ∈ wordsIn (user.source options).toList) :
    isNeeded usesBlock helper = true := by
  cases usesBlock with
  | true => cases helper <;> rfl
  | false =>
      -- Without blocks the lookup is there alone, and its text names no other function.
      have hlookup : user = .safeAccess := by
        cases user with
        | safeAccess => rfl
        | merge | toArray | spread => exact absurd (mem_select.mp huser) (by decide)
      rw [hlookup] at hword
      cases helper with
      | safeAccess => rfl
      | merge => exact absurd hword (name_not_mem_safeAccessSource _ (by decide))
      | toArray => exact absurd hword (name_not_mem_safeAccessSource _ (by decide))
      | spread => exact absurd hword (name_not_mem_safeAccessSource _ (by decide))

theorem Helper.count_select (usesBlock : Bool) (helper : Helper) :
    (select usesBlock).count helper = if helper ∈ select usesBlock then 1 else 0 := by
  cases usesBlock <;> cases helper <;> decide

/-- Whether a module that brings functions along has those that its code calls, and the ones
for blocks only if it calls them. -/
structure Provided (options : Options) (code : List Char) (helpers calls : List Helper) :
    Prop where
  /-- The functions stand in their order, none of them twice. -/
  ordered : helpers.Sublist Helper.all
  /-- The text of each declares it by its name. -/
  declared : ∀ helper ∈ helpers,
    helper.declaration ++ ['\n'] <+: (helper.source options).toList
  /-- The code holds the text of each once, and that of no other function. -/
  embedded : ∀ helper, occurrences (helper.source options).toList code
    = if helper ∈ helpers then 1 else 0
  /-- What the body calls or a function names is there. -/
  closed : ∀ helper, (helper ∈ calls ∨ ∃ user ∈ helpers,
    helper.name.toList ∈ wordsIn (user.source options).toList) → helper ∈ helpers
  /-- The functions for blocks are there together. -/
  together : .merge ∈ helpers ∧ .toArray ∈ helpers ∧ .spread ∈ helpers
    ∨ .merge ∉ helpers ∧ .toArray ∉ helpers ∧ .spread ∉ helpers
  /-- They are there only if scopes are made and results flattened. -/
  minimal : ∀ helper ∈ helpers, helper ≠ .safeAccess → .merge ∈ calls ∧ .spread ∈ calls

theorem Matching.provided {options : Options} {code : List Char} {calls : List Helper}
    {usesBlock : Bool} (h : Matching calls usesBlock)
    (hcode : ∀ helper : Helper, occurrences (helper.source options).toList code
      = (Helper.select usesBlock).count helper) :
    Provided options code (Helper.select usesBlock) calls where
  ordered := List.filter_sublist
  declared helper _ := (helper.source_declares options).1
  embedded helper := (hcode helper).trans (Helper.count_select usesBlock helper)
  closed := by
    intro helper hhelper
    refine Helper.mem_select.mpr ?_
    rcases hhelper with hcall | ⟨user, huser, hword⟩
    · exact h.needed helper hcall
    · exact Helper.isNeeded_of_word huser hword
  together := by cases usesBlock <;> decide
  minimal := by
    intro helper hmem hother
    refine h.called ?_
    have hneeded := Helper.mem_select.mp hmem
    cases helper with
    -- The others come with a block alone, and a block calls all of them.
    | safeAccess => exact absurd rfl hother
    | merge | toArray | spread => exact hneeded

/-- Emission records whether there is a block anywhere in the tree, and so does the query on
the tree. The module holds the texts of its functions, in their order with an empty line between
them, and its body behind them; the code holds the text of each of these functions exactly once,
and each function that the body calls or that one of them names is one of them. The functions
for blocks are there all or none, and only if the body makes scopes and flattens results. -/
theorem module_brings_what_it_calls (tree : Tree) (options : Options) :
    tree.recorded options = (tree.fragments options, tree.usesBlocks)
      ∧ bodyUsesBlock (tree.fragments options) = tree.usesBlocks
      ∧ (tree.unit options).code.toList
        = moduleStart ++ (List.intercalate ['\n', '\n']
            ((tree.unit options).helpers.map fun helper => (helper.source options).toList)
          ++ (moduleMiddle ++ (tree.renderFunction options ++ moduleEnd)))
      ∧ ∃ tokens, tokens? (tree.unit options).body.toList = some tokens
        ∧ Provided options (tree.unit options).code.toList (tree.unit options).helpers
          (callsIn false tokens) := by
  have hflag : bodyUsesBlock (tree.fragments options) = tree.usesBlocks :=
    bodyUsesBlock_emitNodes _ tree.target.output 0 tree.nodes
  refine ⟨recorded_eq tree options, hflag, ?_, tree.bodyTokens options, ?_, ?_⟩
  · rw [← Helper.toList_sources]
    exact code_eq tree options
  · rw [Tree.unit, assemble, String.toList_ofList]
    exact tokens?_body tree options
  · have hcalls : callsIn false (tree.bodyTokens options) = callsOfNodes tree.nodes := by
      rw [bodyTokens_eq]
      exact callsOf_emitNodes _ tree.target.output 0 tree.nodes
    have hhelpers : (tree.unit options).helpers = Helper.select tree.usesBlocks := by
      rw [← hflag]
      rfl
    have hcode := occurrences_code tree options
    rw [hhelpers] at hcode ⊢
    rw [hcalls]
    exact (matching_callsOfNodes tree.nodes).provided hcode

def sectionInAttribute : Tree :=
  ⟨"", .structural, [.element "b" [.dynamic "class" [.block .normal "on" [] ⟨0, 0⟩]] []]⟩

/-- What its module brings along where functions are called without arguments. -/
def sectionFunctions : String := Helper.lines
  ["function safeAccess(obj, attrs, escape) \x7b",
   "\tvar originalObject = obj;",
   "\tif (!attrs) return obj;",
   "\tif (attrs[0] === '.') \x7b",
   "\t\treturn obj[attrs];",
   "\t\x7d",
   "\tvar parts = attrs.split(' ');",
   "\tattrs = parts[0].split('.');",
   "\twhile (attrs.length > 0 && obj != null && typeof (obj = obj[attrs.shift()]) !== 'undefined');",
   "\tif (typeof obj === 'string' && escape === true) \x7b",
   "\t\treturn obj.replace(/&/g, '&amp;').replace(/</g, '&lt;').replace(/\"/g, '&quot;').replace(/>/g, '&gt;');",
   "\t\x7d else if (typeof obj === 'function') \x7b",
   "\t\treturn obj.apply(originalObject, parts.slice(1));",
   "\t\x7d else \x7b",
   "\t\treturn typeof obj === 'number' ? obj : (obj || '');",
   "\t\x7d",
   "\x7d",
   "",
   "function merge(target) \x7b",
   "\t[].slice.call(arguments, 1).forEach(function (arg) \x7b",
   "\t\tfor (var all in arg) \x7b",
   "\t\t\ttarget[all] = arg[all];",
   "\t\t\x7d",
   "\t\x7d);",
   "\treturn target;",
   "\x7d",
   "",
   "function toArray(data, value) \x7b",
   "\tvar dataValue = safeAccess(data, value);",
   "\tif (dataValue) \x7b",
   "\t\tvar arrayPrototype = Object.getPrototypeOf([]);",
   "\t\tvar valuePrototype = 'object' === typeof dataValue && Object.getPrototypeOf(dataValue) || false;",
   "\t\tif (valuePrototype && (valuePrototype === arrayPrototype || Object.getPrototypeOf(valuePrototype) === arrayPrototype)) \x7b",
   "\t\t\treturn dataValue;",
   "\t\t\x7d else if (typeof dataValue === 'function') \x7b",
   "\t\t\treturn dataValue();",
   "\t\t\x7d else return [dataValue];",
   "\t\x7d else \x7b",
   "\t\treturn [];",
   "\t\x7d",
   "\x7d",
   "",
   "function spread(array) \x7b",
   "\tvar result = [];",
   "\tarray.forEach(function (entry) \x7b",
   "\t\tresult = result.concat(entry);",
   "\t\x7d);",
   "\treturn result;",
   "\x7d"]

/-- The text of all four functions stands in front of the one that renders data, each once. -/
theorem module_brings_what_it_calls_of_section :
    let options := { Options.default with sectionCallable := .noArgs }
    (sectionInAttribute.unit options).code.toList
        = moduleStart ++ (sectionFunctions.toList
          ++ (moduleMiddle ++ (sectionInAttribute.renderFunction options ++ moduleEnd)))
      ∧ ∀ helper : Helper, occurrences (helper.source options).toList
        (sectionInAttribute.unit options).code.toList = 1 := by
  intro options
  obtain ⟨-, -, hcode, _, -, hprovided⟩ :=
    module_brings_what_it_calls sectionInAttribute options
  have hhelpers : (sectionInAttribute.unit options).helpers = Helper.all := by decide +kernel
  have htexts : List.intercalate ['\n', '\n']
      (Helper.all.map fun helper => (helper.source options).toList) = sectionFunctions.toList := by
    have hcall : "\t\t\treturn dataValue(" ++ "" ++ ");" = "\t\t\treturn dataValue();" := rfl
    -- Each step has a proof of its own, so that no check looks into the characters.
    simp -implicitDefEqProofs only [options, Helper.all, List.map_cons, List.map_nil,
      Helper.source, Helper.safeAccessSource, Helper.mergeSource, Helper.toArraySource,
      Helper.spreadSource, sectionFunctions, Helper.toList_lines, List.intercalate_cons_cons,
      List.intercalate_singleton, hcall, String.toList_empty, List.append_assoc, List.cons_append,
      List.nil_append]
  rw [hhelpers, htexts] at hcode
  refine ⟨hcode, fun helper => ?_⟩
  rw [hprovided.embedded, hhelpers, if_pos helper.mem_all]

end Mustache
