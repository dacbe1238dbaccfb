import Mustache.Module.Assembly
import Mustache.Module.Body
import Mustache.Proofs.Script.Cutting
import Mustache.Proofs.Text.Decimal

/-!
The tokens of emitted code.

Every fragment that a node becomes is laid out well, so that the text of a body is
cut into the tokens of its fragments, each with its separator behind it. The
variables of block depths are the only names that are made up on the way; they are
words and not reserved.
-/
set_option autoImplicit false

namespace Mustache

open Script Text

/-! ## The variables of block depths -/

/-- The digits of a numeral are characters of a word. -/
theorem isWordChar_of_mem_decimal (n : Nat) : ∀ c ∈ decimal n, isWordChar c = true := by
  intro c hc
  simp [isWordChar, Char.isAlphanum, isDigit_of_mem_decimal n c hc]

/-- No reserved word starts as the variables do. -/
theorem not_reserved_of_data (s : List Char) :
    reservedWords.contains (String.ofList ("data".toList ++ s)) = false := by
  -- Four characters settle it, whatever number follows.
  have hwords : ∀ word ∈ reservedWords, word.toList.take 4 ≠ "data".toList := by decide
  by_contra hmem
  rw [Bool.not_eq_false] at hmem
  refine hwords _ (List.contains_iff_mem.mp hmem) ?_
  rw [String.toList_ofList]
  rfl

theorem isName_contextVar (depth : Nat) : isName (String.ofList (contextVar depth)) = true := by
  -- No reserved word starts with the letters of `data`.
  have hstart : ∃ s, contextVar depth = "data".toList ++ s ∧ ∀ c ∈ s, isWordChar c = true := by
    unfold contextVar
    split_ifs
    · exact ⟨[], by simp⟩
    · refine ⟨'$' :: decimal depth, rfl, fun c hc => ?_⟩
      rcases List.mem_cons.mp hc with rfl | hc
      · rfl
      · exact isWordChar_of_mem_decimal depth c hc
  obtain ⟨s, hs, hword⟩ := hstart
  rw [isName, hs, not_reserved_of_data, isWord, String.toList_ofList]
  have hall : ("data".toList ++ s).all isWordChar = true := by
    rw [List.all_append, List.all_eq_true.mpr hword]
    rfl
  rw [hall]
  rfl

/-! ## Fragments are laid out well -/

/-- Whether the value of a fragment is laid out well and nothing comes between its
parts. -/
def Fragment.Laid : Fragment → Prop
  | .whole value | .printed value => value.Laid ∧ value.looseness = 0

theorem Fragment.Laid.argument {fragment : Fragment} (h : fragment.Laid) :
    fragment.argument.Laid := by
  cases fragment with
  | whole value => exact h.1
  | printed value =>
      have hvalue : value.looseness ≤ 1 := by rw [h.2]; exact Nat.zero_le 1
      exact ⟨trivial, Nat.zero_le 1, ⟨h.1, hvalue⟩, trivial⟩

theorem allLaid_of_forall {es : List Expr} (h : ∀ e ∈ es, e.Laid) : AllLaid es := by
  induction es with
  | nil => trivial
  | cons e rest ih =>
      exact ⟨h e List.mem_cons_self, ih fun e' he' => h e' (List.mem_cons_of_mem e he')⟩

theorem summandsLaid_append {first rest : List (Bool × Expr)} (hfirst : SummandsLaid first)
    (hrest : SummandsLaid rest) : SummandsLaid (first ++ rest) := by
  induction first with
  | nil => exact hrest
  | cons summand first ih =>
      obtain ⟨spaced, e⟩ := summand
      exact ⟨hfirst.1, ih hfirst.2⟩

/-- A fragment can stand among summands. -/
theorem Fragment.Laid.summands {fragment : Fragment} (h : fragment.Laid) :
    SummandsLaid fragment.summands := by
  have hle {e : Expr} (he : e.looseness = 0) : e.looseness ≤ 1 := he ▸ Nat.zero_le 1
  cases fragment with
  | whole value => exact ⟨⟨h.1, hle h.2⟩, trivial⟩
  | printed value => exact ⟨⟨trivial, Nat.zero_le 1⟩, ⟨h.1, hle h.2⟩, trivial⟩

theorem sumOf_laid {summands : List (Bool × Expr)} (h : SummandsLaid summands) :
    (sumOf summands).Laid := by
  match summands, h with
  | [], _ => trivial
  | [(_, only)], h => exact h.1.1
  | (_, first) :: next :: rest, h => exact ⟨h.1.1, h.1.2, h.2⟩

theorem runSum_laid {fragments : List Fragment} (h : ∀ fragment ∈ fragments, fragment.Laid) :
    (runSum fragments).Laid := by
  refine sumOf_laid (summandsLaid_append ?_ ⟨⟨trivial, Nat.zero_le 1⟩, trivial⟩)
  induction fragments with
  | nil => trivial
  | cons fragment rest ih =>
      rw [List.flatMap_cons]
      refine summandsLaid_append (h fragment List.mem_cons_self).summands (ih fun f hf => ?_)
      exact h f (List.mem_cons_of_mem fragment hf)

/-- A run and its terminator can stand as arguments. -/
theorem close_laid (output : Output) {fragments : List Fragment}
    (h : ∀ fragment ∈ fragments, fragment.Laid) : AllLaid (output.close fragments) := by
  have harguments (terminator : Expr) (hend : terminator.Laid) :
      AllLaid (fragments.map Fragment.argument ++ [terminator]) := by
    refine allLaid_of_forall fun e he => ?_
    rcases List.mem_append.mp he with he | he
    · obtain ⟨fragment, hfragment, rfl⟩ := List.mem_map.mp he
      exact (h fragment hfragment).argument
    · rw [List.mem_singleton.mp he]
      exact hend
  cases output with
  | joined => exact harguments (.text "") trivial
  | summed => exact ⟨runSum_laid h, trivial⟩
  | nodes => exact harguments (.list []) trivial

/-! ## Calls are laid out well -/

theorem call_laid {name : String} {arguments : List Expr} (hname : isName name = true)
    (h : AllLaid arguments) : (call name arguments).Laid :=
  ⟨hname, rfl, h⟩

theorem method_laid {object : Expr} {name : String} {arguments : List Expr} (hobject : object.Laid)
    (htight : object.looseness = 0 ∧ object.isNumber = false) (hname : isWord name = true)
    (h : AllLaid arguments) : (method object name arguments).Laid :=
  ⟨⟨hobject, htight.1, htight.2, hname⟩, rfl, h⟩

theorem concatenated_laid {arguments : List Expr} (h : AllLaid arguments) :
    (concatenated arguments).Laid :=
  method_laid trivial ⟨rfl, rfl⟩ rfl h

theorem contextRef_laid (depth : Nat) : (contextRef depth).Laid :=
  isName_contextVar depth

/-- The result of a block is laid out well, and nothing comes between its parts. -/
theorem blockResult_laid (output : Output) {source each : Expr} (hsource : source.Laid)
    (htight : source.looseness = 0 ∧ source.isNumber = false) (heach : each.Laid) :
    (output.blockResult (call "spread" [method source "map" [each]])).Laid
      ∧ (output.blockResult (call "spread" [method source "map" [each]])).looseness = 0 := by
  have hmap : (method source "map" [each]).Laid :=
    method_laid hsource htight rfl ⟨heach, trivial⟩
  have hspread : (call "spread" [method source "map" [each]]).Laid :=
    call_laid rfl ⟨hmap, trivial⟩
  cases output with
  | joined | summed => exact ⟨method_laid hspread ⟨rfl, rfl⟩ rfl ⟨trivial, trivial⟩, rfl⟩
  | nodes => exact ⟨hspread, rfl⟩

theorem hiddenTest_laid (policy : InvertedPolicy) : (hiddenTest policy).Laid := by
  cases policy <;>
    simp only [hiddenTest, method, Expr.Laid, AllLaid, Expr.looseness, Expr.isNumber] <;> decide

/-- A section is laid out well, and nothing comes between its parts. -/
theorem sectionExpr_laid (output : Output) (depth : Nat) (expression : String) {result : Expr}
    (h : result.Laid) : (sectionExpr output depth expression result).Laid := by
  have hbindings : elementBindingsExpr.Laid := by
    simp only [elementBindingsExpr, Expr.Laid, FieldsLaid, FieldName.isLaid, Expr.looseness,
      Expr.isNumber]
    decide
  have hscope : (call "merge"
      [.record [], contextRef depth, elementBindingsExpr, .var "e"]).Laid :=
    call_laid rfl ⟨trivial, contextRef_laid depth, hbindings, rfl, trivial⟩
  have helements : (call "toArray" [contextRef depth, .text expression]).Laid :=
    call_laid rfl ⟨contextRef_laid depth, trivial, trivial⟩
  have heach : Expr.Laid (.closure ["e", "i", "a"] (String.ofList (contextVar (depth + 1)))
      (call "merge" [.record [], contextRef depth, elementBindingsExpr, .var "e"]) result) :=
    ⟨rfl, isName_contextVar (depth + 1), hscope, h⟩
  exact (blockResult_laid output helements ⟨rfl, rfl⟩ heach).1

/-- An inverted section is laid out well, and nothing comes between its parts. -/
theorem invertedExpr_laid (policy : InvertedPolicy) (output : Output) (depth : Nat)
    (expression : String) {result : Expr} (h : result.Laid) :
    (invertedExpr policy output depth expression result).Laid := by
  have hvalue : (call "safeAccess" [contextRef depth, .text expression]).Laid :=
    call_laid rfl ⟨contextRef_laid depth, trivial, trivial⟩
  have hscope : (call "merge" [.record [], contextRef depth]).Laid :=
    call_laid rfl ⟨trivial, contextRef_laid depth, trivial⟩
  have honce : Expr.Laid (.closure [] (String.ofList (contextVar (depth + 1)))
      (call "merge" [.record [], contextRef depth]) result) :=
    ⟨rfl, isName_contextVar (depth + 1), hscope, h⟩
  have hone : (Expr.list [.number 1]).Laid := ⟨(by decide : 1 < 10), trivial⟩
  have hhidden : Expr.Laid (.paren (.apply (.function ["v"] (hiddenTest policy))
      [call "safeAccess" [contextRef depth, .text expression]])) :=
    ⟨⟨rfl, hiddenTest_laid policy⟩, rfl, hvalue, trivial⟩
  obtain ⟨hresult, htight⟩ := blockResult_laid output hone ⟨rfl, rfl⟩ honce
  exact ⟨⟨hhidden, trivial, hresult⟩, Nat.zero_le 6, Nat.zero_le 6, htight ▸ Nat.zero_le 6⟩

/-! ## Emitted code is laid out well -/

mutual

theorem emitNode_laid (o : EmitOptions) (output : Output) (depth : Nat) (node : Node) :
    ∀ fragment ∈ emitNode o output depth node, fragment.Laid := by
  intro fragment hfragment
  cases node with
  | text value =>
      simp only [emitNode, literalFragment?] at hfragment
      split_ifs at hfragment
      · simp at hfragment
      · cases hfragment
        exact ⟨trivial, rfl⟩
  | interpolation expression escape location =>
      cases hfragment
      refine ⟨call_laid rfl ?_, rfl⟩
      cases escape
      · exact ⟨contextRef_laid depth, trivial, trivial⟩
      · exact ⟨contextRef_laid depth, trivial, trivial, trivial⟩
  | inclusion name location =>
      cases hfragment
      have hrequire : (call "require" [.text (modulePath o.partialExtension name)]).Laid :=
        call_laid rfl ⟨trivial, trivial⟩
      exact ⟨method_laid hrequire ⟨rfl, rfl⟩ rfl ⟨contextRef_laid depth, trivial⟩, rfl⟩
  | block kind expression body location =>
      cases hfragment
      -- The body is emitted one depth further, under the variable that the block binds.
      have hresult := concatenated_laid
        (close_laid output (emitNodes_laid o output (depth + 1) body))
      cases kind with
      | normal => exact ⟨sectionExpr_laid output depth expression hresult, rfl⟩
      | inverted =>
          exact ⟨invertedExpr_laid o.invertedPolicy output depth expression hresult, rfl⟩
  | element tag attributes children =>
      cases hfragment
      have hclosed := close_laid .nodes (emitNodes_laid o .nodes depth children)
      have hchildren := concatenated_laid hclosed
      exact ⟨⟨⟨rfl, trivial⟩, ⟨rfl, emitAttributes_laid o depth attributes⟩, ⟨rfl, hchildren⟩,
        trivial⟩, rfl⟩

theorem emitNodes_laid (o : EmitOptions) (output : Output) (depth : Nat) (nodes : List Node) :
    ∀ fragment ∈ emitNodes o output depth nodes, fragment.Laid := by
  cases nodes with
  | nil => simp [emitNodes]
  | cons node rest =>
      intro fragment hfragment
      rcases List.mem_append.mp hfragment with hfragment | hfragment
      · exact emitNode_laid o output depth node fragment (Option.mem_toList.mp hfragment)
      · exact emitNodes_laid o output depth rest fragment hfragment

theorem emitAttribute_laid (o : EmitOptions) (depth : Nat) (attr : Attribute) :
    FieldsLaid [emitAttribute o depth attr] := by
  cases attr with
  | static name value => exact ⟨⟨rfl, trivial⟩, trivial⟩
  | dynamic name parts => exact ⟨⟨rfl, runSum_laid (emitNodes_laid o .summed depth parts)⟩, trivial⟩

theorem emitAttributes_laid (o : EmitOptions) (depth : Nat) (attributes : List Attribute) :
    FieldsLaid (emitAttributes o depth attributes) := by
  cases attributes with
  | nil => trivial
  | cons attr rest =>
      have hfirst := emitAttribute_laid o depth attr
      exact ⟨hfirst.1, emitAttributes_laid o depth rest⟩

end

/-! ## Runs as nests -/

/-- What stands behind each fragment of a run. -/
def Output.separator : Output → Nest
  | .joined | .nodes => .token (.mark ",")
  | .summed => .token (.mark "+")

def runNests (output : Output) (fragments : List Fragment) : List Nest :=
  fragments.flatMap fun fragment => fragment.argument.nests ++ [output.separator]

/-- The summands of a run come with their plus signs in front. -/
theorem nestsOfSummands_run (fragments : List Fragment) :
    nestsOfSummands (fragments.flatMap Fragment.summands ++ [(true, .text "")])
      = .token (.mark "+") :: (runNests .summed fragments ++ [.token (.text "")]) := by
  induction fragments with
  | nil => rfl
  | cons fragment rest ih =>
      rw [List.flatMap_cons, List.append_assoc, runNests, List.flatMap_cons, ← runNests]
      cases fragment <;>
        simp [Fragment.summands, Fragment.argument, nestsOfSummands, ih, Expr.nests,
          Output.separator]

/-- The sum of a run is its fragments with plus signs between them, and the
terminator. -/
theorem nests_runSum (fragments : List Fragment) :
    (runSum fragments).nests = runNests .summed fragments ++ [.token (.text "")] := by
  cases fragments with
  | nil => rfl
  | cons fragment rest =>
      have hsum (spaced : Bool) (first : Expr) (more : List (Bool × Expr)) :
          (sumOf ((spaced, first) :: more)).nests = first.nests ++ nestsOfSummands more := by
        cases more with
        | nil => simp [sumOf, nestsOfSummands]
        | cons next more => rfl
      rw [runSum, List.flatMap_cons, List.append_assoc, runNests, List.flatMap_cons, ← runNests]
      cases fragment <;>
        simp [Fragment.summands, Fragment.argument, hsum, nestsOfSummands, nestsOfSummands_run,
          Expr.nests, Output.separator]

/-- A run that is closed is its fragments with their separators, and the
terminator. -/
theorem commaNests_close (output : Output) (fragments : List Fragment) :
    commaNests (nestsOfList (output.close fragments))
      = runNests output fragments ++ output.terminator.nests := by
  have harguments (terminator : Expr) (separator : Nest) (hcomma : separator = .token (.mark ",")) :
      commaNests (nestsOfList (fragments.map Fragment.argument ++ [terminator]))
        = (fragments.flatMap fun fragment => fragment.argument.nests ++ [separator])
          ++ terminator.nests := by
    induction fragments with
    | nil => rfl
    | cons fragment rest ih =>
        -- The terminator is always there, so that a comma follows every fragment.
        have hmore : ∃ next more,
            nestsOfList (rest.map Fragment.argument ++ [terminator]) = next :: more := by
          cases rest <;> exact ⟨_, _, rfl⟩
        obtain ⟨next, more, hlist⟩ := hmore
        rw [hlist] at ih
        rw [List.map_cons, List.cons_append, nestsOfList, hlist, commaNests, ih, List.flatMap_cons,
          hcomma]
        simp
  cases output with
  | joined => exact harguments (.text "") _ rfl
  | summed => exact nests_runSum fragments
  | nodes => exact harguments (.list []) _ rfl

/-! ## The text of a body -/

/-- The text of a body is cut into its fragments, each with a comma behind it,
whatever follows. -/
theorem tokens?_bodyText {fragments : List Fragment} (h : ∀ fragment ∈ fragments, fragment.Laid)
    {s : List Char} {ts : List Token} (hs : tokens? s = some ts) :
    tokens? (bodyText fragments ++ s) = some (tokensOf (runNests .joined fragments) ++ ts) := by
  induction fragments with
  | nil => exact hs
  | cons fragment rest ih =>
      have hmore := ih fun f hf => h f (List.mem_cons_of_mem fragment hf)
      have hfirst := isCut_of_laid _ (h fragment List.mem_cons_self).argument
      -- What follows a fragment starts with its comma, which ends every token before it.
      rw [bodyText, bodyPieces] at hmore
      simp only [bodyText, bodyPieces, runNests, List.flatMap_cons, text_append, text_code,
        List.append_assoc, tokensOf_append, tokensOf, Nest.tokens, Output.separator,
        List.cons_append, List.nil_append] at hmore ⊢
      refine hfirst.readsAs _ _ ⟨rfl, by simp⟩ ?_
      exact tokens?_mark "," rfl (tokens?_blank rfl hmore)

/-- The nests of a run hold no bracket outside groups. -/
theorem allPlain_runNests (output : Output) (fragments : List Fragment) :
    allPlain (runNests output fragments) = true := by
  have hseparator : allPlain [output.separator] = true := by cases output <;> rfl
  induction fragments with
  | nil => rfl
  | cons fragment rest ih =>
      rw [runNests, List.flatMap_cons, ← runNests, allPlain_append, allPlain_append, ih,
        allPlain_nests, hseparator]
      rfl

end Mustache
