import Mustache.Proofs.Module.Assembly
import Mustache.Proofs.Module.Runs
import Mustache.Proofs.Script.Routine
import Mustache.Proofs.Text.Occurrences

/-!
Where the functions of a module stand in its code.

The text of a function that a module can bring along starts with the line that declares the
function by its name. No other line of a module is such a line: functions in a body have no name,
and a string literal stands on one line, whatever the template put in it
(`endsOtherwise_bodyText`). So counting the text of a function from line to line finds it in the
code exactly where it was embedded (`occurrences_code`).
-/
set_option autoImplicit false

namespace Mustache

open Script Text

/-! ## Declarations -/

namespace Helper

/-- The parameters of a function, as its text lists them. -/
def parameters : Helper → String
  | .safeAccess => "obj, attrs, escape"
  | .merge => "target"
  | .toArray => "data, value"
  | .spread => "array"

/-- The line that declares a function. -/
def declaration (helper : Helper) : List Char :=
  ("function ".toList ++ helper.name.toList) ++ '(' :: (helper.parameters.toList ++ ") \x7b".toList)

/-- The characters of lines. -/
theorem toList_lines (parts : List String) :
    (lines parts).toList = List.intercalate ['\n'] (parts.map String.toList) :=
  String.toList_intercalate

theorem mem_all (helper : Helper) : helper ∈ all := by
  cases helper <;> decide

/-- The text of a function starts with the line that declares it, and no other line in it
declares a function that a module can bring along. -/
theorem source_declares (options : Options) (user : Helper) :
    user.declaration ++ ['\n'] <+: (user.source options).toList
      ∧ ∀ helper ∈ all, occurrences (helper.declaration ++ ['\n'])
          ((user.source options).toList ++ ['\n', '\n']) = if user = helper then 1 else 0 := by
  -- Each text is compared with all four first lines; how a list is made depends on what a function
  -- is called with, so both texts are looked at.
  cases user with
  | safeAccess =>
      rw [source, ← Routine.layout_safeAccess, String.toList_ofList]
      decide +kernel
  | toArray =>
      rw [← Routine.layout_toArray, String.toList_ofList]
      cases options.sectionCallable <;> decide +kernel
  | merge =>
      simp only [source, mergeSource, toList_lines, List.map_cons, List.map_nil,
        String.reduceToList]
      decide +kernel
  | spread =>
      simp only [source, spreadSource, toList_lines, List.map_cons, List.map_nil,
        String.reduceToList]
      decide +kernel

/-- What ends otherwise in front of the last parenthesis does so at the end. -/
theorem not_suffix_of_parenthesis {a b x y : List Char} (ha : '(' ∉ a) (hx : '(' ∉ x)
    (h : ¬ b <:+ a) : ¬ b ++ '(' :: y <:+ a ++ '(' :: x := by
  rintro ⟨front, hfront⟩
  rw [← List.append_assoc] at hfront
  obtain ⟨heq, -, -⟩ := (List.append_cons_inj_of_notMem ha hx).mp hfront.symm
  exact h ⟨front, heq.symm⟩

end Helper

/-! ## Line ends in emitted code -/

section

variable (helper : Helper)

theorem endsOtherwise_word {name : String} (h : isWord name = true) :
    EndsOtherwise helper.declaration (text (code name)) := by
  rw [text_code]
  refine endsOtherwise_of_not_mem fun hmem => ?_
  have hword := List.all_eq_true.mp (Bool.and_eq_true_iff.mp h).1 _ hmem
  exact absurd hword (by decide)

theorem endsOtherwise_code {s : String} (h : '\n' ∉ s.toList) :
    EndsOtherwise helper.declaration (text (code s)) := by
  rw [text_code]
  exact endsOtherwise_of_not_mem h

theorem endsOtherwise_semicolon (behind : String) (h : '\n' ∉ behind.toList) :
    EndsOtherwise helper.declaration (text (code (";\n" ++ behind))) := by
  have hline : EndsOtherwise helper.declaration ([';'] ++ ['\n']) :=
    endsOtherwise_line (by decide) (by cases helper <;> decide) (by cases helper <;> decide)
  rw [text_code, String.toList_append]
  exact hline.append (endsOtherwise_of_not_mem h)

/-- A string literal stands on one line, whatever it holds. -/
theorem endsOtherwise_literal (s : List Char) :
    EndsOtherwise helper.declaration (text [.literal s]) := by
  have hchar (c : Char) : '\n' ∉ Quoted.encodeChar c := by
    rw [Quoted.encodeChar]
    split_ifs with hslash hquote hfeed hreturn
    · decide
    · decide
    · decide
    · decide
    · exact fun hmem => hfeed (List.mem_singleton.mp hmem).symm
  -- A line feed in the text is written as an escape.
  refine endsOtherwise_of_not_mem fun hmem => ?_
  simp only [text, List.flatMap_cons, List.flatMap_nil, Piece.text, Quoted.literal, Quoted.encode,
    List.append_nil, List.mem_cons, List.mem_append, List.mem_flatMap] at hmem
  rcases hmem with hmem | ⟨c, -, hmem⟩ | hmem
  · exact absurd hmem (by decide)
  · exact hchar c hmem
  · exact absurd hmem (by decide)

theorem forall_mem_commaSeparated {P : Char → Prop} {pss : List (List Piece)} (hcomma : P ',')
    (hblank : P ' ') (h : ∀ ps ∈ pss, ∀ c ∈ text ps, P c) :
    ∀ c ∈ text (commaSeparated pss), P c := by
  induction pss with
  | nil => exact fun _ hc => absurd hc List.not_mem_nil
  | cons first rest ih =>
      obtain ⟨hfirst, hrest⟩ := List.forall_mem_cons.mp h
      cases rest with
      | nil => exact hfirst
      | cons next rest =>
          rw [commaSeparated, text_append, text_append, text_code]
          simp only [List.forall_mem_append]
          exact ⟨⟨hfirst, by simp [hcomma, hblank]⟩, ih hrest⟩

/-- A function without a name is not declared as one that a module brings along. -/
theorem endsOtherwise_parameters {parameters : List String} (h : parameters.all isName = true) :
    EndsOtherwise helper.declaration (text (parameterPieces parameters) ++ ['\n']) := by
  have hlisted : ∀ c ∈ text (commaSeparated (parameters.map code)), c ≠ '(' ∧ c ≠ '\n' := by
    refine forall_mem_commaSeparated (by decide) (by decide) ?_
    intro ps hps c hc
    obtain ⟨name, hname, rfl⟩ := List.mem_map.mp hps
    have hword := (Bool.and_eq_true_iff.mp (List.all_eq_true.mp h name hname)).1
    rw [text_code] at hc
    have hchar := List.all_eq_true.mp (Bool.and_eq_true_iff.mp hword).1 c hc
    constructor <;> (rintro rfl; exact absurd hchar (by decide))
  have htext : text (parameterPieces parameters) = "function ".toList
      ++ '(' :: (text (commaSeparated (parameters.map code)) ++ ") \x7b".toList) := by
    simp [parameterPieces]
  have hround : '(' ∉ text (commaSeparated (parameters.map code)) ++ ") \x7b".toList := by
    rw [List.mem_append, not_or]
    exact ⟨fun hmem => (hlisted _ hmem).1 rfl, by decide⟩
  have hfree : '\n' ∉ text (parameterPieces parameters) := by
    rw [htext, List.mem_append, List.mem_cons, List.mem_append, not_or, not_or, not_or]
    exact ⟨by decide, by decide, fun hmem => (hlisted _ hmem).2 rfl, by decide⟩
  -- The line of a function in the body opens a parenthesis without a name before it, where each
  -- declaration has one.
  refine endsOtherwise_line hfree ?_ ?_
  · rw [htext]
    exact Helper.not_suffix_of_parenthesis (by cases helper <;> decide) (by cases helper <;> decide)
      (by cases helper <;> decide)
  · rw [htext]
    exact Helper.not_suffix_of_parenthesis (by decide) hround (by cases helper <;> decide)

theorem endsOtherwise_commaSeparated {pss : List (List Piece)}
    (h : ∀ ps ∈ pss, EndsOtherwise helper.declaration (text ps)) :
    EndsOtherwise helper.declaration (text (commaSeparated pss)) := by
  induction pss with
  | nil => exact endsOtherwise_of_not_mem List.not_mem_nil
  | cons first rest ih =>
      obtain ⟨hfirst, hrest⟩ := List.forall_mem_cons.mp h
      cases rest with
      | nil => exact hfirst
      | cons next rest =>
          rw [commaSeparated, text_append, text_append]
          exact (hfirst.append (endsOtherwise_code helper (by decide))).append (ih hrest)

mutual

/-- No line of an expression declares a function that a module can bring along. -/
theorem endsOtherwise_pieces (e : Expr) (h : e.Laid) :
    EndsOtherwise helper.declaration (text e.pieces) := by
  have hcode {s : String} (hs : '\n' ∉ s.toList) := endsOtherwise_code helper hs
  -- The parts of an expression end otherwise by induction. What is written between them has no
  -- line feed, so that no first line of a function ends there.
  cases e with
  | text value => exact endsOtherwise_literal helper value.toList
  | emptyText => exact endsOtherwise_of_not_mem (by decide)
  | yes => exact hcode (by decide)
  | number value =>
      rw [Expr.pieces, text_decimal]
      refine endsOtherwise_of_not_mem fun hmem => ?_
      exact absurd (isWordChar_of_mem_decimal value _ hmem) (by decide)
  | var name => exact endsOtherwise_word helper (Bool.and_eq_true_iff.mp h).1
  | member object name =>
      obtain ⟨hobject, -, -, hname⟩ := h
      simp only [Expr.pieces, text_append]
      exact ((endsOtherwise_pieces object hobject).append (hcode (by decide))).append
        (endsOtherwise_word helper hname)
  | apply function arguments =>
      obtain ⟨hfunction, -, harguments⟩ := h
      have hlist := endsOtherwise_commaSeparated helper (endsOtherwise_list arguments harguments)
      simp only [Expr.pieces, text_append]
      exact (((endsOtherwise_pieces function hfunction).append (hcode (by decide))).append
        hlist).append (hcode (by decide))
  | list items =>
      have hlist := endsOtherwise_commaSeparated helper (endsOtherwise_list items h)
      simp only [Expr.pieces, text_append]
      exact ((hcode (by decide)).append hlist).append (hcode (by decide))
  | record fields =>
      have hlist := endsOtherwise_commaSeparated helper (endsOtherwise_fields fields h)
      simp only [Expr.pieces, text_append]
      exact ((hcode (by decide)).append hlist).append (hcode (by decide))
  | sum first rest =>
      obtain ⟨hfirst, -, hrest⟩ := h
      simp only [Expr.pieces, text_append]
      exact (endsOtherwise_pieces first hfirst).append (endsOtherwise_summands rest hrest)
  | not operand | typeOf operand =>
      simp only [Expr.pieces, text_append]
      exact (hcode (by decide)).append (endsOtherwise_pieces operand h.1)
  | binary operator left right =>
      obtain ⟨hleft, hright, -⟩ := h
      have hmark : '\n' ∉ operator.mark.toList := by cases operator <;> decide
      simp only [Expr.pieces, text_append]
      exact ((((endsOtherwise_pieces left hleft).append (hcode (by decide))).append
        (hcode hmark)).append (hcode (by decide))).append (endsOtherwise_pieces right hright)
  | choose test t f =>
      obtain ⟨⟨htest, ht, hf⟩, -⟩ := h
      simp only [Expr.pieces, text_append]
      exact ((((endsOtherwise_pieces test htest).append (hcode (by decide))).append
        (endsOtherwise_pieces t ht)).append (hcode (by decide))).append (endsOtherwise_pieces f hf)
  | paren inner =>
      simp only [Expr.pieces, text_append]
      exact ((hcode (by decide)).append (endsOtherwise_pieces inner h)).append (hcode (by decide))
  | function parameters result =>
      obtain ⟨hparameters, hresult⟩ := h
      simp only [Expr.pieces, text_append]
      exact (((endsOtherwise_parameters helper hparameters).of_append.append
        (hcode (by decide))).append (endsOtherwise_pieces result hresult)).append
        (hcode (by decide))
  | closure parameters name value result =>
      obtain ⟨hparameters, hname, hvalue, hresult⟩ := h
      have hopening : EndsOtherwise helper.declaration
          (text (parameterPieces parameters) ++ text (code "\n\tvar ")) := by
        have hlines := (endsOtherwise_parameters helper hparameters).append
          (endsOtherwise_code helper (by decide : '\n' ∉ "\tvar ".toList))
        rwa [List.append_assoc, text_code] at hlines
      have hbound := endsOtherwise_word helper (Bool.and_eq_true_iff.mp hname).1
      have hreturn := endsOtherwise_semicolon helper "\treturn " (by decide)
      have hclosing := endsOtherwise_semicolon helper "\x7d" (by decide)
      simp only [Expr.pieces, text_append]
      exact ((((((hopening.append hbound).append
        (hcode (by decide))).append (endsOtherwise_pieces value hvalue)).append hreturn).append
        (endsOtherwise_pieces result hresult)).append hclosing)

theorem endsOtherwise_list (es : List Expr) (h : AllLaid es) :
    ∀ ps ∈ piecesOfList es, EndsOtherwise helper.declaration (text ps) := by
  cases es with
  | nil => exact fun _ hps => absurd hps List.not_mem_nil
  | cons e rest =>
      exact List.forall_mem_cons.mpr ⟨endsOtherwise_pieces e h.1, endsOtherwise_list rest h.2⟩

theorem endsOtherwise_fields (fields : List (FieldName × Expr)) (h : FieldsLaid fields) :
    ∀ ps ∈ piecesOfFields fields, EndsOtherwise helper.declaration (text ps) := by
  cases fields with
  | nil => exact fun _ hps => absurd hps List.not_mem_nil
  | cons field rest =>
      obtain ⟨name, e⟩ := field
      have hname : EndsOtherwise helper.declaration (text name.pieces) := by
        cases name with
        | bare name => exact endsOtherwise_word helper h.1.1
        | quoted name => exact endsOtherwise_literal helper name.toList
      refine List.forall_mem_cons.mpr ⟨?_, endsOtherwise_fields rest h.2⟩
      simp only [text_append]
      exact (hname.append (endsOtherwise_code helper (by decide))).append
        (endsOtherwise_pieces e h.1.2)

theorem endsOtherwise_summands (rest : List (Bool × Expr)) (h : SummandsLaid rest) :
    EndsOtherwise helper.declaration (text (piecesOfSummands rest)) := by
  cases rest with
  | nil => exact endsOtherwise_of_not_mem List.not_mem_nil
  | cons summand rest =>
      obtain ⟨spaced, e⟩ := summand
      have hplus : '\n' ∉ (if spaced then " + " else "+").toList := by cases spaced <;> decide
      simp only [piecesOfSummands, text_append]
      exact ((endsOtherwise_code helper hplus).append (endsOtherwise_pieces e h.1.1)).append
        (endsOtherwise_summands rest h.2)

end

/-- No line of a body declares a function that a module can bring along. -/
theorem endsOtherwise_bodyText {fragments : List Fragment}
    (h : ∀ fragment ∈ fragments, fragment.Laid) :
    EndsOtherwise helper.declaration (bodyText fragments) := by
  induction fragments with
  | nil => exact endsOtherwise_of_not_mem List.not_mem_nil
  | cons fragment rest ih =>
      obtain ⟨hfirst, hrest⟩ := List.forall_mem_cons.mp h
      rw [bodyText, bodyPieces, List.flatMap_cons, text_append, text_append]
      exact ((endsOtherwise_pieces helper _ hfirst.argument).append
        (endsOtherwise_code helper (by decide))).append (ih hrest)

end

/-! ## Embedded functions -/

namespace Helper

variable (options : Options) (helper : Helper)

theorem exists_source_eq :
    ∃ more, (helper.source options).toList = helper.declaration ++ '\n' :: more := by
  obtain ⟨more, hmore⟩ := (source_declares options helper).1
  exact ⟨more, by rw [← hmore, List.append_assoc, List.singleton_append]⟩

theorem newline_not_mem_declaration : '\n' ∉ helper.declaration := by
  cases helper <;> decide

/-- Where no line declares a function, its text does not stand, and what follows has it as
often as the whole. -/
theorem occurrences_append {s : List Char} (h : ¬ helper.declaration ++ ['\n'] <:+: s ++ ['\n'])
    (rest : List Char) :
    occurrences (helper.source options).toList (s ++ '\n' :: rest)
      = occurrences (helper.source options).toList rest := by
  obtain ⟨more, hmore⟩ := exists_source_eq options helper
  rw [hmore]
  exact occurrences_append_of_absent (newline_not_mem_declaration helper) h

/-- In front of an empty line, the text of a function has itself once and no other function's. -/
theorem occurrences_source (user : Helper) (rest : List Char) :
    occurrences (helper.source options).toList
        ((user.source options).toList ++ '\n' :: '\n' :: rest)
      = (if user = helper then 1 else 0) + occurrences (helper.source options).toList rest := by
  -- A text occurs only where its first line does, and that is counted once and for all.
  have hcount := (source_declares options user).2 helper helper.mem_all
  have hlines (rest : List Char) : (user.source options).toList ++ '\n' :: '\n' :: rest
      = (user.source options).toList ++ ['\n'] ++ '\n' :: rest := by
    rw [List.append_assoc, List.singleton_append]
  rw [hlines] at hcount ⊢
  split_ifs with huser
  · subst huser
    obtain ⟨more, hmore⟩ := exists_source_eq options user
    rw [if_pos rfl] at hcount
    exact occurrences_self_append (newline_not_mem_declaration user) hmore hcount
  · rw [if_neg huser] at hcount
    rw [Nat.zero_add, occurrences_append options helper (occurrences_eq_zero_iff.mp hcount)]

/-- Texts of functions stand in their order, with an empty line between them. -/
theorem toList_sources (helpers : List Helper) :
    (sources options helpers).toList
      = List.intercalate ['\n', '\n'] (helpers.map fun user => (user.source options).toList) := by
  rw [sources, String.toList_intercalate, List.map_map]
  rfl

/-- Texts of functions, with an empty line between them, have the text of a function as often as
it is one of them. -/
theorem occurrences_sources {helpers : List Helper} (h : helpers ≠ []) (rest : List Char) :
    occurrences (helper.source options).toList
        ((sources options helpers).toList ++ '\n' :: '\n' :: rest)
      = helpers.count helper + occurrences (helper.source options).toList rest := by
  induction helpers with
  | nil => exact absurd rfl h
  | cons user users ih =>
      have hone := occurrences_source options helper user
      cases users with
      | nil =>
          rw [toList_sources, List.map_singleton, List.intercalate_singleton, hone,
            List.count_singleton]
          simp only [beq_iff_eq]
      | cons next users =>
          have hcons : (sources options (user :: next :: users)).toList
              = (user.source options).toList ++ '\n' :: '\n' ::
                (sources options (next :: users)).toList := by
            rw [toList_sources, toList_sources, List.map_cons, List.map_cons,
              List.intercalate_cons_cons, List.append_assoc]
            rfl
          have hcount : (user :: next :: users).count helper
              = (next :: users).count helper + if user = helper then 1 else 0 := by
            rw [List.count_cons]
            simp only [beq_iff_eq]
          rw [hcons, List.append_assoc, List.cons_append, List.cons_append, hone,
            ih (List.cons_ne_nil next users), hcount]
          omega

end Helper

/-- The text of a module in front of the texts of functions, without its line end. -/
def openingLine : List Char :=
  "module.exports = (function () \x7b".toList

/-- The lines between these texts and the one that has the body. -/
def renderLines : List Char :=
  "\treturn \x7b\n\t\trender: function (data) \x7b".toList

/-- The line that has the first part of the body, up to the end of its last part. -/
def bodyLines (tree : Tree) (options : Options) : List Char :=
  "\t\t\treturn [].concat(".toList
    ++ (bodyText (tree.fragments options) ++ (wrapperEnd tree.target).toList)

/-- The lines behind the body. -/
def closingLines : List Char :=
  "\t\t\x7d\n\t\x7d;\n\x7d());".toList

theorem code_eq_lines (tree : Tree) (options : Options) :
    (tree.unit options).code.toList
      = openingLine ++ '\n' :: ((Helper.sources options (tree.unit options).helpers).toList
        ++ '\n' :: '\n' :: (renderLines ++ '\n' :: (bodyLines tree options ++ '\n' ::
          (closingLines ++ ['\n'])))) := by
  -- The texts are kept as variables, so that no step looks into their characters.
  have hlists {start opening sources middle render head lines call body tail behind closing :
      List Char} (hstart : start = opening ++ ['\n'])
      (hmiddle : middle ++ head = '\n' :: '\n' :: (render ++ '\n' :: call))
      (hend : tail ++ behind = lines ++ '\n' :: (closing ++ ['\n'])) :
      start ++ (sources ++ (middle ++ ((head ++ (body ++ tail)) ++ behind)))
        = opening ++ '\n' :: (sources ++ '\n' :: '\n' ::
          (render ++ '\n' :: ((call ++ (body ++ lines)) ++ '\n' :: (closing ++ ['\n'])))) := by
    calc start ++ (sources ++ (middle ++ ((head ++ (body ++ tail)) ++ behind)))
      _ = start ++ (sources ++ ((middle ++ head) ++ (body ++ (tail ++ behind)))) := by
          simp only [List.append_assoc]
      _ = _ := by
          rw [hstart, hmiddle, hend]
          simp
  have hclosing : "\n\t\t\x7d".toList ++ moduleEnd = '\n' :: (closingLines ++ ['\n']) := by
    decide +kernel
  refine (code_eq tree options).trans (hlists (by decide +kernel) (by decide +kernel) ?_)
  exact (List.append_assoc ..).trans (congrArg _ hclosing)

/-- No line of a module declares a function, but for the lines of the functions that the module
brings along. -/
theorem lines_declare_nothing (tree : Tree) (options : Options) (helper : Helper) :
    ∀ lines ∈ [openingLine, renderLines, bodyLines tree options, closingLines],
      ¬ helper.declaration ++ ['\n'] <:+: lines ++ ['\n'] := by
  have hfixed : ∀ lines ∈ [openingLine, renderLines, closingLines],
      occurrences (helper.declaration ++ ['\n']) (lines ++ ['\n']) = 0 := by
    cases helper <;> decide +kernel
  -- The lines of the body are put together from what the wrapper starts, what the template gives,
  -- and what the wrapper ends.
  have hbody : EndsOtherwise helper.declaration (bodyText (tree.fragments options)) :=
    endsOtherwise_bodyText helper (emitNodes_laid _ tree.target.output 0 tree.nodes)
  have hend : EndsOtherwise helper.declaration ((wrapperEnd tree.target).toList ++ ['\n']) :=
    endsOtherwise_line (by cases tree.target <;> decide)
      (by cases tree.target <;> cases helper <;> decide)
      (by cases tree.target <;> cases helper <;> decide)
  have hstart : EndsOtherwise helper.declaration "\t\t\treturn [].concat(".toList :=
    endsOtherwise_of_not_mem (by decide)
  have hbodyLines : ¬ helper.declaration ++ ['\n'] <:+: bodyLines tree options ++ ['\n'] := by
    have hlines := (hstart.append (hbody.append hend)).not_within
    rwa [← List.append_assoc (bodyText _), ← List.append_assoc "\t\t\treturn [].concat(".toList]
      at hlines
  simp only [List.forall_mem_cons, ← occurrences_eq_zero_iff] at hfixed hbodyLines ⊢
  exact ⟨hfixed.1, hfixed.2.1, hbodyLines, hfixed.2.2⟩

/-- The text of a function stands in a module as often as the function is among those that the
module brings along. -/
theorem occurrences_code (tree : Tree) (options : Options) (helper : Helper) :
    occurrences (helper.source options).toList (tree.unit options).code.toList
      = (tree.unit options).helpers.count helper := by
  obtain ⟨hopening, hrender, hbody, hclosing, -⟩ := by
    simpa only [List.forall_mem_cons] using lines_declare_nothing tree options helper
  have hsome : (tree.unit options).helpers ≠ [] := by
    have hselect (usesBlock : Bool) : Helper.select usesBlock ≠ [] := by
      cases usesBlock <;> decide
    exact hselect _
  have hnothing : occurrences (helper.source options).toList [] = 0 := by
    obtain ⟨more, hmore⟩ := helper.exists_source_eq options
    rw [occurrences_eq_zero_iff, List.infix_nil, hmore]
    exact List.append_ne_nil_of_right_ne_nil _ (List.cons_ne_nil _ _)
  rw [code_eq_lines, helper.occurrences_append options hopening,
    helper.occurrences_sources options hsome, helper.occurrences_append options hrender,
    helper.occurrences_append options hbody, helper.occurrences_append options hclosing, hnothing,
    Nat.add_zero]

end Mustache
