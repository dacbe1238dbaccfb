import Mathlib.Data.List.Forall2
import Mustache.Proofs.Script.Layout

/-!
Cutting the text of an expression into tokens.

The main statement is `isCut_of_laid`: the text of an expression whose parts stand
where they may is cut into the tokens of its nests, whatever its literals hold and
whatever follows it. The induction is over the expression; what it carries is that
each part is cut wherever the next character closes it.
-/
set_option autoImplicit false

namespace Mustache.Script

open Text

/-! ## What may follow an expression -/

/-- Whether what stands in front of a text ends there, whatever it is. -/
def Closes (s : List Char) : Prop :=
  stopsWord s = true ∧ s.head? ≠ some '.'

/-- Whether an expression ends before a text. -/
def Precedes (e : Expr) (s : List Char) : Prop :=
  stopsWord s = true ∧ (s.head? = some '.' → e.looseness = 0 ∧ e.isNumber = false)

theorem Closes.precedes {s : List Char} (h : Closes s) (e : Expr) : Precedes e s :=
  ⟨h.1, fun hpoint => absurd hpoint h.2⟩

/-- Only what nothing can come between is followed by a point. -/
theorem Precedes.closes {e : Expr} {s : List Char} (h : Precedes e s) (he : 0 < e.looseness) :
    Closes s := by
  refine ⟨h.1, fun hpoint => ?_⟩
  have := (h.2 hpoint).1
  omega

/-- Summands are set off from what stands in front of them. -/
theorem closes_summands (rest : List (Bool × Expr)) {s : List Char} (h : Closes s) :
    Closes (text (piecesOfSummands rest) ++ s) := by
  cases rest with
  | nil => exact h
  | cons summand rest =>
      obtain ⟨spaced, e⟩ := summand
      cases spaced <;> exact ⟨rfl, by simp [piecesOfSummands]⟩

/-! ## Lists with commas -/

/-- Whether pieces are cut into the tokens of nests wherever they are closed. -/
def ReadsAs (ps : List Piece) (ns : List Nest) : Prop :=
  ∀ s ts, Closes s → tokens? s = some ts → tokens? (text ps ++ s) = some (tokensOf ns ++ ts)

theorem readsAs_commaSeparated {pss : List (List Piece)} {nss : List (List Nest)}
    (h : List.Forall₂ ReadsAs pss nss) : ReadsAs (commaSeparated pss) (commaNests nss) := by
  induction h with
  | nil => exact fun s ts _ hs => hs
  | @cons ps ns pss nss hfirst hrest ih =>
      intro s ts hclose hs
      cases hrest with
      | nil => exact hfirst s ts hclose hs
      | @cons ps' ns' pss nss hnext hrest =>
          have hmore := ih s ts hclose hs
          simp only [commaSeparated, commaNests, text_append, text_code, List.append_assoc,
            tokensOf_append, tokensOf, Nest.tokens] at hmore ⊢
          refine hfirst _ _ ⟨rfl, by simp⟩ ?_
          exact tokens?_mark "," rfl (tokens?_blank rfl hmore)

/-- A word is cut out where it is closed. -/
theorem readsAs_word {name : String} (h : isWord name = true) :
    ReadsAs (code name) [.token (.word name)] := by
  intro s ts hclose hs
  rw [text_code]
  exact tokens?_word name h hclose.1 hs

/-- The head of a function is cut into its keyword and its parameters. -/
theorem tokens?_parameters {parameters : List String} (h : parameters.all isName = true)
    {s : List Char} {ts : List Token} (hs : tokens? s = some ts) :
    tokens? (text (parameterPieces parameters) ++ s)
      = some (tokensOf (parameterNests parameters) ++ .mark "\x7b" :: ts) := by
  have hwords : List.Forall₂ ReadsAs (parameters.map code)
      (parameters.map fun p => [.token (.word p)]) := by
    rw [List.forall₂_map_left_iff, List.forall₂_map_right_iff, List.forall₂_same]
    intro p hp
    exact readsAs_word (Bool.and_eq_true_iff.mp (List.all_eq_true.mp h p hp)).1
  simp only [parameterPieces, parameterNests, text_append, text_code, List.append_assoc,
    tokensOf, Nest.tokens, List.cons_append, List.nil_append, Bracket.opening, Bracket.closing]
  refine tokens?_word "function" rfl rfl (tokens?_blank rfl (tokens?_mark "(" rfl ?_))
  refine readsAs_commaSeparated hwords _ _ ⟨rfl, by simp⟩ ?_
  exact tokens?_mark ")" rfl (tokens?_blank rfl (tokens?_mark "\x7b" rfl hs))

/-! ## Expressions -/

/-- Whether an expression is cut into the tokens of its nests wherever it may end. -/
def Expr.IsCut (e : Expr) : Prop :=
  ∀ s ts, Precedes e s → tokens? s = some ts →
    tokens? (Script.text e.pieces ++ s) = some (tokensOf e.nests ++ ts)

theorem Expr.IsCut.readsAs {e : Expr} (h : e.IsCut) : ReadsAs e.pieces e.nests :=
  fun s ts hclose hs => h s ts (hclose.precedes e) hs

theorem tokens?_operator (mark : String) {left right : Expr} (hleft : left.IsCut)
    (hright : right.IsCut) {s : List Char} {ts : List Token} (hclose : Closes s)
    (hs : tokens? s = some ts)
    (hread : ∀ r, readToken? (dropBlanks (mark.toList ++ ' ' :: r)) = some (.mark mark, ' ' :: r))
    (hset : ∀ r, Closes (' ' :: (mark.toList ++ ' ' :: r))) :
    tokens? (text left.pieces ++ ' ' :: (mark.toList ++ ' ' :: (text right.pieces ++ s)))
      = some (tokensOf left.nests ++ .mark mark :: (tokensOf right.nests ++ ts)) := by
  refine hleft.readsAs _ _ (hset _) (tokens?_blank rfl ?_)
  refine tokens?_mark mark (hread _) (tokens?_blank rfl ?_)
  exact hright.readsAs s ts hclose hs

/-- Two operands with an operator between them are cut if each of them is. -/
theorem isCut_binary (operator : BinaryOperator) {left right : Expr} (hleft : left.IsCut)
    (hright : right.IsCut) : (Expr.binary operator left right).IsCut := by
  intro s ts hs hts
  have hloose : 0 < operator.looseness := by cases operator <;> decide
  have hcut := tokens?_operator operator.mark hleft hright (hs.closes hloose) hts
    (fun r => by cases operator <;> rfl) (fun r => by cases operator <;> exact ⟨rfl, by simp⟩)
  simp only [Expr.pieces, Expr.nests, text_append, text_code, List.append_assoc,
    tokensOf_append, tokensOf, Nest.tokens, List.cons_append, List.nil_append]
  exact hcut

/-- A sign in front of an operand is no part of a longer mark. -/
theorem tokens?_sign (mark : String) {s : List Char} {ts : List Token}
    (hmark : mark = "!" ∨ mark = "+") (hstart : startsOperand s = true)
    (hs : tokens? s = some ts) : tokens? (mark.toList ++ s) = some (.mark mark :: ts) := by
  cases s with
  | nil => simp [startsOperand] at hstart
  | cons c s =>
      have hc : opensOperand c = true := by simpa [startsOperand] using hstart
      -- These two would go on to a longer mark, and start no operand.
      have hequals : '=' ≠ c := by rintro rfl; revert hc; decide
      have hplus : '+' ≠ c := by rintro rfl; revert hc; decide
      refine tokens?_mark mark ?_ hs
      rcases hmark with rfl | rfl
      · have hdrop : dropBlanks ("!".toList ++ c :: s) = '!' :: c :: s := rfl
        have hlength : "!".length = 1 := rfl
        rw [hdrop]
        simp [readToken?, isWordChar, readPunctuation?, punctuation, List.isPrefixOf, hequals,
          hlength]
      · have hdrop : dropBlanks ("+".toList ++ c :: s) = '+' :: c :: s := rfl
        have hlength : "+".length = 1 := rfl
        rw [hdrop]
        simp [readToken?, isWordChar, readPunctuation?, punctuation, List.isPrefixOf, hequals,
          hplus, hlength]

/-! ## Parts of expressions -/

/-- A point in front of a name is cut out. -/
theorem tokens?_point {name : String} (hname : isWord name = true) {s : List Char}
    {ts : List Token} (hs : tokens? (name.toList ++ s) = some ts) :
    tokens? (".".toList ++ (name.toList ++ s)) = some (.mark "." :: ts) := by
  obtain ⟨hall, hhead⟩ := Bool.and_eq_true_iff.mp hname
  cases hlist : name.toList with
  | nil => simp [hlist] at hhead
  | cons c more =>
      have hc : isWordChar c = true := by simp_all
      have hpoint : '.' ≠ c := by rintro rfl; revert hc; decide
      rw [hlist] at hs
      refine tokens?_mark "." ?_ hs
      have hdrop : dropBlanks (".".toList ++ (c :: more ++ s)) = '.' :: c :: (more ++ s) := rfl
      have hlength : ".".length = 1 := rfl
      rw [hdrop]
      simp [readToken?, isWordChar, readPunctuation?, punctuation, List.isPrefixOf, hpoint,
        hlength]

/-- What stands between brackets is cut on its own. -/
theorem tokens?_group (b : Bracket) {ps : List Piece} {ns : List Nest} (h : ReadsAs ps ns)
    {s : List Char} {ts : List Token} (hs : tokens? s = some ts) :
    tokens? (b.opening.toList ++ (text ps ++ (b.closing.toList ++ s)))
      = some (.mark b.opening :: (tokensOf ns ++ .mark b.closing :: ts)) := by
  have hclose : Closes (b.closing.toList ++ s) := by
    cases b <;> exact ⟨rfl, by simp [Bracket.closing]⟩
  have hread (mark : String) (hmark : mark = b.opening ∨ mark = b.closing) (r : List Char) :
      readToken? (dropBlanks (mark.toList ++ r)) = some (.mark mark, r) := by
    rcases hmark with rfl | rfl <;> cases b <;> rfl
  refine tokens?_mark b.opening (hread _ (.inl rfl) _) (h _ _ hclose ?_)
  exact tokens?_mark b.closing (hread _ (.inr rfl) s) hs

/-- A statement that returns a value is cut into its keyword, the value and its end. -/
theorem tokens?_return {e : Expr} (hlaid : e.Laid) (h : e.IsCut) {s : List Char}
    {ts : List Token} (hs : tokens? s = some ts) :
    tokens? ("return".toList ++ ' ' :: (text e.pieces ++ (";".toList ++ s)))
      = some (.word "return" :: (tokensOf e.nests ++ .mark ";" :: ts)) := by
  have hstop := stopsWord_blank (startsOperand_pieces e hlaid (";".toList ++ s))
  refine tokens?_word "return" rfl hstop (tokens?_blank rfl ?_)
  exact h.readsAs _ _ ⟨rfl, by simp⟩ (tokens?_mark ";" rfl hs)

theorem tokens?_bind {name : String} (hname : isWord name = true) {e : Expr} (h : e.IsCut)
    {s : List Char} {ts : List Token} (hs : tokens? s = some ts) :
    tokens? ("var".toList ++ ' ' :: (name.toList
        ++ ' ' :: ("=".toList ++ ' ' :: (text e.pieces ++ (";".toList ++ s)))))
      = some (.word "var" :: .word name :: .mark "=" :: (tokensOf e.nests ++ .mark ";" :: ts)) := by
  have hstop := stopsWord_blank (startsOperand_word hname
    (' ' :: ("=".toList ++ ' ' :: (text e.pieces ++ (";".toList ++ s)))))
  refine tokens?_word "var" rfl hstop (tokens?_blank rfl ?_)
  refine tokens?_word name hname rfl (tokens?_blank rfl ?_)
  refine tokens?_mark "=" rfl (tokens?_blank rfl ?_)
  exact h.readsAs _ _ ⟨rfl, by simp⟩ (tokens?_mark ";" rfl hs)

/-- A numeral is written as its digits. -/
theorem text_decimal (n : Nat) : text ((decimal n).map .code) = decimal n := by
  simp [text, List.flatMap_map, Piece.text]

mutual

/-- The text of an expression whose parts stand where they may is cut into the
tokens of its nests. -/
theorem isCut_of_laid (e : Expr) (h : e.Laid) : e.IsCut := by
  intro s ts hs hts
  cases e with
  | text value =>
      have hread := tokens?_literal value.toList hts
      rw [String.ofList_toList] at hread
      simpa [Expr.pieces, Expr.nests, tokensOf, Nest.tokens, Piece.text] using hread
  | emptyText => exact tokens?_of_readToken rfl hts
  | yes => exact tokens?_word "true" rfl hs.1 hts
  | number n =>
      -- A point behind a numeral would be read as a part of it.
      rw [Expr.pieces, text_decimal]
      refine tokens?_number h hs.1 (fun hpoint => ?_) hts
      simpa [Expr.isNumber] using (hs.2 hpoint).2
  | var name =>
      rw [Expr.pieces, text_code]
      exact tokens?_word name (Bool.and_eq_true_iff.mp h).1 hs.1 hts
  | member object name =>
      obtain ⟨hobject, htight, hnumber, hname⟩ := h
      simp only [Expr.pieces, Expr.nests, text_append, text_code, List.append_assoc,
        tokensOf_append, tokensOf, Nest.tokens, List.cons_append, List.nil_append]
      -- The one case in which a point follows an expression.
      refine isCut_of_laid object hobject _ _ ⟨rfl, fun _ => ⟨htight, hnumber⟩⟩ ?_
      exact tokens?_point hname (tokens?_word name hname hs.1 hts)
  | apply function arguments =>
      obtain ⟨hfunction, -, harguments⟩ := h
      simp only [Expr.pieces, Expr.nests, text_append, text_code, List.append_assoc,
        tokensOf_append, tokensOf, Nest.tokens, List.cons_append, List.nil_append]
      refine (isCut_of_laid function hfunction).readsAs _ _ ⟨rfl, by simp⟩ ?_
      have hcommas := readsAs_commaSeparated (readsAs_of_allLaid arguments harguments)
      exact tokens?_group .round hcommas hts
  | list items =>
      simp only [Expr.pieces, Expr.nests, text_append, text_code, List.append_assoc,
        tokensOf, Nest.tokens, List.cons_append, List.nil_append]
      exact tokens?_group .square (readsAs_commaSeparated (readsAs_of_allLaid items h)) hts
  | record fields =>
      simp only [Expr.pieces, Expr.nests, text_append, text_code, List.append_assoc,
        tokensOf, Nest.tokens, List.cons_append, List.nil_append]
      exact tokens?_group .curly (readsAs_commaSeparated (readsAs_of_fieldsLaid fields h)) hts
  | sum first rest =>
      obtain ⟨hfirst, -, hrest⟩ := h
      have hclose := hs.closes (by simp [Expr.looseness])
      simp only [Expr.pieces, Expr.nests, text_append, List.append_assoc, tokensOf_append]
      refine (isCut_of_laid first hfirst).readsAs _ _ (closes_summands rest hclose) ?_
      exact tokens?_of_summandsLaid rest hrest s ts hclose hts
  | not operand =>
      have hclose := hs.closes (by simp [Expr.looseness])
      rw [Expr.pieces, Expr.nests, text_append, text_code, List.append_assoc]
      refine tokens?_sign "!" (.inl rfl) (startsOperand_pieces operand h.1 s) ?_
      exact (isCut_of_laid operand h.1).readsAs s ts hclose hts
  | typeOf operand =>
      have hclose := hs.closes (by simp [Expr.looseness])
      rw [Expr.pieces, Expr.nests, text_append, text_code, List.append_assoc]
      have hstop := stopsWord_blank (startsOperand_pieces operand h.1 s)
      refine tokens?_word "typeof" rfl hstop (tokens?_blank rfl ?_)
      exact (isCut_of_laid operand h.1).readsAs s ts hclose hts
  | binary operator left right =>
      exact isCut_binary operator (isCut_of_laid left h.1) (isCut_of_laid right h.2.1) s ts hs hts
  | choose test t f =>
      obtain ⟨⟨htest, ht, hf⟩, -⟩ := h
      have hclose := hs.closes (by simp [Expr.looseness])
      simp only [Expr.pieces, Expr.nests, text_append, text_code, List.append_assoc,
        tokensOf_append, tokensOf, Nest.tokens, List.cons_append, List.nil_append]
      refine (isCut_of_laid test htest).readsAs _ _ ⟨rfl, by simp⟩ (tokens?_blank rfl ?_)
      refine tokens?_mark "?" rfl (tokens?_blank rfl ?_)
      exact tokens?_operator ":" (isCut_of_laid t ht) (isCut_of_laid f hf) hclose hts
        (fun _ => rfl) fun _ => ⟨rfl, by simp⟩
  | paren inner =>
      simp only [Expr.pieces, Expr.nests, text_append, text_code, List.append_assoc,
        tokensOf, Nest.tokens, List.cons_append, List.nil_append]
      exact tokens?_group .round (isCut_of_laid inner h).readsAs hts
  | function parameters result =>
      obtain ⟨hparameters, hresult⟩ := h
      simp only [Expr.pieces, Expr.nests, text_append, text_code, List.append_assoc,
        tokensOf_append, tokensOf, Nest.tokens, List.cons_append, List.nil_append]
      refine tokens?_parameters hparameters (tokens?_blank rfl ?_)
      exact tokens?_return hresult (isCut_of_laid result hresult)
        (tokens?_blank rfl (tokens?_mark "\x7d" rfl hts))
  | closure parameters name value result =>
      obtain ⟨hparameters, hname, hvalue, hresult⟩ := h
      simp only [Expr.pieces, Expr.nests, text_append, text_code, List.append_assoc,
        tokensOf_append, tokensOf, Nest.tokens, List.cons_append, List.nil_append]
      refine tokens?_parameters hparameters (tokens?_blank rfl (tokens?_blank rfl ?_))
      refine tokens?_bind (Bool.and_eq_true_iff.mp hname).1 (isCut_of_laid value hvalue) ?_
      refine tokens?_blank rfl (tokens?_blank rfl ?_)
      exact tokens?_return hresult (isCut_of_laid result hresult)
        (tokens?_blank rfl (tokens?_mark "\x7d" rfl hts))

theorem readsAs_of_allLaid (es : List Expr) (h : AllLaid es) :
    List.Forall₂ ReadsAs (piecesOfList es) (nestsOfList es) := by
  cases es with
  | nil => exact .nil
  | cons e rest => exact .cons (isCut_of_laid e h.1).readsAs (readsAs_of_allLaid rest h.2)

theorem readsAs_of_fieldsLaid (fields : List (FieldName × Expr)) (h : FieldsLaid fields) :
    List.Forall₂ ReadsAs (piecesOfFields fields) (nestsOfFields fields) := by
  cases fields with
  | nil => exact .nil
  | cons field rest =>
      obtain ⟨name, e⟩ := field
      obtain ⟨⟨hname, he⟩, hrest⟩ := h
      refine .cons ?_ (readsAs_of_fieldsLaid rest hrest)
      intro s ts hclose hs
      have hvalue := (isCut_of_laid e he).readsAs s ts hclose hs
      cases name with
      | bare name =>
          simp only [FieldName.pieces, FieldName.nest, text_append, text_code, List.append_assoc,
            tokensOf, Nest.tokens, List.cons_append, List.nil_append]
          exact tokens?_word name hname rfl (tokens?_mark ":" rfl (tokens?_blank rfl hvalue))
      | quoted name =>
          have hcolon := tokens?_mark ":" rfl (tokens?_blank (c := ' ') rfl hvalue)
          have hread := tokens?_literal name.toList hcolon
          rw [String.ofList_toList] at hread
          simpa [FieldName.pieces, FieldName.nest, tokensOf, Nest.tokens, Piece.text] using hread

theorem tokens?_of_summandsLaid (rest : List (Bool × Expr)) (h : SummandsLaid rest)
    (s : List Char) (ts : List Token) (hclose : Closes s) (hs : tokens? s = some ts) :
    tokens? (text (piecesOfSummands rest) ++ s) = some (tokensOf (nestsOfSummands rest) ++ ts) := by
  cases rest with
  | nil => exact hs
  | cons summand rest =>
      obtain ⟨spaced, e⟩ := summand
      obtain ⟨⟨he, -⟩, hrest⟩ := h
      have hmore := (isCut_of_laid e he).readsAs _ _ (closes_summands rest hclose)
        (tokens?_of_summandsLaid rest hrest s ts hclose hs)
      simp only [piecesOfSummands, nestsOfSummands, text_append, text_code, List.append_assoc,
        tokensOf_append, tokensOf, Nest.tokens, List.cons_append, List.nil_append]
      cases spaced with
      -- Without blanks the sign must not run into the summand behind it.
      | false => exact tokens?_sign "+" (.inr rfl) (startsOperand_pieces e he _) hmore
      | true => exact tokens?_blank rfl (tokens?_mark "+" rfl (tokens?_blank rfl hmore))

end

/-! ## Brackets -/

/-- Nests with commas hold no bracket outside groups if they hold none. -/
theorem allPlain_commaNests {nss : List (List Nest)} (h : ∀ ns ∈ nss, allPlain ns = true) :
    allPlain (commaNests nss) = true := by
  induction nss with
  | nil => rfl
  | cons ns rest ih =>
      have hrest := ih fun ms hms => h ms (List.mem_cons_of_mem ns hms)
      have hfirst := h ns List.mem_cons_self
      cases rest with
      | nil => exact hfirst
      | cons next rest =>
          rw [commaNests, allPlain_append, hfirst, allPlain, hrest]
          rfl

/-- The head of a function holds no bracket outside groups. -/
theorem allPlain_parameterNests (parameters : List String) :
    allPlain (parameterNests parameters) = true := by
  have hwords : ∀ ns ∈ parameters.map (fun p => [Nest.token (.word p)]), allPlain ns = true := by
    simp [allPlain, Nest.isPlain]
  have hcommas := allPlain_commaNests hwords
  simp [parameterNests, allPlain, Nest.isPlain, hcommas]

mutual

/-- The nests of an expression hold no bracket outside groups. -/
theorem allPlain_nests (e : Expr) : allPlain e.nests = true := by
  cases e with
  | text _ | emptyText | yes | number _ | var _ => rfl
  | member object name =>
      rw [Expr.nests, allPlain_append, allPlain_nests object]
      rfl
  | apply function arguments =>
      rw [Expr.nests, allPlain_append, allPlain_nests function, allPlain, Nest.isPlain,
        allPlain_commaNests (allPlain_nestsOfList arguments)]
      rfl
  | list items =>
      rw [Expr.nests, allPlain, Nest.isPlain, allPlain_commaNests (allPlain_nestsOfList items)]
      rfl
  | record fields =>
      rw [Expr.nests, allPlain, Nest.isPlain, allPlain_commaNests (allPlain_nestsOfFields fields)]
      rfl
  | sum first rest =>
      rw [Expr.nests, allPlain_append, allPlain_nests first, allPlain_nestsOfSummands rest]
      rfl
  | not operand | typeOf operand =>
      rw [Expr.nests, allPlain, allPlain_nests operand]
      rfl
  | binary operator left right =>
      rw [Expr.nests, allPlain_append, allPlain_nests left, allPlain, allPlain_nests right]
      cases operator <;> rfl
  | choose test t f =>
      rw [Expr.nests, allPlain_append, allPlain_nests test, allPlain, allPlain_append,
        allPlain_nests t, allPlain, allPlain_nests f]
      rfl
  | paren inner =>
      rw [Expr.nests, allPlain, Nest.isPlain, allPlain_nests inner]
      rfl
  | function parameters result =>
      have hend : (Token.mark ";").isPlain = true := rfl
      simp [Expr.nests, allPlain, Nest.isPlain, allPlain_parameterNests, allPlain_nests result,
        hend]
  | closure parameters name value result =>
      have hequals : (Token.mark "=").isPlain = true := rfl
      have hend : (Token.mark ";").isPlain = true := rfl
      simp [Expr.nests, allPlain, Nest.isPlain, allPlain_parameterNests, allPlain_nests value,
        allPlain_nests result, hequals, hend]

theorem allPlain_nestsOfList (es : List Expr) : ∀ ns ∈ nestsOfList es, allPlain ns = true := by
  cases es with
  | nil => simp [nestsOfList]
  | cons e rest =>
      intro ns hns
      rcases List.mem_cons.mp hns with rfl | hns
      · exact allPlain_nests e
      · exact allPlain_nestsOfList rest ns hns

theorem allPlain_nestsOfFields (fields : List (FieldName × Expr)) :
    ∀ ns ∈ nestsOfFields fields, allPlain ns = true := by
  cases fields with
  | nil => simp [nestsOfFields]
  | cons field rest =>
      obtain ⟨name, e⟩ := field
      intro ns hns
      rcases List.mem_cons.mp hns with rfl | hns
      · rw [allPlain, allPlain, allPlain_nests e]
        cases name <;> rfl
      · exact allPlain_nestsOfFields rest ns hns

theorem allPlain_nestsOfSummands (rest : List (Bool × Expr)) :
    allPlain (nestsOfSummands rest) = true := by
  cases rest with
  | nil => rfl
  | cons summand rest =>
      obtain ⟨spaced, e⟩ := summand
      rw [nestsOfSummands, allPlain, allPlain_append, allPlain_nests e,
        allPlain_nestsOfSummands rest]
      rfl

end

end Mustache.Script
