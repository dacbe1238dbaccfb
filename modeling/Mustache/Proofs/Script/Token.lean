import Mathlib.Data.List.Basic
import Mathlib.Tactic.Common
import Mustache.Script.Lexeme
import Mustache.Script.Piece
import Mustache.Text.Digits

/-!
The tokens of generated code.

`tokens?` cuts script text into tokens and gives each string literal the text
that it stands for, by the rules for single and double quotes. It reads the part
of the language that generated modules are written in and refuses the rest:
comments, regular expressions and templates, numerals of more than one digit,
escapes that name a character by its number, and a line that ends right after a
word, where a semicolon may be put in. So wherever it gives tokens they are the
ones that any reader of scripts finds.

The main statement is `tokens?_literal`: a quoted literal is one token, that token
stands for the text that was quoted, and what follows is read as if the literal
had not been there.
-/
set_option autoImplicit false

namespace Mustache.Script

open Text

/-! ## Strings -/

/-- The character that an escape stands for, from the one behind the backslash.
Escapes by number and escaped line ends have none. -/
def escapedChar? (c : Char) : Option Char :=
  if c = 'n' then some '\n'
  else if c = 'r' then some '\r'
  else if c = 't' then some '\t'
  else if c = 'b' then some '\x08'
  else if c = 'v' then some '\x0B'
  else if c = 'f' then some '\x0C'
  else if c = 'x' ∨ c = 'u' ∨ c.isDigit ∨ endsLine c then none
  else some c

/-- Reads a string from behind its opening quote: the text that it stands for, and
what follows its closing quote. `escaped` holds right behind a backslash. -/
def readQuoted? (quote : Char) : (escaped : Bool) → List Char → Option (List Char × List Char)
  | _, [] => none
  | true, c :: s => do
      let a ← escapedChar? c
      let (text, rest) ← readQuoted? quote false s
      some (a :: text, rest)
  | false, c :: s =>
      if c = quote then some ([], s)
      else if c = '\n' ∨ c = '\r' then none
      else if c = '\\' then readQuoted? quote true s
      else do
        let (text, rest) ← readQuoted? quote false s
        some (c :: text, rest)

/-- Replacing the four characters one after another is encoding (`escape_js_string`): the
backslash comes first, since the others write one, and none finds anything in what an earlier
one wrote. -/
theorem replacements_eq_encode (s : List Char) :
    (((s.flatMap fun d => if d = '\\' then ['\\', '\\'] else [d]).flatMap
      fun d => if d = '\'' then ['\\', '\''] else [d]).flatMap
      fun d => if d = '\n' then ['\\', 'n'] else [d]).flatMap
      (fun d => if d = '\r' then ['\\', 'r'] else [d]) = Quoted.encode s := by
  rw [List.flatMap_assoc, List.flatMap_assoc, List.flatMap_assoc]
  refine List.flatMap_congr fun c _ => ?_
  rw [Quoted.encodeChar]
  split_ifs with hslash hquote hfeed hreturn
  · subst hslash
    rfl
  · subst hquote
    rfl
  · subst hfeed
    rfl
  · subst hreturn
    rfl
  · rw [List.flatMap_singleton, if_neg hquote, List.flatMap_singleton, if_neg hfeed,
      List.flatMap_singleton, if_neg hreturn]

theorem readQuoted?_encodeChar (c : Char) (s : List Char) :
    readQuoted? '\'' false (Quoted.encodeChar c ++ s)
      = (readQuoted? '\'' false s).bind fun (text, rest) => some (c :: text, rest) := by
  unfold Quoted.encodeChar
  split_ifs with hslash hquote hfeed hreturn
  · subst hslash; simp [readQuoted?, escapedChar?, endsLine]
  · subst hquote; simp [readQuoted?, escapedChar?, endsLine]
  · subst hfeed; simp [readQuoted?, escapedChar?]
  · subst hreturn; simp [readQuoted?, escapedChar?]
  · simp [readQuoted?, hslash, hquote, hfeed, hreturn]

/-- The text that was quoted is read back, whatever it holds and whatever
follows. -/
theorem readQuoted?_encode (text rest : List Char) :
    readQuoted? '\'' false (Quoted.encode text ++ '\'' :: rest) = some (text, rest) := by
  induction text with
  | nil => simp [readQuoted?]
  | cons c text ih =>
      rw [Quoted.encode_cons, List.append_assoc, readQuoted?_encodeChar, ih]
      rfl

/-- What follows a string is shorter than what it was read from. -/
theorem length_of_readQuoted {quote : Char} {escaped : Bool} {s text rest : List Char}
    (h : readQuoted? quote escaped s = some (text, rest)) : rest.length < s.length := by
  induction s generalizing escaped text rest with
  | nil => cases escaped <;> simp [readQuoted?] at h
  | cons c s ih =>
      have step {e : Bool} {a : Char}
          (h : (readQuoted? quote e s).bind (fun (t, r) => some (a :: t, r)) = some (text, rest)) :
          rest.length < (c :: s).length := by
        obtain ⟨⟨t, r⟩, hread, heq⟩ := Option.bind_eq_some_iff.mp h
        simp only [Option.some.injEq, Prod.mk.injEq] at heq
        have hshort := ih hread
        rw [← heq.2, List.length_cons]
        omega
      -- Behind a backslash any character is taken; else the quote ends the text, and a backslash
      -- takes nothing yet.
      cases escaped with
      | true =>
          obtain ⟨a, -, hread⟩ := Option.bind_eq_some_iff.mp h
          exact step hread
      | false =>
          simp only [readQuoted?] at h
          split_ifs at h with hquote hline hslash
          · simp only [Option.some.injEq, Prod.mk.injEq] at h
            rw [← h.2, List.length_cons]
            omega
          · have hshort := ih h
            rw [List.length_cons]
            omega
          · exact step h

/-! ## Words and numerals -/

/-- Whether a character may stand in a word or a numeral. -/
def isWordChar (c : Char) : Bool :=
  c.isAlphanum || c == '_' || c == '$'

/-- Whether nothing but blanks stand before the end of the line. -/
def lineEndsHere : List Char → Bool
  | [] => false
  | c :: s => endsLine c || (isLineBlank c && lineEndsHere s)

/-- Whether a word that was read ends before a text, and the line goes on. -/
def stopsWord (s : List Char) : Bool :=
  !(s.head?.any isWordChar) && !lineEndsHere s

/-- Whether a name can be written as a word. -/
def isWord (name : String) : Bool :=
  name.toList.all isWordChar && name.toList.head?.any fun c => !c.isDigit

/-! ## Tokens -/

/-- A token of generated code. -/
inductive Token where
  /-- A name or a keyword. -/
  | word (name : String)
  | number (value : Nat)
  /-- A string literal, with the text that it stands for. -/
  | text (value : String)
  /-- Punctuation. -/
  | mark (spelling : String)
  deriving DecidableEq, Repr

/-- Reads a word or a numeral of one digit. -/
def readWord? (s : List Char) : Option (Token × List Char) :=
  let run := s.takeWhile isWordChar
  let rest := s.dropWhile isWordChar
  if lineEndsHere rest then none
  else match run with
    | [] => none
    | c :: more =>
        if c.isDigit then
          if more = [] ∧ rest.head? ≠ some '.' then some (.number (digitValue c), rest) else none
        else some (.word (String.ofList run), rest)

/-- Reads the token that a text starts with. A slash, a less-than sign and a minus
sign may begin a comment and are refused. -/
def readToken? : List Char → Option (Token × List Char)
  | [] => none
  | c :: s =>
      if c = '\'' ∨ c = '"' then
        (readQuoted? c false s).map fun (text, rest) => (.text (String.ofList text), rest)
      else if isWordChar c then readWord? (c :: s)
      else if c = '/' ∨ c = '<' ∨ c = '-' then none
      else (readPunctuation? (c :: s)).map fun (mark, rest) => (.mark mark, rest)

/-- Every punctuation mark takes a character. -/
theorem length_pos_of_mem_punctuation : ∀ mark ∈ punctuation, 0 < mark.length := by
  decide

/-- What follows a token is shorter than what it was read from. -/
theorem length_of_readToken {s rest : List Char} {t : Token}
    (h : readToken? s = some (t, rest)) : rest.length < s.length := by
  cases s with
  | nil => simp [readToken?] at h
  | cons c s =>
      simp only [readToken?] at h
      split_ifs at h with hquote hword hrefused
      · obtain ⟨⟨text, rest'⟩, hread, heq⟩ := Option.map_eq_some_iff.mp h
        have hshort := length_of_readQuoted hread
        simp only [Prod.mk.injEq] at heq
        rw [← heq.2, List.length_cons]
        omega
      · -- The first character is one of the word, so that at least it is taken.
        have hdrop : ((c :: s).dropWhile isWordChar).length < (c :: s).length := by
          rw [List.dropWhile_cons_of_pos hword, List.length_cons]
          have := (List.dropWhile_suffix isWordChar : s.dropWhile isWordChar <:+ s).length_le
          omega
        have hrest : rest = (c :: s).dropWhile isWordChar := by
          simp only [readWord?] at h
          grind
        rw [hrest]
        exact hdrop
      · obtain ⟨⟨mark, rest'⟩, hread, heq⟩ := Option.map_eq_some_iff.mp h
        obtain ⟨mark', hfind, heq'⟩ := Option.map_eq_some_iff.mp hread
        have hpos := length_pos_of_mem_punctuation mark' (List.mem_of_find?_eq_some hfind)
        simp only [Prod.mk.injEq] at heq heq'
        rw [← heq.2, ← heq'.2, List.length_drop, List.length_cons]
        omega

/-- A text from its first character on that is no blank and ends no line. -/
def dropBlanks (s : List Char) : List Char :=
  s.dropWhile fun c => isLineBlank c || endsLine c

/-- The tokens of a text, in order; nothing if it holds what is refused. -/
def tokens? (s : List Char) : Option (List Token) :=
  match _h : readToken? (dropBlanks s) with
  | some (t, rest) => (tokens? rest).map (t :: ·)
  | none => if dropBlanks s = [] then some [] else none
termination_by s.length
decreasing_by
  have hshort := length_of_readToken _h
  have hdrop : (dropBlanks s).length ≤ s.length := (List.dropWhile_suffix _).length_le
  omega

/-! ## Reading a text from its start -/

/-- A text is read as its first token and the tokens of what follows. -/
theorem tokens?_of_readToken {s rest : List Char} {t : Token} {ts : List Token}
    (hread : readToken? (dropBlanks s) = some (t, rest)) (h : tokens? rest = some ts) :
    tokens? s = some (t :: ts) := by
  rw [tokens?]
  split
  · next heq =>
      rw [hread] at heq
      cases heq
      rw [h]
      rfl
  · next heq =>
      rw [hread] at heq
      cases heq

/-- Nothing is read from the empty text. -/
theorem tokens?_nil : tokens? [] = some [] := by
  rw [tokens?]
  rfl

/-- Blanks in front of a text are skipped. -/
theorem tokens?_blank {c : Char} {s : List Char} {ts : List Token}
    (hc : (isLineBlank c || endsLine c) = true) (h : tokens? s = some ts) :
    tokens? (c :: s) = some ts := by
  have hdrop : dropBlanks (c :: s) = dropBlanks s := List.dropWhile_cons_of_pos hc
  rw [tokens?, hdrop]
  rw [tokens?] at h
  exact h

theorem toNat_lt_of_isWordChar {c : Char} (h : isWordChar c = true) : c.toNat < 0x80 := by
  rw [isWordChar] at h
  delta Char.isAlphanum Char.isAlpha Char.isUpper Char.isLower Char.isDigit at h
  simp only [Bool.or_eq_true, Bool.and_eq_true, decide_eq_true_eq, beq_iff_eq, ge_iff_le,
    UInt32.le_iff_toNat_le, Char.toNat_val] at h
  rcases h with (((h | h) | h) | rfl) | rfl
  · exact Nat.lt_of_le_of_lt h.2 (by decide)
  · exact Nat.lt_of_le_of_lt h.2 (by decide)
  · exact Nat.lt_of_le_of_lt h.2 (by decide)
  · decide
  · decide

theorem isBlank_eq_false_of_isWordChar {c : Char} (h : isWordChar c = true) :
    (isLineBlank c || endsLine c) = false := by
  have hlow := toNat_lt_of_isWordChar h
  -- The range of blanks lies outside ASCII, and the other blanks are few.
  have hrange : ('\u2000' ≤ c && c ≤ '\u200B') = false := by
    have hnot : ¬ '\u2000' ≤ c := fun hle => by
      have hnat : 0x2000 ≤ c.toNat := hle
      omega
    rw [decide_eq_false hnot, Bool.false_and]
  rw [isLineBlank, endsLine, hrange, Bool.or_false]
  by_contra hblank
  simp only [Bool.or_eq_true, List.contains_eq_mem, decide_eq_true_eq, beq_iff_eq,
    List.mem_cons, List.not_mem_nil, or_false, Bool.not_eq_false] at hblank
  -- Each blank of the tables is no character of a word.
  rcases hblank with hblank | hblank
  · rcases hblank with rfl | rfl | rfl | rfl | rfl | rfl | rfl | rfl | rfl | rfl | rfl | rfl <;>
      revert h <;> decide
  · rcases hblank with ((rfl | rfl) | rfl) | rfl <;> revert h <;> decide

/-! ## Tokens at the start of a text -/

/-- A punctuation mark is read, unless it goes on to a longer one. -/
theorem tokens?_mark (mark : String) {s : List Char} {ts : List Token}
    (hread : readToken? (dropBlanks (mark.toList ++ s)) = some (.mark mark, s))
    (h : tokens? s = some ts) : tokens? (mark.toList ++ s) = some (.mark mark :: ts) :=
  tokens?_of_readToken hread h

theorem takeWhile_isWordChar {run s : List Char} (hrun : run.all isWordChar = true)
    (hstop : stopsWord s = true) : (run ++ s).takeWhile isWordChar = run := by
  rw [List.takeWhile_append_of_pos (List.all_eq_true.mp hrun)]
  cases s with
  | nil => simp
  | cons c s =>
      have hc : isWordChar c = false := by
        simp only [stopsWord, List.head?_cons, Option.any_some, Bool.and_eq_true,
          Bool.not_eq_true'] at hstop
        exact hstop.1
      simp [hc]

theorem dropWhile_isWordChar {run s : List Char} (hrun : run.all isWordChar = true)
    (hstop : stopsWord s = true) : (run ++ s).dropWhile isWordChar = s := by
  have hsplit := List.takeWhile_append_dropWhile (p := isWordChar) (l := run ++ s)
  rw [takeWhile_isWordChar hrun hstop] at hsplit
  exact List.append_cancel_left hsplit

/-- A word is read where it ends. -/
theorem tokens?_word (name : String) {s : List Char} {ts : List Token}
    (hname : isWord name = true) (hstop : stopsWord s = true) (h : tokens? s = some ts) :
    tokens? (name.toList ++ s) = some (.word name :: ts) := by
  obtain ⟨hall, hhead⟩ := Bool.and_eq_true_iff.mp hname
  have htake := takeWhile_isWordChar hall hstop
  have hdrop := dropWhile_isWordChar hall hstop
  cases hlist : name.toList with
  | nil => simp [hlist] at hhead
  | cons c more =>
      rw [hlist] at hall hhead htake hdrop
      have hc : isWordChar c = true := by simp_all
      -- A digit in front would make the run a numeral.
      have hdigit : c.isDigit = false := by simpa using hhead
      have hline : lineEndsHere s = false := by simp_all [stopsWord]
      have hquote : ¬ (c = '\'' ∨ c = '"') := by
        rintro (rfl | rfl) <;> revert hc <;> decide
      refine tokens?_of_readToken ?_ h
      rw [dropBlanks, List.cons_append,
        List.dropWhile_cons_of_neg (by simp [isBlank_eq_false_of_isWordChar hc])]
      rw [List.cons_append] at htake hdrop
      rw [readToken?, if_neg hquote, if_pos hc, readWord?, htake, hdrop]
      simp only [hline, hdigit, Bool.false_eq_true, if_false, ← hlist, String.ofList_toList]

/-- A numeral of one digit is read where it ends. -/
theorem tokens?_number {n : Nat} {s : List Char} {ts : List Token} (hn : n < 10)
    (hstop : stopsWord s = true) (hpoint : s.head? ≠ some '.') (h : tokens? s = some ts) :
    tokens? (decimal n ++ s) = some (.number n :: ts) := by
  have hdigits : ∀ d < 10, isWordChar (digitChar d) = true ∧ (digitChar d).isDigit = true
      ∧ digitValue (digitChar d) = d ∧ ¬ (digitChar d = '\'' ∨ digitChar d = '"') := by
    decide
  obtain ⟨hword, hisDigit, hvalue, hquote⟩ := hdigits n hn
  have hline : lineEndsHere s = false := by simp_all [stopsWord]
  have hrun : [digitChar n].all isWordChar = true := by simp [hword]
  have htake := takeWhile_isWordChar hrun hstop
  have hdrop := dropWhile_isWordChar hrun hstop
  rw [List.cons_append, List.nil_append] at htake hdrop
  refine tokens?_of_readToken ?_ h
  rw [decimal, if_pos hn, dropBlanks, List.cons_append, List.nil_append,
    List.dropWhile_cons_of_neg (by simp [isBlank_eq_false_of_isWordChar hword]),
    readToken?, if_neg hquote, if_pos hword, readWord?, htake, hdrop]
  simp [hline, hisDigit, hvalue, hpoint]

theorem tokens?_literal (text : List Char) {s : List Char} {ts : List Token}
    (h : tokens? s = some ts) :
    tokens? (Quoted.literal text ++ s) = some (.text (String.ofList text) :: ts) := by
  refine tokens?_of_readToken ?_ h
  have hdrop : dropBlanks (Quoted.literal text ++ s) = Quoted.literal text ++ s := rfl
  rw [hdrop]
  simp [readToken?, Quoted.literal, readQuoted?_encode]

end Mustache.Script
