import Mustache.Script.Letters
import Mustache.Text.Hexadecimal

/-!
The words and marks of a script.

`nextLexeme` reads one lexeme at a time, since a slash means one thing where an
operand is due and another where an operator is, and so does a template. It gives
nothing where no lexeme can be read: at a string, a comment or a template that is not
closed, at a number that runs into a name, at a character that scripts do not use.
-/
set_option autoImplicit false

namespace Mustache.Script

open Text

/-! ## Blanks and comments -/

def endsLine (c : Char) : Bool :=
  c == '\n' || c == '\r' || c == '\u2028' || c == '\u2029'

def isLineBlank (c : Char) : Bool :=
  [' ', '\t', '\x0B', '\x0C', '\u0085', '\u00A0', '\u1680', '\u180E', '\u202F', '\u205F',
    '\u3000', '\uFEFF'].contains c || ('\u2000' ≤ c && c ≤ '\u200B')

/-- Where the text between two lexemes stands. -/
inductive Between where
  | blanks
  | lineComment
  | blockComment
  deriving DecidableEq, Repr

/-- Skips blanks and comments, and tells whether a line ended; nothing if a comment
is not closed. An arrow to the right at the start of a line begins a comment. -/
def skipBlanks : Between → (lineEnded : Bool) → List Char → Option (Bool × List Char)
  | .blockComment, _, [] => none
  | _, ended, [] => some (ended, [])
  | .lineComment, ended, c :: s =>
      if endsLine c then skipBlanks .blanks true s else skipBlanks .lineComment ended s
  | .blockComment, ended, '*' :: '/' :: s => skipBlanks .blanks ended s
  | .blockComment, ended, c :: s => skipBlanks .blockComment (ended || endsLine c) s
  | .blanks, ended, '/' :: '/' :: s => skipBlanks .lineComment ended s
  | .blanks, ended, '/' :: '*' :: s => skipBlanks .blockComment ended s
  | .blanks, ended, '<' :: '!' :: '-' :: '-' :: s => skipBlanks .lineComment ended s
  | .blanks, true, '-' :: '-' :: '>' :: s => skipBlanks .lineComment true s
  | .blanks, ended, c :: s =>
      if endsLine c then skipBlanks .blanks true s
      else if isLineBlank c then skipBlanks .blanks ended s
      else some (ended, c :: s)

/-! ## Strings -/

/-- Reads the number of a character from behind the `u` that announces it: four
hexadecimal digits, or any number of them between braces. -/
def readCharacterNumber? : List Char → Option (Nat × List Char)
  | '{' :: s =>
      let digits := s.takeWhile isHexDigit
      match digits, s.drop digits.length with
      | _ :: _, '}' :: rest =>
          if hexValue digits ≤ 0x10FFFF then some (hexValue digits, rest) else none
      | _, _ => none
  | s => readHexQuad? s

/-- Whether an escape follows a backslash. -/
def isEscape : List Char → Bool
  | 'x' :: a :: b :: _ => isHexDigit a && isHexDigit b
  | 'x' :: _ => false
  | 'u' :: s => (readCharacterNumber? s).isSome
  | s => !s.isEmpty

/-- Reads a string from behind its opening quote: what it holds, with its escapes as
they are written, and the rest. `inside` is what was read so far, the latest character
first. An escape is taken up to its first character, since the digits and braces behind
that may stand in a string anyway. -/
def readString? (quote : Char) (inside : List Char) : List Char → Option (String × List Char)
  | '\\' :: '\r' :: '\n' :: s => readString? quote inside s
  | '\\' :: c :: s =>
      if isEscape (c :: s) then readString? quote (c :: '\\' :: inside) s else none
  | c :: s =>
      if c = quote then some (String.ofList inside.reverse, s)
      else if c = '\n' ∨ c = '\r' then none
      else readString? quote (c :: inside) s
  | [] => none

/-! ## Templates -/

/-- Whether an escape follows a backslash in a template. No digit may be escaped,
except for a zero without a digit behind it. -/
def isTemplateEscape : List Char → Bool
  | '0' :: s => !s.head?.any Char.isDigit
  | c :: s => !c.isDigit && isEscape (c :: s)
  | [] => false

/-- Reads a piece of a template: whether an expression follows, and the rest. A
template behind a tag leaves its escapes to the tag, so that they may be anything. -/
def readTemplate? (tagged : Bool) : List Char → Option (Bool × List Char)
  | '\x60' :: s => some (false, s)
  | '$' :: '{' :: s => some (true, s)
  | '\\' :: c :: s =>
      if tagged || isTemplateEscape (c :: s) then readTemplate? tagged s else none
  | _ :: s => readTemplate? tagged s
  | [] => none

/-! ## Regular expressions -/

/-- Reads a regular expression from behind its opening slash up to its closing
one. -/
def readPattern? (inClass : Bool) : List Char → Option (List Char)
  | [] => none
  | '\\' :: c :: s => if endsLine c then none else readPattern? inClass s
  | c :: s =>
      if endsLine c then none
      else if c = '/' ∧ !inClass then some s
      else readPattern? (c == '[' || (inClass && c != ']')) s

/-- Reads the flags of a regular expression: letters of which none comes twice, and
not both of those that choose a character set. -/
def readFlags? (s : List Char) : Option (List Char) :=
  let flags := s.takeWhile continuesName
  let areKnown := flags.all "dgimsuvy".toList.contains
  if areKnown && flags.eraseDups.length == flags.length
      && !(flags.contains 'u' && flags.contains 'v') then
    some (s.drop flags.length)
  else none

/-! ## Numbers -/

/-- Whether a row of digits has its separators between digits only. -/
def separatesWell : List Char → Bool
  | [] => true
  | '_' :: _ => false
  | [_] => true
  | _ :: '_' :: s => separatesWell s && !s.isEmpty
  | _ :: c :: s => separatesWell (c :: s)

/-- Takes a row of digits of a class with separators; nothing if it is ill-formed. -/
def takeDigits? (isDigit : Char → Bool) (s : List Char) : Option (Nat × List Char) :=
  let row := s.takeWhile fun c => isDigit c || c == '_'
  if separatesWell row then some (row.length, s.drop row.length) else none

/-- What follows a number, which may not be a name or a digit. -/
def endNumber? (s : List Char) : Option (List Char) :=
  if s.head?.any fun c => startsName c || c.isDigit || c == '\\' then none else some s

/-- What follows a number that may be marked as one of any size. -/
def endInteger? : List Char → Option (List Char)
  | 'n' :: s => endNumber? s
  | s => endNumber? s

/-- Reads a number in another base from behind its mark. -/
def readBased? (isDigit : Char → Bool) (s : List Char) : Option (List Char) := do
  let (count, rest) ← takeDigits? isDigit s
  if count = 0 then none else endInteger? rest

/-- Reads the exponent of a number, if there is one. -/
def readExponent? (s : List Char) : Option (List Char) :=
  match s with
  | c :: rest =>
      if c = 'e' ∨ c = 'E' then do
        let digits := match rest with
          | '+' :: rest | '-' :: rest => rest
          | rest => rest
        let (count, rest) ← takeDigits? Char.isDigit digits
        if count = 0 then none else endNumber? rest
      else endNumber? s
  | [] => some []

/-- Reads what follows the digits of a whole number: its fraction and exponent. -/
def readFraction? : List Char → Option (List Char)
  | '.' :: s => do
      let (_, rest) ← takeDigits? Char.isDigit s
      readExponent? rest
  | s => readExponent? s

def isOctalDigit (c : Char) : Bool :=
  '0' ≤ c && c ≤ '7'

/-- Reads a number with a needless leading zero, which has no separators. It is octal
if all its digits are, and then is whole. -/
def readZeroLed? (s : List Char) : Option (List Char) :=
  let digits := s.takeWhile Char.isDigit
  let rest := s.drop digits.length
  if digits.all isOctalDigit then endNumber? rest else readFraction? rest

/-- Reads a decimal number. -/
def readDecimal? (s : List Char) : Option (List Char) := do
  match ← takeDigits? Char.isDigit s with
  | (_, 'n' :: rest) => endNumber? rest
  | (_, rest) => readFraction? rest

def readNumber? : List Char → Option (List Char)
  | '0' :: c :: s =>
      if c = 'x' ∨ c = 'X' then readBased? isHexDigit s
      else if c = 'o' ∨ c = 'O' then readBased? isOctalDigit s
      else if c = 'b' ∨ c = 'B' then readBased? (fun d => d == '0' || d == '1') s
      else if c.isDigit then readZeroLed? (c :: s)
      else if c = '_' then none
      else readDecimal? ('0' :: c :: s)
  | s => readDecimal? s

/-! ## Names -/

/-- Reads the characters that a name goes on with, given those before, the latest
first, and whether one was escaped. Each round takes at least one character. -/
def readNameRest? : (fuel : Nat) → List Char → (escaped : Bool) → List Char →
    Option (Bool × String × List Char)
  | 0, _, _, _ => none
  | fuel + 1, name, _, '\\' :: 'u' :: s => do
      let (code, rest) ← readCharacterNumber? s
      let c := Char.ofNat code
      if code.isValidChar ∧ continuesName c then readNameRest? fuel (c :: name) true rest
      else none
  | _, _, _, '\\' :: _ => none
  | fuel + 1, name, escaped, c :: s =>
      if continuesName c then readNameRest? fuel (c :: name) escaped s
      else some (escaped, String.ofList name.reverse, c :: s)
  | _, name, escaped, [] => some (escaped, String.ofList name.reverse, [])

/-- Whether a character may stand in a name or in an escape of one. -/
def spellsName (c : Char) : Bool :=
  continuesName c || c == '\\' || c == '{' || c == '}'

/-- Reads a name: whether a character of it was escaped, the name, and the rest. It
ends where its characters do, so that there are no more rounds than those. -/
def readName? (s : List Char) : Option (Bool × String × List Char) := do
  let (escaped, name, rest) ← readNameRest? ((s.takeWhile spellsName).length + 1) [] false s
  if name.toList.head?.any startsName then some (escaped, name, rest) else none

/-! ## Lexemes -/

inductive Lexeme where
  /-- A name or a keyword. -/
  | word (name : String)
  /-- A name with an escaped character, which is no keyword. -/
  | escapedWord (name : String)
  /-- Punctuation. -/
  | mark (spelling : String)
  | number
  /-- A string with what stands between its quotes. -/
  | string (inside : String)
  /-- A regular expression. -/
  | pattern
  /-- A template up to its end, or up to its first expression. -/
  | template (expressionFollows : Bool)
  /-- A name that only its class knows. -/
  | privateName (name : String)
  /-- The end of the script. -/
  | finish
  deriving DecidableEq, Repr

/-- The punctuation, the longer before its own beginnings. -/
def punctuation : List String :=
  [">>>=", "...", "===", "!==", "**=", "<<=", ">>=", ">>>", "&&=", "||=", "??=", "=>", "==", "!=",
   "<=", ">=", "&&", "||", "??", "?.", "++", "--", "+=", "-=", "*=", "/=", "%=", "&=", "|=", "^=",
   "<<", ">>", "**", "\x7b", "\x7d", "(", ")", "[", "]", ";", ",", "<", ">", "+", "-", "*", "/",
   "%", "&", "|", "^", "!", "~", "?", ":", "=", ".", "@"]

/-- The punctuation that a text starts with. A question mark before a decimal
point stands alone. -/
def readPunctuation? (s : List Char) : Option (String × List Char) :=
  let stands (mark : String) : Bool :=
    mark.toList.isPrefixOf s && !(mark == "?." && (s[2]?).any Char.isDigit)
  (punctuation.find? stands).map fun mark => (mark, s.drop mark.length)

/-- A lexeme, and what is around it. -/
structure Peek where
  lexeme : Lexeme
  /-- Whether a line ended before it. -/
  afterLineEnd : Bool
  rest : List Char

/-- The lexeme that a text without blanks at its start begins with. A template where
no operand is due stands behind its tag. -/
def readLexeme? (operand : Bool) (s : List Char) : Option (Lexeme × List Char) :=
  match s with
  | [] => some (.finish, [])
  | c :: rest =>
      if c = '"' ∨ c = '\'' then
        (readString? c [] rest).map fun (inside, rest) => (.string inside, rest)
      else if c = '\x60' then
        (readTemplate? (!operand) rest).map fun (follows, rest) => (.template follows, rest)
      else if c.isDigit ∨ (c = '.' ∧ rest.head?.any Char.isDigit) then
        (readNumber? s).map fun rest => (.number, rest)
      else if startsName c ∨ c = '\\' then
        (readName? s).map fun (escaped, name, rest) =>
          (if escaped then .escapedWord name else .word name, rest)
      else if c = '#' then
        (readName? rest).map fun (_, name, rest) => (.privateName name, rest)
      else if operand ∧ c = '/' then
        ((readPattern? false rest).bind readFlags?).map fun rest => (.pattern, rest)
      else (readPunctuation? s).map fun (mark, rest) => (.mark mark, rest)

/-- The next lexeme of a script. `operand` says that an operand may stand there,
so that a slash starts a regular expression. -/
def nextLexeme (operand : Bool) (s : List Char) : Option Peek := do
  let (afterLineEnd, s) ← skipBlanks .blanks false s
  let (lexeme, rest) ← readLexeme? operand s
  some ⟨lexeme, afterLineEnd, rest⟩

end Mustache.Script
