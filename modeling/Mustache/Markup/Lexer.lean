import Mustache.Markup.Reference
import Mustache.Markup.Token
import Mustache.Text.Lowercase

/-!
Reading the tokens of markup.

What a piece of markup means depends on the element that it stands in, so tokens
are read a few at a time: `nextTokens` takes the way in which content is read and
gives the next piece of text, or the next tag, comment or document type. A tag
that the text ends in is dropped; any other text is kept, whatever is wrong with
it.
-/
set_option autoImplicit false

namespace Mustache.Markup

open Text

/-! ## Preparation -/

/-- Line ends as line feeds: a carriage return, with the line feed after it if
there is one, becomes one. -/
def normalizeNewlines : List Char → List Char
  | [] => []
  | '\r' :: '\n' :: s => '\n' :: normalizeNewlines s
  | '\r' :: s => '\n' :: normalizeNewlines s
  | c :: s => c :: normalizeNewlines s

/-- A character of a name or a value, with NUL replaced. -/
def visible (c : Char) : Char :=
  if c.toNat = 0 then replacement else c

/-! ## Tags -/

def endsTagName (c : Char) : Bool :=
  isSpace c || c == '/' || c == '>'

def addAttribute (attributes : List TagAttribute) (name value : List Char) :
    List TagAttribute :=
  if attributes.any (·.name == name) then attributes else attributes ++ [⟨name, value⟩]

/-- The characters of an attribute value as written. -/
def attributeText (s : List Char) : List Char :=
  decode true (s.map visible)

/-- The attributes of a tag, whether it ends in a slash, and what follows it. -/
abbrev TagEnd := List TagAttribute × Bool × List Char

/-- Reads a tag from behind its name to its end; nothing if the text ends first.
Each round takes at least one character, so `fuel` need not exceed the length. -/
def readAttributes (attributes : List TagAttribute) : (fuel : Nat) → List Char → Option TagEnd
  | 0, _ => none
  | fuel + 1, s =>
      match s.dropWhile isSpace with
      | [] => none
      | '>' :: rest => some (attributes, false, rest)
      | '/' :: '>' :: rest => some (attributes, true, rest)
      -- Any other slash counts as a blank.
      | '/' :: rest => readAttributes attributes fuel rest
      -- A name may start with any other character, also with an equals sign.
      | c :: rest =>
          let tail := rest.takeWhile fun c => !endsTagName c && c != '='
          let name := (c :: tail).map fun c => visible c.toLower
          let rest := (rest.drop tail.length).dropWhile isSpace
          match rest with
          | '=' :: rest =>
              match rest.dropWhile isSpace with
              | [] => none
              | '>' :: rest => some (addAttribute attributes name [], false, rest)
              | '"' :: rest =>
                  let value := rest.takeWhile (· ≠ '"')
                  readAttributes (addAttribute attributes name (attributeText value)) fuel
                    (rest.drop (value.length + 1))
              | '\'' :: rest =>
                  let value := rest.takeWhile (· ≠ '\'')
                  readAttributes (addAttribute attributes name (attributeText value)) fuel
                    (rest.drop (value.length + 1))
              | rest =>
                  let value := rest.takeWhile fun c => !isSpace c && c != '>'
                  readAttributes (addAttribute attributes name (attributeText value)) fuel
                    (rest.drop value.length)
          | rest => readAttributes (addAttribute attributes name []) fuel rest

/-- Reads a tag from its name to its end; nothing if the text ends first. -/
def readTagFrom? (s : List Char) : Option (TagToken × List Char) :=
  let name := s.takeWhile fun c => !endsTagName c
  let rest := s.drop name.length
  (readAttributes [] (rest.length + 1) rest).map fun (attributes, selfClosing, rest) =>
    (⟨String.ofList (name.map fun c => visible c.toLower), attributes, selfClosing⟩, rest)

/-! ## Comments -/

/-- What follows a comment, from behind its opening. -/
def afterComment : List Char → List Char
  | [] => []
  | '-' :: '-' :: '>' :: s => s
  | '-' :: '-' :: '!' :: '>' :: s => s
  | _ :: s => afterComment s

/-- What follows a comment whose opening has just been read: one that is closed
at once may have fewer dashes. -/
def afterCommentStart : List Char → List Char
  | '>' :: s => s
  | '-' :: '>' :: s => s
  | s => afterComment s

/-- What follows the next closing angle bracket. -/
def afterBracket (s : List Char) : List Char :=
  (s.dropWhile (· ≠ '>')).drop 1

/-! ## Document types -/

/-- What is wrong with a document type. -/
def Doctype.markBroken (d : Doctype) : Doctype :=
  { d with broken := true }

/-- A quoted identifier behind its opening quote; nothing if it is not closed. -/
def readQuoted? (quote : Char) (s : List Char) : Option (List Char × List Char) :=
  let id := s.takeWhile (· ≠ quote)
  if id.length < s.length then some (id.map visible, s.drop (id.length + 1)) else none

/-- Reads an identifier with its quotes after optional blanks. -/
def readIdentifier? (s : List Char) : Option (List Char × List Char) :=
  match s.dropWhile isSpace with
  | '"' :: rest => readQuoted? '"' rest
  | '\'' :: rest => readQuoted? '\'' rest
  | _ => none

/-- Reads what follows the keyword of a system identifier. -/
def readSystem (d : Doctype) (s : List Char) : Doctype :=
  match readIdentifier? s with
  | some (id, _) => { d with systemId := some id }
  | none => d.markBroken

/-- Reads what follows the keyword of a public identifier. -/
def readPublic (d : Doctype) (s : List Char) : Doctype :=
  match readIdentifier? s with
  | some (id, rest) =>
      let d := { d with publicId := some id }
      if (rest.dropWhile isSpace).isEmpty then d else readSystem d rest
  | none => d.markBroken

/-- Reads a document type from what stands between its keyword and its closing
bracket. -/
def readDoctype (s : List Char) : Doctype :=
  let s := s.dropWhile isSpace
  let name := s.takeWhile (!isSpace ·)
  let rest := (s.drop name.length).dropWhile isSpace
  if name.isEmpty then ⟨none, none, none, true⟩
  else
    let d : Doctype := ⟨some (name.map fun c => visible c.toLower), none, none, false⟩
    if rest.isEmpty then d
    else if startsWithFolded "public".toList rest then readPublic d (rest.drop 6)
    else if startsWithFolded "system".toList rest then readSystem d (rest.drop 6)
    else d.markBroken

/-! ## Text -/

/-- Text as tokens, with each NUL a token of its own. -/
def textTokens (s : List Char) : List Token :=
  s.foldr (fun c tokens =>
    if c.toNat = 0 then .nul :: tokens
    else match tokens with
      | .text chars :: rest => .text (c :: chars) :: rest
      | _ => .text [c] :: tokens) []

/-- Text as one token, unless it is empty. -/
def textToken (s : List Char) : List Token :=
  if s.isEmpty then [] else [.text s]

/-- Whether the end tag of a name starts behind an angle bracket. -/
def endTagFollows (name : String) : List Char → Bool
  | '/' :: s => startsWithFolded name.toList s && (s[name.length]?).any endsTagName
  | _ => false

/-- Whether a text starts with a reference by number that lacks its semicolon. -/
def startsUnclosed : List Char → Bool
  | '&' :: '#' :: s =>
      let rest := match s with
        | 'x' :: s | 'X' :: s => s.dropWhile isHexDigit
        | s => s.dropWhile Char.isDigit
      rest.head? != some ';'
  | _ => false

/-- An empty text if something wrong comes before all content of a text. What is
wrong is noted at once, and counts as what comes next behind a tag. -/
def faultAtStart (s : List Char) : List Token :=
  if startsUnclosed s then [.text []] else []

/-- The text up to the end tag of a name, and what follows it from the slash of
the end tag on. -/
def rawText (name : String) : List Char → List Char × List Char
  | [] => ([], [])
  | c :: s =>
      if c = '<' ∧ endTagFollows name s then ([], s)
      else
        let (text, rest) := rawText name s
        (c :: text, rest)

/-! ## Scripts -/

/-- Where a script stands with comments: outside, in one, or in a script that is
written inside one. -/
inductive ScriptDepth where
  | outside
  | comment
  | inner
  deriving DecidableEq, Repr

/-- The depth behind an angle bracket that `s` follows, if no end tag follows. -/
def ScriptDepth.atBracket (depth : ScriptDepth) (s : List Char) : ScriptDepth :=
  let opensScript (s : List Char) : Bool :=
    let word := s.takeWhile Char.isAlpha
    (word.map Char.toLower == "script".toList) && (s[word.length]?).any endsTagName
  match depth, s with
  | .outside, '!' :: '-' :: '-' :: _ => .comment
  | .outside, _ => .outside
  | .comment, s => if opensScript s then .inner else .comment
  | .inner, '/' :: s => if opensScript s then .comment else .inner
  | .inner, _ => .inner

/-- The text of a script up to its end tag, and what follows it from the slash of
the end tag on. `dashes` counts the dashes just before. -/
def scriptText (depth : ScriptDepth) (dashes : Nat) : List Char → List Char × List Char
  | [] => ([], [])
  | c :: s =>
      if c = '<' then
        if depth ≠ .inner ∧ endTagFollows "script" s then ([], s)
        else
          let (text, rest) := scriptText (depth.atBracket s) 0 s
          (c :: text, rest)
      else
        let ends := c = '>' ∧ 2 ≤ dashes
        let (text, rest) := scriptText (if ends then .outside else depth)
          (if c = '-' then dashes + 1 else 0) s
        (visible c :: text, rest)

/-! ## The next tokens -/

/-- Tokens and what follows them. -/
abbrev Lexed := List Token × List Char

/-- Reads what follows an angle bracket and an exclamation mark. -/
def readDeclaration (allowsSections : Bool) (s : List Char) : Lexed :=
  if startsWithFolded "--".toList s then ([.comment], afterCommentStart (s.drop 2))
  else if startsWithFolded "doctype".toList s then
    let content := (s.drop 7).takeWhile (· ≠ '>')
    let ended := content.length < (s.drop 7).length
    let d := readDoctype content
    ([.doctype (if ended then d else d.markBroken)], afterBracket (s.drop 7))
  else if allowsSections ∧ "[CDATA[".toList.isPrefixOf s then
    let (text, rest) := splitSection (s.drop 7)
    (textTokens text, rest)
  else ([.comment], afterBracket s)
where
  /-- The text of a section of character data, and what follows it. -/
  splitSection : List Char → List Char × List Char
    | [] => ([], [])
    | ']' :: ']' :: '>' :: s => ([], s)
    | c :: s =>
        let (text, rest) := splitSection s
        (c :: text, rest)

def readEndTag (s : List Char) : Lexed :=
  match readTagFrom? s with
  | some (tag, rest) => ([.endTag tag], rest)
  | none => ([.endOfFile], [])

/-- Reads what follows an angle bracket in normal content. -/
def readMarkup (allowsSections : Bool) : List Char → Lexed
  | '!' :: s => readDeclaration allowsSections s
  | '?' :: s => ([.comment], afterBracket s)
  | ['/'] => ([.text ['<', '/']], [])
  | '/' :: '>' :: s => ([.text []], s)
  | '/' :: c :: s =>
      if c.isAlpha then readEndTag (c :: s) else ([.comment], afterBracket (c :: s))
  | c :: s =>
      if c.isAlpha then
        match readTagFrom? (c :: s) with
        | some (tag, rest) => ([.startTag tag], rest)
        | none => ([.endOfFile], [])
      else ([.text ['<']], c :: s)
  | [] => ([.text ['<']], [])

/-- Reads the text before an end tag and the end tag. -/
def readRaw (split : List Char × List Char) : Lexed :=
  match split with
  | (text, '/' :: rest) =>
      let (tokens, rest) := readEndTag rest
      (textToken text ++ tokens, rest)
  | (text, _) => (textToken text, [])

/-- The next tokens of `s` and what follows them: a piece of text, or what an angle
bracket begins; of raw content the text together with the end tag. -/
def nextTokens (content : Content) (allowsSections : Bool) (s : List Char) : Lexed :=
  if s.isEmpty then ([.endOfFile], [])
  else
    match content with
    | .normal =>
        match s with
        | '<' :: rest => readMarkup allowsSections rest
        | s =>
            let text := s.takeWhile (· ≠ '<')
            (faultAtStart text ++ textTokens (decode false text), s.drop text.length)
    | .withReferences name =>
        let (text, rest) := rawText name s
        let (tokens, rest) := readRaw (decode false (text.map visible), rest)
        (faultAtStart text ++ tokens, rest)
    | .raw name =>
        let (text, rest) := rawText name s
        readRaw (text.map visible, rest)
    | .script => readRaw (scriptText .outside 0 s)
    | .plain => (textToken (s.map visible), [])

end Mustache.Markup
