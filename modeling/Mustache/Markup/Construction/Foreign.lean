import Mustache.Markup.Construction.Other
import Mustache.Text.Units

/-!
Taking a token.

`stepIn` takes a token in a mode. While the innermost open element is a foreign
one, tokens are taken as foreign content instead, but for those that such an
element holds as markup proper. `take` decides between the two.
-/
set_option autoImplicit false

namespace Mustache.Markup.Build

/-- Takes a token in a mode. -/
def stepIn (mode : Mode) (token : Token) : Step :=
  match mode with
  | .initial => initial token
  | .beforeHtml => beforeHtml token
  | .beforeHead => beforeHead token
  | .inHead => inHead token
  | .afterHead => afterHead token
  | .inBody => inBody token
  | .text => inText token
  | .inTable => inTable token
  | .inTableText => inTableText token
  | .inCaption => inCaption token
  | .inColumnGroup => inColumnGroup token
  | .inTableBody => inTableBody token
  | .inRow => inRow token
  | .inCell => inCell token
  | .inSelect => inSelect token
  | .inSelectInTable => inSelectInTable token
  | .inTemplate => inTemplate token
  | .afterBody => afterBody token
  | .inFrameset => inFrameset token
  | .afterFrameset => afterFrameset token
  | .afterAfterBody => afterAfterBody token
  | .afterAfterFrameset => afterAfterFrameset token

/-! ## Foreign content -/

def annotationHoldsMarkup (attributes : List TagAttribute) : Bool :=
  attributes.any fun a =>
    a.name == "encoding".toList &&
      ["text/html", "application/xhtml+xml"].any fun encoding =>
        a.value.map Char.toLower == encoding.toList

/-- Whether a foreign element takes a token as markup proper. -/
def takesMarkup (space : Namespace) (name : String) (attributes : List TagAttribute)
    (token : Token) : Bool :=
  let isText := match token with
    | .text _ | .nul => true
    | _ => false
  let startName := match token with
    | .startTag tag => some tag.name
    | _ => none
  if holdsFormulaText (space, name) then
    isText || startName.any fun name => !(["mglyph", "malignmark"].contains name)
  else if holdsMarkup (space, name) then isText || startName.isSome
  else if space = .mathml ∧ name = "annotation-xml" then
    startName == some "svg" || ((isText || startName.isSome) && annotationHoldsMarkup attributes)
  else false

/-- Whether a token is taken as foreign content. -/
def isForeign (token : Token) : Build Bool := do
  let s ← get
  match token, s.opened.head?.bind s.document.element? with
  | .endOfFile, _ => pure false
  | _, some (space, name, attributes) =>
      pure (space != .html && !takesMarkup space name attributes token)
  | _, none => pure false

/-- Whether the innermost open element is a foreign one. -/
def inForeignElement : Build Bool :=
  currentIs fun e => e.1 != .html

/-- Closes foreign elements up to one that holds markup, and takes the token as
markup proper. -/
def breakOut (token : Token) : Step := do
  popTo fun e => e.1 == .html || holdsFormulaText e || holdsMarkup e
  stepIn (← get).mode token

/-- Whether a tag of a font is one of markup proper. -/
def isFontTag (tag : TagToken) : Bool :=
  tag.name == "font" && tag.attributes.any fun a =>
    ["color", "face", "size"].contains (String.ofList a.name)

def startInForeign (tag : TagToken) : Step := do
  if breakoutTags.contains tag.name || isFontTag tag then breakOut (.startTag tag)
  else
    let s ← get
    let space := ((s.opened.head?.bind s.document.nameOf?).map Prod.fst).getD .html
    let name := if space = .svg then (svgElementNames.lookup tag.name).getD tag.name else tag.name
    openForeign space name tag

/-- An end tag in foreign content, looked for from the innermost element on:
`isInnermost` says whether `opened` starts there. -/
def endInForeign (tag : TagToken) (isInnermost : Bool) : (opened : List NodeId) → Step
  | [] | [_] => done
  | id :: outer => do
      let s ← get
      match s.document.nameOf? id with
      | none => done
      | some (space, name) =>
          if !isInnermost && space == .html then stepIn s.mode (.endTag tag)
          else if name.toList.map Char.toLower == tag.name.toList then do
            set { s with opened := outer }
            done
          else endInForeign tag false outer

/-- A token in foreign content. -/
def inForeign (token : Token) : Step :=
  match token with
  | .nul => textHere [Text.replacement]
  | .text chars => do
      if !allSpace chars then forbidFrameset
      textHere chars
  | .comment => commentHere
  | .startTag tag => startInForeign tag
  | .endTag tag => do
      if tag.name = "br" ∨ tag.name = "p" then breakOut token
      else endInForeign tag true (← get).opened
  | .doctype _ | .endOfFile => done

/-! ## Any token -/

/-- Takes a token in the mode that is set, or as foreign content. -/
def take (token : Token) : Step := do
  if ← isForeign token then inForeign token else stepIn (← get).mode token

/-- Takes a token again and again until nothing is left of it, `rounds` times at
most. -/
def takeAll : (rounds : Nat) → Token → Build PUnit
  | 0, _ => pure ()
  | rounds + 1, token => do
      match ← take token with
      | some token => takeAll rounds token
      | none => pure ()

/-- How often a token may be taken again. Only a token that closes an element, or
opens one that was missing, is taken again; between two that close one there are
less than as many as there are modes. -/
def roundsFor (s : Construction) : Nat :=
  24 * (s.opened.length + s.templateModes.length + 2)

/-- Takes a token of a document. Text is taken in pieces that are all blanks or
hold none. -/
def feed (token : Token) : Build PUnit := do
  let drops := (← get).dropsNewline
  modify fun s => { s with dropsNewline := false }
  match token with
  | .text chars =>
      let chars := if drops ∧ chars.head? = some '\n' then chars.drop 1 else chars
      (chars.splitBy fun a b => isSpace a == isSpace b).forM fun piece => do
        takeAll (roundsFor (← get)) (.text piece)
  | .doctype _ => do
      if (← get).mode = .initial then takeAll 1 token
  | token => do
      takeAll (roundsFor (← get)) token

end Mustache.Markup.Build
