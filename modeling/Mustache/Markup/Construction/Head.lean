import Mustache.Markup.Construction.Formatting
import Mustache.Markup.Doctype

/-!
The start of a document and its head.

A document starts with a root element and a head, whether their tags are written
or not: a token that may not stand where it comes opens what is missing and is
taken again there.
-/
set_option autoImplicit false

namespace Mustache.Markup.Build

/-! ## What the modes share -/

/-- Whether text is all blanks. -/
def allSpace (chars : List Char) : Bool :=
  chars.all isSpace

def openingEndTags : List String := ["body", "br", "html"]

/-- Adds a comment behind the document's other children. -/
def commentInDocument : Step := do
  insertComment (some Document.root)
  done

/-- Adds a comment. -/
def commentHere : Step := do
  insertComment none
  done

/-- Adds text. -/
def textHere (chars : List Char) : Step := do
  insertText chars
  done

/-- Adds and opens the element of a start tag and does no more. -/
def openElement (tag : TagToken) : Step := do
  let _ ← insert tag
  done

/-- Adds the element of a start tag that has no content, and does no more. -/
def addVoid (tag : TagToken) : Step := do
  let _ ← insertVoid tag
  done

/-- Gives the root element the attributes of another tag of its name. -/
def mergeRoot (tag : TagToken) : Step := do
  if !(← anyOpen "template") then
    match ← outermost with
    | some root => change fun d => d.addMissingAttributes root tag.attributes
    | none => pure ()
  done

/-- Adds the element of a start tag and reads its content as text. -/
def openRaw (tag : TagToken) (content : Content) : Step := do
  insertRaw tag content
  done

/-! ## Before the head -/

/-- A token at the very start. -/
def initial (token : Token) : Step :=
  match token with
  | .doctype d => do
      let _ ← make .doctype >>= fun id => change fun doc => doc.append Document.root id
      modify fun s => { s with oldRules := d.asksForOldRules }
      goTo .beforeHtml
      done
  | .comment => commentInDocument
  | .text chars => if allSpace chars then done else old token
  | token => old token
where
  /-- A document without a type is an old one. -/
  old (token : Token) : Step := do
    modify fun s => { s with oldRules := true }
    again .beforeHtml token

/-- A token before the root element. -/
def beforeHtml (token : Token) : Step :=
  match token with
  | .comment => commentInDocument
  | .text chars => if allSpace chars then done else implied token
  | .startTag tag =>
      if tag.name = "html" then do
        insertRoot tag.attributes
        goTo .beforeHead
        done
      else implied token
  | .endTag tag =>
      if tag.name = "head" ∨ openingEndTags.contains tag.name then implied token else done
  | token => implied token
where
  /-- Opens the root element. -/
  implied (token : Token) : Step := do
    insertRoot []
    again .beforeHead token

def beforeHead (token : Token) : Step :=
  match token with
  | .comment => commentHere
  | .text chars => if allSpace chars then done else implied token
  | .startTag tag =>
      if tag.name = "html" then mergeRoot tag
      else if tag.name = "head" then do
        let id ← insert tag
        modify fun s => { s with head := some id }
        goTo .inHead
        done
      else implied token
  | .endTag tag =>
      if tag.name = "head" ∨ openingEndTags.contains tag.name then implied token else done
  | token => implied token
where
  /-- Opens the head. -/
  implied (token : Token) : Step := do
    let id ← insertImplied "head"
    modify fun s => { s with head := some id }
    again .inHead token

/-! ## In the head -/

/-- Opens a template element. -/
def openTemplate (tag : TagToken) : Step := do
  let _ ← insert tag
  pushMarker
  forbidFrameset
  modify fun s => { s with templateModes := .inTemplate :: s.templateModes }
  goTo .inTemplate
  done

/-- Closes the innermost template element. -/
def closeTemplate : Step := do
  if ← anyOpen "template" then
    popWhile hasImpliedEndInTemplate
    popThroughNamed "template"
    clearFormatting
    modify fun s => { s with templateModes := s.templateModes.drop 1 }
    goTo (← resetMode)
  done

def startInHead (tag : TagToken) : Step :=
  if tag.name = "title" then openRaw tag (.withReferences tag.name)
  else if tag.name = "script" then openRaw tag .script
  else if tag.name = "template" then openTemplate tag
  else if ["noframes", "noscript", "style"].contains tag.name then openRaw tag (.raw tag.name)
  else addVoid tag

def inHead (token : Token) : Step :=
  match token with
  | .comment => commentHere
  | .text chars => if allSpace chars then textHere chars else leave token
  | .startTag tag =>
      if tag.name = "html" then mergeRoot tag
      else if tag.name = "head" then done
      else if tag.name = "noscript" ∨ headTags.contains tag.name then startInHead tag
      else leave token
  | .endTag tag =>
      if tag.name = "head" then do
        pop
        goTo .afterHead
        done
      else if tag.name = "template" then closeTemplate
      else if openingEndTags.contains tag.name then leave token
      else done
  | token => leave token
where
  /-- Closes the head. -/
  leave (token : Token) : Step := do
    pop
    again .afterHead token

/-- A token between the head and the body. -/
def afterHead (token : Token) : Step :=
  match token with
  | .comment => commentHere
  | .text chars => if allSpace chars then textHere chars else implied token
  | .startTag tag =>
      if tag.name = "html" then mergeRoot tag
      else if tag.name = "head" then done
      else if tag.name = "body" then do
        let _ ← insert tag
        forbidFrameset
        goTo .inBody
        done
      else if tag.name = "frameset" then do
        let _ ← insert tag
        goTo .inFrameset
        done
      else if headTags.contains tag.name then do
        -- the head takes what belongs there even after it is closed
        match (← get).head with
        | some head =>
            push head
            let rest ← startInHead tag
            removeOpened head
            pure rest
        | none => done
      else implied token
  | .endTag tag =>
      if tag.name = "template" then closeTemplate
      else if openingEndTags.contains tag.name then implied token
      else done
  | token => implied token
where
  /-- Opens the body. -/
  implied (token : Token) : Step := do
    let _ ← insertImplied "body"
    again .inBody token

end Mustache.Markup.Build
