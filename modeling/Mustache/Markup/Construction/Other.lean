import Mustache.Markup.Construction.Table

/-!
Selection lists, template elements, framesets and what follows a document.

A selection list takes options, rules between them and text only. A template element may hold a part
of anything, so its first tag decides how it is read. After the body nothing new
may come; what does come goes on with the body.
-/
set_option autoImplicit false

namespace Mustache.Markup.Build

/-! ## In selection lists -/

def selectIsOpen : Build Bool := inScopeNamed endsSelectScope "select"

/-- Ends the selection list. -/
def closeSelect : Step := do
  if ← selectIsOpen then
    popThroughNamed "select"
    goTo (← resetMode)
  done

/-- Ends the selection list, and takes the token where the list ends. -/
def leaveSelect (token : Token) : Step := do
  popThroughNamed "select"
  again (← resetMode) token

def endOptionGroup : Step := do
  let s ← get
  match s.opened with
  | id :: outer :: _ =>
      if s.document.isHtml "option" id && s.document.isHtml "optgroup" outer then pop
  | _ => pure ()
  if ← currentNamed "optgroup" then pop
  done

def inSelect (token : Token) : Step :=
  match token with
  | .text chars => textHere chars
  | .comment => commentHere
  | .startTag tag =>
      if tag.name = "html" then mergeRoot tag
      else if tag.name = "option" then do
        if ← currentNamed "option" then pop
        openElement tag
      else if tag.name = "optgroup" then do
        if ← currentNamed "option" then pop
        if ← currentNamed "optgroup" then pop
        openElement tag
      else if tag.name = "hr" then do
        if ← currentNamed "option" then pop
        if ← currentNamed "optgroup" then pop
        addVoid tag
      else if tag.name = "select" then closeSelect
      else if ["input", "keygen", "textarea"].contains tag.name then do
        if ← selectIsOpen then leaveSelect token else done
      else if ["script", "template"].contains tag.name then startInHead tag
      else done
  | .endTag tag =>
      if tag.name = "optgroup" then endOptionGroup
      else if tag.name = "option" then do
        if ← currentNamed "option" then pop
        done
      else if tag.name = "select" then closeSelect
      else if tag.name = "template" then closeTemplate
      else done
  | .endOfFile => inBody token
  | .nul | .doctype _ => done

/-- The tags of a table that end a selection list in it. -/
def tableTags : List String :=
  ["caption", "table", "tbody", "tfoot", "thead", "tr", "td", "th"]

def inSelectInTable (token : Token) : Step :=
  match token with
  | .startTag tag =>
      if tableTags.contains tag.name then leaveSelect token else inSelect token
  | .endTag tag =>
      if tableTags.contains tag.name then do
        if ← inScopeNamed endsTableScope tag.name then leaveSelect token else done
      else inSelect token
  | token => inSelect token

/-! ## In template elements -/

/-- Reads the rest of the template element in a mode, from this token on. -/
def readTemplateAs (mode : Mode) (token : Token) : Step := do
  modify fun s => { s with templateModes := mode :: s.templateModes.drop 1 }
  again mode token

/-- A token in a template element. -/
def inTemplate (token : Token) : Step :=
  match token with
  | .text _ | .comment => inBody token
  | .startTag tag =>
      if headTags.contains tag.name then startInHead tag
      else if ["caption", "colgroup", "tbody", "tfoot", "thead"].contains tag.name then
        readTemplateAs .inTable token
      else if tag.name = "col" then readTemplateAs .inColumnGroup token
      else if tag.name = "tr" then readTemplateAs .inTableBody token
      else if cellTags.contains tag.name then readTemplateAs .inRow token
      else readTemplateAs .inBody token
  | .endTag tag => if tag.name = "template" then closeTemplate else done
  | .endOfFile => endOfTemplates
  | .nul | .doctype _ => done

/-! ## After the body -/

def afterBody (token : Token) : Step :=
  match token with
  | .comment => do
      insertComment (← outermost)
      done
  | .text chars => if allSpace chars then inBody token else again .inBody token
  | .startTag tag => if tag.name = "html" then mergeRoot tag else again .inBody token
  | .endTag tag =>
      if tag.name = "html" then do
        goTo .afterAfterBody
        done
      else again .inBody token
  | .endOfFile => done
  | token => again .inBody token

/-- A token after the root element. -/
def afterAfterBody (token : Token) : Step :=
  match token with
  | .comment => commentInDocument
  | .text chars => if allSpace chars then inBody token else again .inBody token
  | .startTag tag => if tag.name = "html" then mergeRoot tag else again .inBody token
  | .endOfFile => done
  | token => again .inBody token

/-! ## Framesets -/

def inFrameset (token : Token) : Step :=
  match token with
  | .text chars => if allSpace chars then textHere chars else done
  | .comment => commentHere
  | .startTag tag =>
      if tag.name = "html" then mergeRoot tag
      else if tag.name = "frameset" then openElement tag
      else if tag.name = "frame" then addVoid tag
      else if tag.name = "noframes" then startInHead tag
      else done
  | .endTag tag =>
      if tag.name = "frameset" then do
        if (← get).opened.length ≠ 1 then
          pop
          if !(← currentNamed "frameset") then goTo .afterFrameset
        done
      else done
  | _ => done

def afterFrameset (token : Token) : Step :=
  match token with
  | .text chars => if allSpace chars then textHere chars else done
  | .comment => commentHere
  | .startTag tag =>
      if tag.name = "html" then mergeRoot tag
      else if tag.name = "noframes" then startInHead tag
      else done
  | .endTag tag => do
      if tag.name = "html" then goTo .afterAfterFrameset
      done
  | _ => done

/-- A token after the root element of a frameset. -/
def afterAfterFrameset (token : Token) : Step :=
  match token with
  | .comment => commentInDocument
  | .text chars => if allSpace chars then inBody token else done
  | .startTag tag =>
      if tag.name = "html" then mergeRoot tag
      else if tag.name = "noframes" then startInHead tag
      else done
  | _ => done

end Mustache.Markup.Build
