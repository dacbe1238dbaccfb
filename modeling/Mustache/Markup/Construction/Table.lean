import Mustache.Markup.Construction.Body

/-!
Tables.

A table holds captions, columns, groups of rows, rows and cells; a tag of one of
these closes what it may not stand in and opens what it stands in. What else comes
between these parts is put in front of the table. Text there is kept back until
it is known whether it is all blanks; if it is not, the text is moved, and
`foundTableText` remembers that it was.
-/
set_option autoImplicit false

namespace Mustache.Markup.Build

/-! ## Classes of tags -/

/-- The end tags that mean nothing anywhere in a table. -/
def documentEndTags : List String := ["body", "html"]

/-- The parts of a table that are no cells or rows. -/
def tablePartTags : List String :=
  ["caption", "col", "colgroup", "tbody", "tfoot", "thead"]

def rowGroupTags : List String := ["tbody", "tfoot", "thead"]

def cellTags : List String := ["td", "th"]

/-! ## In a table -/

/-- Takes a token as in a body, but puts in front of the table what may not stand
in it. -/
def inBodyFostering (token : Token) : Step := do
  modify fun s => { s with fostering := true }
  let rest ← inBody token
  modify fun s => { s with fostering := false }
  pure rest

/-- Closes what is open in the table. -/
def backToTable : Build PUnit := popTo endsTableScope

/-- Closes the innermost table, and gives the mode around it, if there is a
table. -/
def closeTable? : Build (Option Mode) := do
  if ← inScopeNamed endsTableScope "table" then
    popThroughNamed "table"
    pure (some (← resetMode))
  else pure none

/-- Text in a table is kept back. -/
def keepText (token : Token) : Step := do
  if ← currentIs isTableStructure then
    modify fun s => { s with modeToResume := s.mode }
    again .inTableText token
  else inBodyFostering token

def openTablePart (tag : TagToken) (mode : Mode) : Step := do
  backToTable
  if mode = .inCaption then pushMarker
  let _ ← insert tag
  goTo mode
  done

/-- Opens a part of a table whose tag was left out, and takes the token there. -/
def implyTablePart (name : String) (mode : Mode) (token : Token) : Step := do
  backToTable
  let _ ← insertImplied name
  again mode token

/-- A hidden input may stand in a table. -/
def inputInTable (tag : TagToken) : Step :=
  if isHiddenInput tag then addVoid tag else inBodyFostering (.startTag tag)

/-- A form in a table holds nothing. -/
def formInTable (tag : TagToken) : Step := do
  if !(← anyOpen "template") && (← get).form.isNone then
    let id ← insertVoid tag
    modify fun s => { s with form := some id }
  done

def inTable (token : Token) : Step :=
  match token with
  | .text _ | .nul => keepText token
  | .comment => commentHere
  | .startTag tag =>
      if tag.name = "caption" then openTablePart tag .inCaption
      else if tag.name = "colgroup" then openTablePart tag .inColumnGroup
      else if tag.name = "col" then implyTablePart "colgroup" .inColumnGroup token
      else if rowGroupTags.contains tag.name then openTablePart tag .inTableBody
      else if tag.name = "tr" ∨ cellTags.contains tag.name then
        implyTablePart "tbody" .inTableBody token
      else if tag.name = "table" then do
        match ← closeTable? with
        | some mode => again mode token
        | none => done
      else if ["style", "script", "template"].contains tag.name then startInHead tag
      else if tag.name = "input" then inputInTable tag
      else if tag.name = "form" then formInTable tag
      else inBodyFostering token
  | .endTag tag =>
      if tag.name = "table" then do
        match ← closeTable? with
        | some mode =>
            goTo mode
            done
        | none => done
      else if documentEndTags.contains tag.name ∨ tablePartTags.contains tag.name
          ∨ tag.name = "tr" ∨ cellTags.contains tag.name then done
      else if tag.name = "template" then closeTemplate
      else inBodyFostering token
  | .endOfFile => inBody token
  | .doctype _ => done

/-- Puts text that was kept back in front of the table. -/
def fosterText (pieces : List (List Char)) : Build PUnit := do
  modify fun s => { s with foundTableText := true }
  pieces.forM fun chars => do
    let _ ← inBodyFostering (.text chars)

/-- A token after text in a table. -/
def inTableText (token : Token) : Step :=
  match token with
  | .nul => done
  | .text chars => do
      modify fun s => { s with tableText := s.tableText ++ [chars] }
      done
  | token => do
      let pieces := (← get).tableText
      modify fun s => { s with tableText := [] }
      if pieces.all allSpace then pieces.forM insertText else fosterText pieces
      again (← get).modeToResume token

/-! ## In captions and columns -/

/-- Closes the caption, if one is open in the table. Gives whether it was. -/
def closeCaption : Build Bool := do
  if ← inScopeNamed endsTableScope "caption" then
    closeImplied
    popThroughNamed "caption"
    clearFormatting
    pure true
  else pure false

def inCaption (token : Token) : Step :=
  match token with
  | .startTag tag =>
      if tablePartTags.contains tag.name ∨ tag.name = "tr" ∨ cellTags.contains tag.name then leave
      else inBody token
  | .endTag tag =>
      if tag.name = "table" then leave
      else if tag.name = "caption" then do
        if ← closeCaption then goTo .inTable
        done
      else if documentEndTags.contains tag.name ∨ tablePartTags.contains tag.name
          ∨ tag.name = "tr" ∨ cellTags.contains tag.name then done
      else inBody token
  | token => inBody token
where
  /-- Closes the caption and takes the token in the table. -/
  leave : Step := do
    if ← closeCaption then again .inTable token else done

def inColumnGroup (token : Token) : Step :=
  match token with
  | .text chars => if allSpace chars then textHere chars else leave
  | .comment => commentHere
  | .startTag tag =>
      if tag.name = "html" then mergeRoot tag
      else if tag.name = "col" then addVoid tag
      else if tag.name = "template" then openTemplate tag
      else leave
  | .endTag tag =>
      if tag.name = "colgroup" then do
        if ← currentNamed "colgroup" then
          pop
          goTo .inTable
        done
      else if tag.name = "col" then done
      else if tag.name = "template" then closeTemplate
      else leave
  | .endOfFile => inBody token
  | .nul | .doctype _ => leave
where
  /-- Closes the group and takes the token in the table. -/
  leave : Step := do
    if ← currentNamed "colgroup" then
      pop
      again .inTable token
    else done

/-! ## In groups of rows, rows and cells -/

/-- Closes what is open in the group of rows. -/
def backToRows : Build PUnit := popTo isTableBodyContext

/-- Closes what is open in the row. -/
def backToRow : Build PUnit := popTo isTableRowContext

/-- A token in a group of rows. -/
def inTableBody (token : Token) : Step :=
  match token with
  | .startTag tag =>
      if tag.name = "tr" then do
        backToRows
        let _ ← insert tag
        goTo .inRow
        done
      else if cellTags.contains tag.name then do
        backToRows
        let _ ← insertImplied "tr"
        again .inRow token
      else if tablePartTags.contains tag.name then leave
      else inTable token
  | .endTag tag =>
      if rowGroupTags.contains tag.name then do
        if ← inScopeNamed endsTableScope tag.name then
          backToRows
          pop
          goTo .inTable
        done
      else if tag.name = "table" then leave
      else if documentEndTags.contains tag.name ∨ tablePartTags.contains tag.name
          ∨ tag.name = "tr" ∨ cellTags.contains tag.name then done
      else inTable token
  | token => inTable token
where
  /-- Closes the group and takes the token in the table. -/
  leave : Step := do
    if ← inScopeClass endsTableScope (htmlClass ["table", "tbody", "tfoot"]) then
      backToRows
      pop
      again .inTable token
    else done

/-- Closes the row, if one is open in the table. Gives whether it was. -/
def closeRow : Build Bool := do
  if ← inScopeNamed endsTableScope "tr" then
    backToRow
    pop
    pure true
  else pure false

def inRow (token : Token) : Step :=
  match token with
  | .startTag tag =>
      if cellTags.contains tag.name then do
        backToRow
        let _ ← insert tag
        goTo .inCell
        pushMarker
        done
      else if tablePartTags.contains tag.name ∨ tag.name = "tr" then leave
      else inTable token
  | .endTag tag =>
      if tag.name = "tr" then do
        if ← closeRow then goTo .inTableBody
        done
      else if tag.name = "table" then leave
      else if rowGroupTags.contains tag.name then do
        if ← inScopeNamed endsTableScope tag.name then
          let _ ← closeRow
          again .inTableBody token
        else done
      else if documentEndTags.contains tag.name ∨ tablePartTags.contains tag.name
          ∨ cellTags.contains tag.name then done
      else inTable token
  | token => inTable token
where
  /-- Closes the row and takes the token in the group of rows. -/
  leave : Step := do
    if ← closeRow then again .inTableBody token else done

/-- Closes the cell and takes the token in the row. -/
def leaveCell (token : Token) : Step := do
  closeImplied
  popThrough isCell
  clearFormatting
  again .inRow token

def inCell (token : Token) : Step :=
  match token with
  | .startTag tag =>
      if tablePartTags.contains tag.name ∨ tag.name = "tr" ∨ cellTags.contains tag.name then do
        if ← inScopeClass endsTableScope isCell then leaveCell token else done
      else inBody token
  | .endTag tag =>
      if cellTags.contains tag.name then do
        if ← inScopeNamed endsTableScope tag.name then
          closeImplied
          popThroughNamed tag.name
          clearFormatting
          goTo .inRow
        done
      else if documentEndTags.contains tag.name
          ∨ ["caption", "col", "colgroup"].contains tag.name then done
      else if tag.name = "table" ∨ tag.name = "tr" ∨ rowGroupTags.contains tag.name then do
        if ← inScopeNamed endsTableScope tag.name then leaveCell token else done
      else inBody token
  | token => inBody token

end Mustache.Markup.Build
