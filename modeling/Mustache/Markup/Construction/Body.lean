import Mustache.Markup.Construction.Head

/-!
The body of a document.

Every tag may come at any place in a body. What it closes before it opens its
element, and whether it opens one at all, is decided by the class it belongs to;
a tag of no class opens an ordinary element, in which the formatting around it
goes on.
-/
set_option autoImplicit false

namespace Mustache.Markup.Build

/-! ## The parts of a document again -/

/-- The body element, if the document has one that is open. -/
def bodyElement? : Build (Option NodeId) := do
  let s ← get
  match s.opened.reverse with
  | _ :: id :: _ => pure (if s.document.isHtml "body" id then some id else none)
  | _ => pure none

/-- Gives the body element the attributes of another tag of its name. -/
def mergeBody (tag : TagToken) : Step := do
  match ← bodyElement? with
  | some body =>
      if !(← anyOpen "template") then
        forbidFrameset
        change fun d => d.addMissingAttributes body tag.attributes
  | none => pure ()
  done

/-- Puts a frameset in the place of a body that holds nothing yet. -/
def framesetForBody (tag : TagToken) : Step := do
  match ← bodyElement? with
  | some body =>
      if (← get).framesetAllowed then
        change fun d => d.detach body
        modify fun s => { s with opened := s.opened.drop (s.opened.length - 1) }
        let _ ← insert tag
        goTo .inFrameset
  | none => pure ()
  done

/-! ## Blocks -/

/-- Opens a block, which ends the paragraph. -/
def openBlock (tag : TagToken) : Step := do
  closeParagraphInScope
  openElement tag

def openHeading (tag : TagToken) : Step := do
  closeParagraphInScope
  if ← currentIs (htmlClass headingNames) then pop
  openElement tag

/-- Opens a block of text whose line ends count. -/
def openPreformatted (tag : TagToken) : Step := do
  closeParagraphInScope
  let _ ← insert tag
  dropNewline
  forbidFrameset
  done

def openForm (tag : TagToken) : Step := do
  let inTemplate ← anyOpen "template"
  if (← get).form.isNone || inTemplate then
    closeParagraphInScope
    let id ← insert tag
    if !inTemplate then modify fun s => { s with form := some id }
  done

/-- The item that the start of another item closes: the innermost element whose
name is among `names`, if only elements stand in it that do not hide it. -/
def itemToClose? (d : Document) (names : List String) : List NodeId → Option String
  | [] => none
  | id :: outer =>
      match names.find? fun name => d.isHtml name id with
      | some name => some name
      | none =>
          let hides (e : ElementName) : Bool :=
            isSpecial e && !htmlClass ["address", "div", "p"] e
          if (d.nameOf? id).any hides then none else itemToClose? d names outer

/-- Opens an item, which ends the item before it. -/
def openItem (tag : TagToken) : Step := do
  forbidFrameset
  let s ← get
  let names := if tag.name = "li" then ["li"] else ["dd", "dt"]
  match itemToClose? s.document names s.opened with
  | some name =>
      closeImpliedExcept name
      popThroughNamed name
  | none => pure ()
  openBlock tag

/-- Opens text that goes on to the end. -/
def openPlain (tag : TagToken) : Step := do
  closeParagraphInScope
  let _ ← insert tag
  modify fun s => { s with content := .plain }
  done

def openButton (tag : TagToken) : Step := do
  if ← inScopeNamed endsScope "button" then
    closeImplied
    popThroughNamed "button"
  reopenFormatting
  let _ ← insert tag
  forbidFrameset
  done

def closeBlock (name : String) : Step := do
  if ← inScopeNamed endsScope name then
    closeImplied
    popThroughNamed name
  done

def closeForm : Step := do
  if ← anyOpen "template" then closeBlock "form"
  else
    let s ← get
    set { s with form := none }
    match s.form with
    | some form =>
        if scopeHas s.document endsScope (· == form) s.opened then
          closeImplied
          removeOpened form
    | none => pure ()
    done

/-- Closes the paragraph; without one, an empty one is added. -/
def closeOrAddParagraph : Step := do
  if !(← inScopeNamed endsButtonScope "p") then
    let _ ← insertImplied "p"
  closeParagraph
  done

def closeItem (name : String) : Step := do
  if ← inScopeNamed (if name = "li" then endsListScope else endsScope) name then
    closeImpliedExcept name
    popThroughNamed name
  done

/-- Closes the innermost heading, whatever its level. -/
def closeHeading : Step := do
  if ← inScopeClass endsScope (htmlClass headingNames) then
    closeImplied
    popThrough (htmlClass headingNames)
  done

/-! ## Formatting and objects -/

def openLink (tag : TagToken) : Step := do
  let s ← get
  match (untilMarker s.formatting).find? fun (id, _) => s.document.isHtml "a" id with
  | some (id, _) =>
      closeFormatting "a"
      removeFormatting id
      removeOpened id
  | none => pure ()
  reopenFormatting
  insertFormatting tag
  done

/-- Opens a formatting element. -/
def openFormatting (tag : TagToken) : Step := do
  reopenFormatting
  if tag.name = "nobr" then
    if ← inScopeNamed endsScope "nobr" then
      closeFormatting "nobr"
      reopenFormatting
  insertFormatting tag
  done

/-- Opens an object, whose formatting is its own. -/
def openObject (tag : TagToken) : Step := do
  reopenFormatting
  let _ ← insert tag
  pushMarker
  forbidFrameset
  done

def closeObject (name : String) : Step := do
  if ← inScopeNamed endsScope name then
    closeImplied
    popThroughNamed name
    clearFormatting
  done

/-- Opens a table, which ends the paragraph but in old documents. -/
def openTable (tag : TagToken) : Step := do
  if !(← get).oldRules then closeParagraphInScope
  let _ ← insert tag
  forbidFrameset
  goTo .inTable
  done

def isHiddenInput (tag : TagToken) : Bool :=
  tag.name == "input" && (tag.attributes.find? fun a => a.name == "type".toList).any fun a =>
    a.value.map Char.toLower == "hidden".toList

/-- Adds an element that stands in text and has no content. -/
def addInline (tag : TagToken) : Step := do
  reopenFormatting
  let _ ← insertVoid tag
  if !isHiddenInput tag then forbidFrameset
  done

/-- Adds a rule, which ends the paragraph. -/
def addRule (tag : TagToken) : Step := do
  closeParagraphInScope
  let _ ← insertVoid tag
  forbidFrameset
  done

/-! ## Text that is not read as markup -/

/-- Opens an element whose content is text, with references if it is a field. -/
def openText (tag : TagToken) : Step := do
  if tag.name = "textarea" then
    dropNewline
    forbidFrameset
    openRaw tag (.withReferences tag.name)
  else
    if tag.name = "xmp" then
      closeParagraphInScope
      reopenFormatting
    if tag.name = "xmp" ∨ tag.name = "iframe" then forbidFrameset
    openRaw tag (.raw tag.name)

/-! ## Selection lists and annotations -/

def openSelect (tag : TagToken) : Step := do
  reopenFormatting
  let _ ← insert tag
  forbidFrameset
  let inTable := [Mode.inTable, .inCaption, .inTableBody, .inRow, .inCell].contains (← get).mode
  goTo (if inTable then .inSelectInTable else .inSelect)
  done

/-- Opens an option or a group of options, which ends an option that is open. -/
def openOption (tag : TagToken) : Step := do
  if ← currentNamed "option" then pop
  reopenFormatting
  openElement tag

/-- Opens a part of an annotation, which ends the part before it. -/
def openAnnotation (tag : TagToken) : Step := do
  if ← inScopeNamed endsScope "ruby" then
    if ["rb", "rtc"].contains tag.name then closeImplied else closeImpliedExcept "rtc"
  openElement tag

/-! ## Foreign elements -/

/-- The attributes of a foreign element under their local names. -/
def foreignAttributes (space : Namespace) (attributes : List TagAttribute) : List TagAttribute :=
  attributes.map fun a =>
    let name := String.ofList a.name
    let adjusted :=
      match space with
      | .svg => (svgAttributeNames.lookup name).getD name
      | .mathml => if name = "definitionurl" then "definitionURL" else name
      | .html => name
    { a with name := ((namespacedAttributes.lookup adjusted).getD adjusted).toList }

/-- Opens a foreign element, or adds it if its tag closes itself. -/
def openForeign (space : Namespace) (name : String) (tag : TagToken) : Step := do
  let attributes := foreignAttributes space tag.attributes
  if tag.selfClosing then
    let _ ← insertClosedIn space name attributes
  else
    let _ ← insertIn space name attributes
  done

/-! ## A token in the body -/

/-- Opens an element of no class. -/
def openOrdinary (tag : TagToken) : Step := do
  reopenFormatting
  openElement tag

def startInBody (tag : TagToken) : Step :=
  let isOneOf (names : List String) : Bool := names.contains tag.name
  if tag.name = "html" then mergeRoot tag
  else if tag.name = "body" then mergeBody tag
  else if tag.name = "frameset" then framesetForBody tag
  else if isOneOf headTags then startInHead tag
  else if isOneOf blockTags then openBlock tag
  else if isOneOf headingNames then openHeading tag
  else if isOneOf ["pre", "listing"] then openPreformatted tag
  else if tag.name = "form" then openForm tag
  else if isOneOf ["li", "dd", "dt"] then openItem tag
  else if tag.name = "plaintext" then openPlain tag
  else if tag.name = "button" then openButton tag
  else if tag.name = "a" then openLink tag
  else if tag.name = "nobr" ∨ isOneOf formattingTags then openFormatting tag
  else if isOneOf ["applet", "marquee", "object"] then openObject tag
  else if tag.name = "table" then openTable tag
  else if isOneOf ["area", "br", "embed", "img", "keygen", "wbr", "input"] then addInline tag
  else if isOneOf ["param", "source", "track"] then addVoid tag
  else if tag.name = "hr" then addRule tag
  else if tag.name = "image" then addInline { tag with name := "img" }
  else if isOneOf ["textarea", "xmp", "iframe", "noembed", "noscript"] then openText tag
  else if tag.name = "select" then openSelect tag
  else if isOneOf ["optgroup", "option"] then openOption tag
  else if isOneOf ["rb", "rtc", "rp", "rt"] then openAnnotation tag
  else if tag.name = "math" then openForeign .mathml tag.name tag
  else if tag.name = "svg" then openForeign .svg tag.name tag
  else if isOneOf misplacedTags then done
  else openOrdinary tag

/-- The end tag of the body. -/
def endBody : Step := do
  if ← inScopeNamed endsScope "body" then goTo .afterBody
  done

/-- The end tag of the root element. -/
def endRoot (token : Token) : Step := do
  if ← inScopeNamed endsScope "body" then again .afterBody token else done

def endInBody (tag : TagToken) : Step :=
  let isOneOf (names : List String) : Bool := names.contains tag.name
  if tag.name = "template" then closeTemplate
  else if tag.name = "body" then endBody
  else if tag.name = "html" then endRoot (.endTag tag)
  else if isOneOf blockEndTags then closeBlock tag.name
  else if tag.name = "form" then closeForm
  else if tag.name = "p" then closeOrAddParagraph
  else if isOneOf ["li", "dd", "dt"] then closeItem tag.name
  else if isOneOf headingNames then closeHeading
  else if isOneOf ["a", "nobr"] ∨ isOneOf formattingTags then do
    closeFormatting tag.name
    done
  else if isOneOf ["applet", "marquee", "object"] then closeObject tag.name
  else if tag.name = "br" then addInline ⟨"br", [], tag.selfClosing⟩
  else do
    closeOrdinary tag.name
    done

/-- The end of the file while template elements are open: the innermost ends. -/
def endOfTemplates : Step := do
  if ← anyOpen "template" then
    popThroughNamed "template"
    clearFormatting
    modify fun s => { s with templateModes := s.templateModes.drop 1 }
    again (← resetMode) .endOfFile
  else done

def inBody (token : Token) : Step :=
  match token with
  | .text chars => do
      reopenFormatting
      if !allSpace chars then forbidFrameset
      textHere chars
  | .comment => commentHere
  | .startTag tag => startInBody tag
  | .endTag tag => endInBody tag
  | .endOfFile => do
      if (← get).templateModes.isEmpty then done else endOfTemplates
  | .nul | .doctype _ => done

/-- A token in the content of an element that is read as text. -/
def inText (token : Token) : Step :=
  match token with
  | .text chars => textHere chars
  | .endOfFile => do
      pop
      again (← get).modeToResume token
  | .endTag _ => do
      pop
      goTo (← get).modeToResume
      done
  | _ => done

end Mustache.Markup.Build
