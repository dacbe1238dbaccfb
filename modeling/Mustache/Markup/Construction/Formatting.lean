import Mustache.Markup.Construction.State

/-!
Formatting elements.

Formatting that is open where a block starts or ends is opened again in the next
block, and an end tag of formatting that crosses a block splits the block's
content. The list of formatting elements remembers what to open again, up to a
marker, which stands where an element begins whose formatting is its own.
-/
set_option autoImplicit false

namespace Mustache.Markup.Build

/-! ## The list -/

/-- Puts a marker on the list. -/
def pushMarker : Build PUnit :=
  modify fun s => { s with formatting := .marker :: s.formatting }

/-- The list without its entries up to and including the latest marker. -/
def afterMarker : List FormattingEntry → List FormattingEntry
  | [] => []
  | .marker :: rest => rest
  | .element .. :: rest => afterMarker rest

/-- Forgets the formatting up to the latest marker. -/
def clearFormatting : Build PUnit :=
  modify fun s => { s with formatting := afterMarker s.formatting }

/-- The entries up to the latest marker, the latest first. -/
def untilMarker : List FormattingEntry → List (NodeId × TagToken)
  | [] | .marker :: _ => []
  | .element id tag :: rest => (id, tag) :: untilMarker rest

def FormattingEntry.isOf (id : NodeId) : FormattingEntry → Bool
  | .marker => false
  | .element other _ => other == id

/-- Whether an element is on the list. -/
def isFormatting (id : NodeId) : Build Bool := do
  pure ((← get).formatting.any (FormattingEntry.isOf id))

/-- Takes an element off the list. -/
def removeFormatting (id : NodeId) : Build PUnit :=
  modify fun s => { s with formatting := s.formatting.filter fun e => !FormattingEntry.isOf id e }

/-- Changes the entry of an element. -/
def replaceFormatting (id : NodeId) (entry : FormattingEntry) : Build PUnit :=
  modify fun s => { s with
    formatting := s.formatting.map fun e => if FormattingEntry.isOf id e then entry else e }

/-- Puts an entry behind that of an element, that is, after it in time. -/
def insertFormattingAfter (id : NodeId) (entry : FormattingEntry) : Build PUnit :=
  modify fun s => { s with
    formatting := s.formatting.flatMap fun e =>
      if FormattingEntry.isOf id e then [entry, e] else [e] }

/-- Whether two tags are the same but for the order of their attributes. -/
def sameTag (a b : TagToken) : Bool :=
  a.name == b.name && a.attributes.length == b.attributes.length
    && a.attributes.all b.attributes.contains

/-- Adds and opens a formatting element. The list holds no more than three of the
same; the earliest makes room. -/
def insertFormatting (tag : TagToken) : Build PUnit := do
  let same := (untilMarker (← get).formatting).filter fun (_, old) => sameTag tag old
  if 3 ≤ same.length then
    match same.getLast? with
    | some (earliest, _) => removeFormatting earliest
    | none => pure ()
  let id ← insert tag
  modify fun s => { s with formatting := .element id tag :: s.formatting }

/-! ## Opening again -/

/-- The entries at the front of the list that are not open, the latest first. -/
def notOpen (opened : List NodeId) : List FormattingEntry → List (NodeId × TagToken)
  | [] | .marker :: _ => []
  | .element id tag :: rest =>
      if opened.contains id then [] else (id, tag) :: notOpen opened rest

/-- Opens again the formatting elements that a block has closed, the earliest
first. -/
def reopenFormatting : Build PUnit := do
  let s ← get
  (notOpen s.opened s.formatting).reverse.forM fun (id, tag) => do
    let new ← insert tag
    replaceFormatting id (.element new tag)

/-! ## End tags of other elements -/

/-- The number of open elements inside the innermost one of this name, if no
special element comes before it. -/
def depthOfNamed? (d : Document) (name : String) : List NodeId → Option Nat
  | [] => none
  | id :: outer =>
      if d.isHtml name id then some 0
      else if (d.nameOf? id).any isSpecial then none
      else (depthOfNamed? d name outer).map (· + 1)

/-- Closes the innermost element of this name, if no special element is in the
way. -/
def closeOrdinary (name : String) : Build PUnit := do
  let s ← get
  match depthOfNamed? s.document name s.opened with
  | none => pure ()
  | some depth =>
      -- the elements around the one that is closed stay open
      modify fun s => { s with opened := s.opened.drop (depth + 1) }

/-! ## End tags of formatting elements -/

/-- Where the entry of the copied formatting element goes. -/
inductive Bookmark where
  /-- In the place of the old entry. -/
  | inPlace
  /-- After the entry of an element. -/
  | after (id : NodeId)

/-- The walk from the innermost block up to a formatting element. `between` are
the open elements between the two, the innermost first. Those that are formatting
are copied, and each copy takes what came before as its child; the others, and
all after the third, are closed. -/
def adoptBetween (block : NodeId) (last : NodeId) (bookmark : Bookmark) (count : Nat) :
    List NodeId → Build (NodeId × Bookmark)
  | [] => pure (last, bookmark)
  | node :: outer => do
      let entry := (← get).formatting.find? (FormattingEntry.isOf node)
      match entry with
      | some (.element _ tag) =>
          if 3 < count then do
            removeFormatting node
            removeOpened node
            adoptBetween block last bookmark (count + 1) outer
          else do
            let copy ← makeElement .html tag.name tag.attributes
            modify fun s => { s with
              opened := s.opened.map fun id => if id = node then copy else id }
            replaceFormatting node (.element copy tag)
            let bookmark := if last = block then .after copy else bookmark
            change fun d => d.append copy last
            adoptBetween block copy bookmark (count + 1) outer
      | _ => do
          removeOpened node
          adoptBetween block last bookmark (count + 1) outer

/-- Puts an element right inside another among the open ones. -/
def openInside (outer id : NodeId) : Build PUnit :=
  modify fun s => { s with
    opened := s.opened.flatMap fun o => if o = outer then [id, o] else [o] }

/-- Splits the content of the innermost block that an end tag of formatting
crosses: `element` is the formatting element, `block` that block, `between` the
open elements between them and `ancestor` the one around `element`. -/
def adopt (element : NodeId) (tag : TagToken) (block : NodeId) (between : List NodeId)
    (ancestor : NodeId) : Build PUnit := do
  let (last, bookmark) ← adoptBetween block block .inPlace 1 between
  change fun d => d.detach last
  putNode (← placeFor (some ancestor)) last
  let copy ← makeElement .html tag.name tag.attributes
  change fun d => (d.moveChildren block copy).append block copy
  match bookmark with
  | .inPlace => replaceFormatting element (.element copy tag)
  | .after id =>
      insertFormattingAfter id (.element copy tag)
      removeFormatting element
  removeOpened element
  openInside block copy

/-- One round of the treatment of an end tag of formatting. Gives whether another
round is due. -/
def adoptionRound (name : String) : Build Bool := do
  let s ← get
  match (untilMarker s.formatting).find? fun (_, tag) => tag.name == name with
  | none =>
      closeOrdinary name
      pure false
  | some (element, tag) =>
      if !s.opened.contains element then
        removeFormatting element
        pure false
      else if !scopeHas s.document endsScope (· == element) s.opened then pure false
      else
        -- the open elements inside the formatting element, the innermost first
        let inside := s.opened.takeWhile (· ≠ element)
        let outside := s.opened.drop (inside.length + 1)
        let isBlock (id : NodeId) : Bool := (s.document.nameOf? id).any isSpecial
        match inside.reverse.find? isBlock, outside with
        | some block, ancestor :: _ =>
            let between := ((inside.reverse.takeWhile (· ≠ block))).reverse
            adopt element tag block between ancestor
            pure true
        | _, _ =>
            modify fun s => { s with opened := outside }
            removeFormatting element
            pure false

/-- Rounds of the treatment of an end tag of formatting, at most `rounds`. -/
def adoptionRounds (name : String) : (rounds : Nat) → Build PUnit
  | 0 => pure ()
  | rounds + 1 => do
      if ← adoptionRound name then adoptionRounds name rounds

/-- Treats an end tag of formatting. -/
def closeFormatting (name : String) : Build PUnit := do
  let simple ← (do
    match ← current with
    | none => pure false
    | some id => pure ((← currentNamed name) && !(← isFormatting id)))
  if simple then pop else adoptionRounds name 8

end Mustache.Markup.Build
