import Mustache.Markup.Construction.Foreign
import Mustache.Markup.Portion

/-!
Reading a document.

`readDocument` reads markup as a document: any text is one, whatever is wrong with
it. It gives the document tree, and whether text was found in a table that may not
stand there.
-/
set_option autoImplicit false

namespace Mustache.Markup

open Build

/-- Reads markup into the document. The way in which content is read is asked for
anew after each tag, since the element decides it. Every round takes at least one
character, or is the last. -/
def readInto (source : Source) : (fuel : Nat) → List Char → Build PUnit
  | 0, _ => pure ()
  | fuel + 1, s => do
      let content := (← get).content
      modify fun state => { state with content := .normal }
      let (tokens, rest) := nextTokens content (← inForeignElement) s
      tokens.forM feed
      let rest := if content = .script then source.behindScript rest else rest
      if !tokens.contains .endOfFile then readInto source fuel rest

/-- Reads markup as a document. -/
def readDocument (s : List Char) : Reading :=
  let source := Source.ofText s
  let state := ((readInto source (source.text.length + 2) source.text).run .initial).2
  ⟨state.document.toTrees, state.foundTableText⟩

end Mustache.Markup
