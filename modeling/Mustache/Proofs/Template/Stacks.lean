import Mathlib.Tactic.Common
import Mustache.Template.Builder

/-!
The two stacks of a builder.

A builder keeps each open block together with the list around it. Here the open blocks and the
lists under construction are two stacks, which are pushed and popped one after the other, and a
close tag may be refused between the two. Nothing in the type keeps them in step: a list may be
missing where a node is to be added, or where one is to be taken away. In every state that calls
lead to, also behind calls that were refused, the stacks are those of a builder (`call_stacks`
for one call, `run_stacks` for a row of them), so that there is one list more than there are
open blocks, and no list is ever missing (`stacks_in_step`).
-/
set_option autoImplicit false

namespace Mustache

/-! ## Calls -/

/-- What can be asked of a builder. -/
inductive Call where
  | literal (text : List Char)
  | node (node : Node)
  | tag (tag : Tag)

/-- What is done with a list that is not there. -/
inductive Mishap where
  /-- A node is added to a list at a place below the first. -/
  | noBody
  /-- An empty list is taken for the one that is missing. -/
  | standIn
  deriving DecidableEq, Repr

/-! ## Two stacks -/

/-- A partly built tree as two stacks, with the innermost block and list first. Lists hold
their nodes in order. -/
structure Stacks where
  scopes : ScopeStack
  bodies : List (List Node)

namespace Stacks

/-- The stacks that nothing has been asked of: no block is open, and the root list is empty. -/
def fresh : Stacks := ⟨[], [[]]⟩

/-- Adds a node to the innermost list. -/
def addNode (s : Stacks) (node : Node) : Except Mishap Stacks :=
  match s.bodies with
  | [] => .error .noBody
  | body :: outer => .ok ⟨s.scopes, (body ++ [node]) :: outer⟩

/-- Opens a block, with a list of its own. -/
def openBlock (s : Stacks) (kind : BlockKind) (expression : String) (location : Location) :
    Stacks :=
  ⟨s.scopes.push kind expression location, [] :: s.bodies⟩

/-- Takes the innermost list away. -/
def takeBody (s : Stacks) : Except Mishap (List Node × Stacks) :=
  match s.bodies with
  | [] => .error .standIn
  | body :: outer => .ok (body, ⟨s.scopes, outer⟩)

/-- Acts on a tag that stands at `location` and names `expression`: the answer, and the stacks
behind it. -/
def act (file : String) (sigil : Sigil) (expression : String) (location : Location) (s : Stacks) :
    Except Mishap (Except TemplateError PUnit × Stacks) :=
  match sigil with
  | .blockOpen => .ok (.ok ⟨⟩, s.openBlock .normal expression location)
  | .invertedOpen => .ok (.ok ⟨⟩, s.openBlock .inverted expression location)
  | .blockClose =>
      match s.scopes.pop? with
      | none => .ok (.error (.unexpectedClose expression file location), s)
      -- The block is popped before its list is.
      | some (scope, scopes) => do
          let (body, outer) ← takeBody ⟨scopes, s.bodies⟩
          let node := .block scope.kind scope.expression body scope.location
          return (.ok ⟨⟩, ← outer.addNode node)
  | .inclusion => do return (.ok ⟨⟩, ← s.addNode (.inclusion expression location))
  | .comment => .ok (.ok ⟨⟩, s)
  | .raw => do return (.ok ⟨⟩, ← s.addNode (.interpolation expression false location))
  | .plain => do return (.ok ⟨⟩, ← s.addNode (.interpolation expression true location))

/-- Does what is asked: the answer, and the stacks behind it. -/
def call (source : List Char) (file : String) (s : Stacks) :
    Call → Except Mishap (Except TemplateError PUnit × Stacks)
  | .literal text =>
      if text.isEmpty then .ok (.ok ⟨⟩, s)
      else do return (.ok ⟨⟩, ← s.addNode (.text (String.ofList text)))
  | .node node => do return (.ok ⟨⟩, ← s.addNode node)
  | .tag tag => s.act file tag.sigil (String.ofList tag.expression) (tag.location source)

/-- Does one thing after another, whatever the answers are. -/
def run (source : List Char) (file : String) (s : Stacks) :
    List Call → Except Mishap (List (Except TemplateError PUnit) × Stacks)
  | [] => .ok ([], s)
  | c :: calls => do
      let (answer, next) ← s.call source file c
      let (answers, last) ← next.run source file calls
      return (answer :: answers, last)

/-- The finished tree; a block that is still open is an error. -/
def finish (file : String) (s : Stacks) : Except Mishap (Except TemplateError (List Node)) :=
  if s.scopes.isEmpty then do
    let (body, _) ← s.takeBody
    return .ok body
  else .ok (.error (.missingEnd file))

structure InStep (s : Stacks) : Prop where
  /-- Besides the root list there is one for each open block. -/
  length : s.bodies.length = s.scopes.depth + 1
  /-- The blocks record their depths, from the outermost on. -/
  numbered : ∀ i scope, s.scopes.reverse[i]? = some scope → scope.depth = i + 1

end Stacks

/-! ## One call -/

namespace Builder

variable (source : List Char) (file : String)

/-- The stacks that a builder keeps as one. -/
def twoStacks (b : Builder) : Stacks :=
  ⟨b.scopes, b.bodies.map List.reverse⟩

/-- Does what is asked. -/
def call (b : Builder) : Call → Except TemplateError Builder
  | .literal text => .ok (b.addLiteral text)
  | .node node => .ok (b.addNode node)
  | .tag tag => b.addTag source file tag

/-- The builder behind a call; one that is refused changes nothing. -/
def after (b : Builder) (c : Call) : Builder :=
  match b.call source file c with
  | .ok next => next
  | .error _ => b

theorem addNode_stacks (b : Builder) (node : Node) :
    b.twoStacks.addNode node = .ok (b.addNode node).twoStacks := by
  have hbody : (node :: b.body).reverse = b.body.reverse ++ [node] := List.reverse_cons
  have hstacks : (b.addNode node).twoStacks
      = ⟨b.scopes, (node :: b.body).reverse :: (b.enclosing.map Prod.snd).map List.reverse⟩ := rfl
  rw [hstacks, hbody]
  rfl

/-- A block that is closed has a list of its own, and there is a list around it. -/
theorem closeBlock_stacks {b closed : Builder} (h : b.closeBlock? = some closed) :
    ∃ scope scopes body outer, b.twoStacks.scopes.pop? = some (scope, scopes)
      ∧ Stacks.takeBody ⟨scopes, b.twoStacks.bodies⟩ = .ok (body, outer)
      ∧ outer.addNode (.block scope.kind scope.expression body scope.location)
        = .ok closed.twoStacks := by
  obtain ⟨body, enclosing⟩ := b
  cases enclosing with
  | nil => cases h
  | cons block rest =>
      obtain ⟨scope, around⟩ := block
      cases h
      -- What is below the list of the block are the stacks of the builder around it.
      have houter := addNode_stacks ⟨around, rest⟩
        (.block scope.kind scope.expression body.reverse scope.location)
      exact ⟨scope, rest.map Prod.fst, body.reverse, (⟨around, rest⟩ : Builder).twoStacks, rfl, rfl,
        houter⟩

/-- What a builder answers to a tag, its stacks answer, and they become the stacks of what
the builder becomes. -/
theorem act_stacks (b : Builder) (sigil : Sigil) (expression : String) (location : Location) :
    b.twoStacks.act file sigil expression location
      = .ok (match b.act file sigil expression location with
        | .ok next => (.ok ⟨⟩, next.twoStacks)
        | .error error => (.error error, b.twoStacks)) := by
  cases sigil with
  | blockOpen | invertedOpen | comment => rfl
  | inclusion | raw | plain =>
      rw [Stacks.act, addNode_stacks]
      rfl
  | blockClose =>
      rw [Stacks.act, act]
      cases hclosed : b.closeBlock? with
      | none =>
          have hnone : b.twoStacks.scopes.pop? = none := by
            obtain ⟨body, enclosing⟩ := b
            cases enclosing with
            | nil => rfl
            | cons block rest => cases hclosed
          rw [hnone]
      | some closed =>
          obtain ⟨scope, scopes, body, outer, hpop, htake, hadd⟩ := closeBlock_stacks hclosed
          simp only [hpop, htake, bind, Except.bind, hadd]
          rfl

/-- What a builder answers to a call, its stacks answer, and they become the stacks of what
the builder becomes. -/
theorem call_stacks (b : Builder) (c : Call) :
    b.twoStacks.call source file c
      = .ok ((b.call source file c).map fun _ => ⟨⟩, (b.after source file c).twoStacks) := by
  cases c with
  | literal text =>
      rw [Stacks.call, after, call, addLiteral]
      split_ifs
      · rfl
      · rw [addNode_stacks]
        rfl
  | node node =>
      rw [Stacks.call, addNode_stacks]
      rfl
  | tag tag =>
      rw [Stacks.call, act_stacks, after, call, addTag]
      cases b.act file tag.sigil (String.ofList tag.expression) (tag.location source) <;> rfl

/-! ## The depths of blocks -/

/-- Whether each open block records its depth. -/
def Numbered (b : Builder) : Prop :=
  ∀ i scope, b.scopes.reverse[i]? = some scope → scope.depth = i + 1

theorem numbered_empty : empty.Numbered := by
  intro i scope h
  cases h

theorem Numbered.openBlock {b : Builder} (h : b.Numbered) (kind : BlockKind) (expression : String)
    (location : Location) : (b.openBlock kind expression location).Numbered := by
  intro i scope hscope
  have hscopes : (b.openBlock kind expression location).scopes.reverse
      = b.scopes.reverse ++ [⟨b.depth + 1, kind, expression, location⟩] := List.reverse_cons
  rw [hscopes, List.getElem?_append] at hscope
  split_ifs at hscope with hi
  · exact h i scope hscope
  · rw [List.getElem?_singleton] at hscope
    split_ifs at hscope with hzero
    cases hscope
    have hdepth : b.depth = b.scopes.length := rfl
    rw [List.length_reverse] at hi hzero
    dsimp only
    omega

/-- The blocks around one that is closed keep their depths. -/
theorem Numbered.closeBlock {b closed : Builder} (h : b.Numbered)
    (hclosed : b.closeBlock? = some closed) : closed.Numbered := by
  obtain ⟨body, enclosing⟩ := b
  cases enclosing with
  | nil => cases hclosed
  | cons block rest =>
      cases hclosed
      intro i scope hscope
      have hscopes : (⟨body, block :: rest⟩ : Builder).scopes.reverse
          = (rest.map Prod.fst).reverse ++ [block.1] := List.reverse_cons
      have hinner : (rest.map Prod.fst).reverse[i]? = some scope := hscope
      refine h i scope ?_
      rw [hscopes, List.getElem?_append_left (List.getElem?_eq_some_iff.mp hinner).1]
      exact hinner

/-- A tag that is acted on leaves the blocks with their depths. -/
theorem Numbered.act {b next : Builder} (h : b.Numbered) {sigil : Sigil} {expression : String}
    {location : Location} (hact : b.act file sigil expression location = .ok next) :
    next.Numbered := by
  cases sigil with
  | blockOpen | invertedOpen =>
      cases hact
      exact h.openBlock _ expression location
  | inclusion | raw | plain | comment =>
      cases hact
      exact h
  | blockClose =>
      rw [Builder.act] at hact
      cases hclosed : b.closeBlock? with
      | none =>
          rw [hclosed] at hact
          cases hact
      | some closed =>
          rw [hclosed] at hact
          cases hact
          exact h.closeBlock hclosed

/-- A call leaves the blocks with their depths. -/
theorem Numbered.after {b : Builder} (h : b.Numbered) (c : Call) :
    (b.after source file c).Numbered := by
  cases c with
  | literal text =>
      rw [Builder.after, call, addLiteral]
      split_ifs <;> exact h
  | node node => exact h
  | tag tag =>
      rw [Builder.after, call, addTag]
      cases hact : b.act file tag.sigil (String.ofList tag.expression) (tag.location source) with
      | ok next => exact h.act file hact
      | error error => exact h

/-! ## A row of calls -/

/-- The builder behind a row of calls. -/
def afterAll (b : Builder) (calls : List Call) : Builder :=
  calls.foldl (after source file) b

/-- A row of calls is answered, and leads from the stacks of a builder to the stacks of the
builder behind them. -/
theorem run_stacks (b : Builder) (calls : List Call) :
    ∃ answers, b.twoStacks.run source file calls
      = .ok (answers, (b.afterAll source file calls).twoStacks) := by
  induction calls generalizing b with
  | nil => exact ⟨[], rfl⟩
  | cons c calls ih =>
      obtain ⟨answers, hrest⟩ := ih (b.after source file c)
      refine ⟨(b.call source file c).map (fun _ => ⟨⟩) :: answers, ?_⟩
      rw [Stacks.run, call_stacks]
      simp only [bind, Except.bind, hrest]
      rfl

theorem Numbered.afterAll {b : Builder} (h : b.Numbered) (calls : List Call) :
    (b.afterAll source file calls).Numbered := by
  induction calls generalizing b with
  | nil => exact h
  | cons c calls ih => exact ih (h.after source file c)

/-- The stacks of a builder are in step if its blocks record their depths. -/
theorem Numbered.inStep {b : Builder} (h : b.Numbered) : b.twoStacks.InStep where
  length := by
    simp [twoStacks, bodies, scopes, ScopeStack.depth]
  numbered := h

/-- What a builder gives in the end, its stacks give. -/
theorem finish_stacks (b : Builder) : b.twoStacks.finish file = .ok (b.finish file) := by
  obtain ⟨body, enclosing⟩ := b
  cases enclosing <;> rfl

/-- Only a close tag without an open block is refused, and it changes nothing. -/
theorem refused_stacks {b : Builder} {tag : Tag} {error : TemplateError} {next : Stacks}
    (h : b.twoStacks.call source file (.tag tag) = .ok (.error error, next)) :
    next = b.twoStacks ∧ b.twoStacks.scopes = [] ∧ tag.sigil = .blockClose
      ∧ error.code = codeUnexpectedClose := by
  rw [Stacks.call, act_stacks] at h
  cases hact : b.act file tag.sigil (String.ofList tag.expression) (tag.location source) with
  | ok after =>
      rw [hact] at h
      cases h
  | error refused =>
      rw [hact] at h
      cases h
      cases hsigil : tag.sigil with
      -- Only a close tag can be refused, and only where no block is open.
      | blockOpen | invertedOpen | inclusion | raw | plain | comment =>
          rw [hsigil] at hact
          cases hact
      | blockClose =>
          rw [hsigil] at hact
          obtain ⟨body, enclosing⟩ := b
          cases enclosing with
          | nil =>
              cases hact
              exact ⟨rfl, rfl, rfl, rfl⟩
          | cons block rest => cases hact

end Builder

/-- The two stacks stay in step, whatever is asked and in whatever order, also behind tags that
were refused: no list is ever missing, there is one more of them than there are open blocks, and
each block records its depth. They hold what a builder holds after the same calls, and give the
tree that it gives. A close tag that is refused leaves both stacks, and all nodes, as they
were. -/
theorem stacks_in_step (source : List Char) (file : String) (calls : List Call) :
    ∃ answers s, Stacks.fresh.run source file calls = .ok (answers, s)
      ∧ s.InStep
      ∧ s = (Builder.empty.afterAll source file calls).twoStacks
      ∧ s.finish file = .ok ((Builder.empty.afterAll source file calls).finish file)
      ∧ ∀ tag, ∃ answer next, s.call source file (.tag tag) = .ok (answer, next)
        ∧ ∀ error, answer = .error error →
          next = s ∧ s.scopes = [] ∧ tag.sigil = .blockClose
            ∧ error.code = codeUnexpectedClose := by
  obtain ⟨answers, hrun⟩ := Builder.empty.run_stacks source file calls
  refine ⟨answers, _, hrun, ?_, rfl, Builder.finish_stacks file _, fun tag => ?_⟩
  · exact (Builder.numbered_empty.afterAll source file calls).inStep
  · have hcall := (Builder.empty.afterAll source file calls).call_stacks source file (.tag tag)
    refine ⟨_, _, hcall, fun error herror => ?_⟩
    rw [herror] at hcall
    exact Builder.refused_stacks source file hcall

/-- A close tag in front of a section, and another one behind it: both are refused, and the
stacks are in step around the section. -/
theorem stacks_in_step_of_stray :
    let stray : Call := .tag ⟨0, "{{/a}}".toList, "/a".toList⟩
    let opening : Call := .tag ⟨6, "{{#b}}".toList, "#b".toList⟩
    ∃ answers s error, Stacks.fresh.run "{{/a}}{{#b}}".toList "t"
        [stray, opening, .literal ['x'], stray] = .ok (answers, s)
      ∧ s.InStep ∧ s.bodies.length = 1
      ∧ s.call "{{/a}}{{#b}}".toList "t" stray = .ok (.error error, s)
      ∧ error.code = codeUnexpectedClose := by
  intro stray opening
  obtain ⟨answers, s, hrun, hstep, hbuilder, -, htags⟩ :=
    stacks_in_step "{{/a}}{{#b}}".toList "t" [stray, opening, .literal ['x'], stray]
  obtain ⟨answer, next, hcall, hrefused⟩ := htags ⟨0, "{{/a}}".toList, "/a".toList⟩
  have hanswer : answer = .error (.unexpectedClose "a" "t" ⟨1, 1⟩) := by
    rw [hbuilder] at hcall
    cases hcall
    rfl
  obtain ⟨hnext, -, -, hcode⟩ := hrefused _ hanswer
  rw [hanswer, hnext] at hcall
  refine ⟨answers, s, _, hrun, hstep, ?_, hcall, hcode⟩
  rw [hbuilder]
  rfl

end Mustache
