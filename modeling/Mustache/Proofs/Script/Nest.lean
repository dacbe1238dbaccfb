import Mustache.Proofs.Script.Token

/-!
Tokens nested by their brackets.

Brackets say how generated code is to be read before any operator does: `gather`
puts the tokens between two brackets that match into one group, and fails where a
bracket is not matched. So a list of tokens is balanced if it can be gathered, and
a nest that is written out as tokens is gathered into itself.
-/
set_option autoImplicit false

namespace Mustache.Script

/-! ## Brackets -/

/-- A pair of brackets. -/
inductive Bracket where
  | round
  | square
  | curly
  deriving DecidableEq, Repr

/-- The mark that opens a pair. -/
def Bracket.opening : Bracket → String
  | .round => "("
  | .square => "["
  | .curly => "\x7b"

/-- The mark that closes a pair. -/
def Bracket.closing : Bracket → String
  | .round => ")"
  | .square => "]"
  | .curly => "\x7d"

/-- The pair that a token opens. -/
def Token.opens? (t : Token) : Option Bracket :=
  [Bracket.round, .square, .curly].find? fun b => t = .mark b.opening

/-- The pair that a token closes. -/
def Token.closes? (t : Token) : Option Bracket :=
  [Bracket.round, .square, .curly].find? fun b => t = .mark b.closing

/-- Whether a token is no bracket. -/
def Token.isPlain (t : Token) : Bool :=
  t.opens?.isNone && t.closes?.isNone

@[simp] theorem opens?_opening (b : Bracket) : (Token.mark b.opening).opens? = some b := by
  cases b <;> rfl

@[simp] theorem opens?_closing (b : Bracket) : (Token.mark b.closing).opens? = none := by
  cases b <;> rfl

@[simp] theorem closes?_closing (b : Bracket) : (Token.mark b.closing).closes? = some b := by
  cases b <;> rfl

@[simp] theorem isPlain_word (name : String) : (Token.word name).isPlain = true := by
  rfl

@[simp] theorem isPlain_number (n : Nat) : (Token.number n).isPlain = true := by
  rfl

@[simp] theorem isPlain_text (text : String) : (Token.text text).isPlain = true := by
  rfl

/-! ## Nests -/

/-- A token that is no bracket, or what stands between two brackets. -/
inductive Nest where
  | token (t : Token)
  | group (bracket : Bracket) (content : List Nest)

mutual

/-- A nest written out. -/
def Nest.tokens : Nest → List Token
  | .token t => [t]
  | .group b content => .mark b.opening :: (tokensOf content ++ [.mark b.closing])

/-- Nests written out, in order. -/
def tokensOf : List Nest → List Token
  | [] => []
  | n :: ns => n.tokens ++ tokensOf ns

end

mutual

/-- Whether no bracket stands outside the brackets of a group. -/
def Nest.isPlain : Nest → Bool
  | .token t => t.isPlain
  | .group _ content => allPlain content

/-- Whether no bracket stands outside the brackets of groups. -/
def allPlain : List Nest → Bool
  | [] => true
  | n :: ns => n.isPlain && allPlain ns

end

@[simp] theorem tokensOf_nil : tokensOf [] = [] := rfl

@[simp] theorem tokensOf_token (t : Token) (ns : List Nest) :
    tokensOf (.token t :: ns) = t :: tokensOf ns := rfl

@[simp] theorem tokensOf_group (b : Bracket) (content ns : List Nest) :
    tokensOf (.group b content :: ns)
      = .mark b.opening :: (tokensOf content ++ .mark b.closing :: tokensOf ns) := by
  simp [tokensOf, Nest.tokens]

@[simp] theorem tokensOf_append (ms ns : List Nest) :
    tokensOf (ms ++ ns) = tokensOf ms ++ tokensOf ns := by
  induction ms with
  | nil => rfl
  | cons m ms ih => rw [List.cons_append, tokensOf, tokensOf, ih, List.append_assoc]

@[simp] theorem allPlain_append (ms ns : List Nest) :
    allPlain (ms ++ ns) = (allPlain ms && allPlain ns) := by
  induction ms with
  | nil => rfl
  | cons m ms ih => rw [List.cons_append, allPlain, allPlain, ih, Bool.and_assoc]

/-! ## Gathering -/

/-- Puts tokens into groups. `outer` holds the groups that are open, the innermost
first, each with what stands before it; `done` holds what is complete in the
innermost group, the latest first. -/
def gather : (outer : List (Bracket × List Nest)) → (done : List Nest) → List Token →
    Option (List Nest)
  | [], done, [] => some done.reverse
  | _ :: _, _, [] => none
  | outer, done, t :: ts =>
      match t.opens?, t.closes?, outer with
      | some b, _, outer => gather ((b, done) :: outer) [] ts
      | none, none, outer => gather outer (.token t :: done) ts
      | none, some b, (open', before) :: outer =>
          if b = open' then gather outer (.group b done.reverse :: before) ts else none
      | none, some _, [] => none

variable {outer : List (Bracket × List Nest)} {done : List Nest} {ts : List Token}

/-- An opening bracket begins a group. -/
theorem gather_opening (b : Bracket) :
    gather outer done (.mark b.opening :: ts) = gather ((b, done) :: outer) [] ts := by
  simp [gather]

theorem gather_closing (b : Bracket) (before : List Nest) :
    gather ((b, before) :: outer) done (.mark b.closing :: ts)
      = gather outer (.group b done.reverse :: before) ts := by
  simp [gather]

/-- Any other token is a part of the innermost group. -/
theorem gather_plain {t : Token} (h : t.isPlain = true) :
    gather outer done (t :: ts) = gather outer (.token t :: done) ts := by
  obtain ⟨hopen, hclose⟩ := Bool.and_eq_true_iff.mp h
  rw [Option.isNone_iff_eq_none] at hopen hclose
  simp [gather, hopen, hclose]

def nests? (ts : List Token) : Option (List Nest) :=
  gather [] [] ts

/-- Whether every bracket among tokens is matched. -/
def Balanced (ts : List Token) : Prop :=
  (nests? ts).isSome

mutual

/-- A nest that is written out is gathered into itself, whatever is open around it
and whatever follows. -/
theorem gather_tokens (n : Nest) (hn : n.isPlain = true) (outer : List (Bracket × List Nest))
    (done : List Nest) (ts : List Token) :
    gather outer done (n.tokens ++ ts) = gather outer (n :: done) ts := by
  cases n with
  | token t =>
      rw [Nest.tokens, List.singleton_append, gather_plain hn]
  | group b content =>
      -- The content is gathered with the group open around it, and the group is then closed.
      rw [Nest.tokens, List.cons_append, gather_opening, List.append_assoc,
        gather_tokensOf content hn, List.singleton_append, gather_closing, List.append_nil,
        List.reverse_reverse]

/-- Nests that are written out are gathered into themselves. -/
theorem gather_tokensOf (ns : List Nest) (hns : allPlain ns = true)
    (outer : List (Bracket × List Nest)) (done : List Nest) (ts : List Token) :
    gather outer done (tokensOf ns ++ ts) = gather outer (ns.reverse ++ done) ts := by
  cases ns with
  | nil => rfl
  | cons n ns =>
      obtain ⟨hn, hns⟩ := Bool.and_eq_true_iff.mp hns
      rw [tokensOf, List.append_assoc, gather_tokens n hn, gather_tokensOf ns hns,
        List.reverse_cons, List.append_assoc, List.singleton_append]

end

theorem nests?_tokensOf {ns : List Nest} (hns : allPlain ns = true) :
    nests? (tokensOf ns) = some ns := by
  have h := gather_tokensOf ns hns [] [] []
  rw [List.append_nil, List.append_nil] at h
  rw [nests?, h, gather, List.reverse_reverse]

theorem balanced_tokensOf {ns : List Nest} (hns : allPlain ns = true) : Balanced (tokensOf ns) := by
  rw [Balanced, nests?_tokensOf hns]
  rfl

end Mustache.Script
