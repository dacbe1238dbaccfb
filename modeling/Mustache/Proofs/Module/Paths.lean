import Mathlib.Data.List.Basic
import Mustache.Proofs.Data.Escaping
import Mustache.Proofs.Data.Merging
import Mustache.Proofs.Script.Execution

/-!
Paths that a module walks.

A generated module walks a path with a function of its own, key by key, and the renderer with
another one. They lead to the same value where each key that is looked up in an array or a
string is spelled as places are: a key with a sign or with leading zeros is a place for the
renderer and nothing for a module. The loop of the function takes one key in each round; what
it holds behind a round is what the walk has led to so far.
-/
set_option autoImplicit false

namespace Mustache

open Json Text Script

namespace Routine

/-! ## Parts of an expression -/

theorem splitAtChar_eq_splitOn (c : Char) (s : List Char) : splitAtChar c s = s.splitOn c := by
  induction s with
  | nil => rfl
  | cons d s ih =>
      rw [splitAtChar, ih, List.splitOn_cons_eq_if_modifyHead]
      by_cases h : d = c
      · simp [h]
      · rw [if_neg h, if_neg (by simpa using h)]
        cases hparts : s.splitOn c with
        | nil => exact absurd hparts (List.splitOn_ne_nil c s)
        | cons part parts => rfl

/-- The first part of a text ends where the separator stands first. -/
theorem exists_splitOn (c : Char) (s : List Char) :
    ∃ rest, s.splitOn c = s.takeWhile (· ≠ c) :: rest := by
  induction s with
  | nil => exact ⟨[], rfl⟩
  | cons d s ih =>
      obtain ⟨rest, hrest⟩ := ih
      rw [List.splitOn_cons_eq_if_modifyHead, hrest]
      by_cases h : d = c
      · exact ⟨s.takeWhile (· ≠ c) :: rest, by simp [h]⟩
      · exact ⟨rest, by simp [h]⟩

/-- The first unit of a text is a point if and only if its first character is. -/
theorem exists_units_cons (c : Char) (s : List Char) :
    ∃ d rest, units (c :: s) = d :: rest ∧ (d = '.' ↔ c = '.') := by
  rw [units, List.flatMap_cons, unitsOf]
  split_ifs with hc
  · exact ⟨c, _, rfl, Iff.rfl⟩
  · refine ⟨replacement, _, rfl, iff_of_false (by decide) ?_⟩
    rintro rfl
    exact hc (by decide)

/-! ## Keys -/

/-- Whether a key that is read as a place is spelled as that place is. -/
def SpelledPlainly (key : String) : Prop :=
  ∀ i, readIndex? key.toList = some i → key.toList = decimal i

instance (key : String) : Decidable (SpelledPlainly key) :=
  match h : readIndex? key.toList with
  | none => .isTrue fun i hi => by rw [h] at hi; cases hi
  | some i => decidable_of_iff (key.toList = decimal i)
      ⟨fun heq j hj => by rw [h] at hj; cases hj; exact heq, fun hplain => hplain i h⟩

/-- A key that is spelled plainly finds in a list what the renderer finds. -/
theorem ownIndexed?_eq {things : List Value} {key : String}
    (hsize : things.length ≤ UInt64.size) (hplain : SpelledPlainly key) :
    ownIndexed? things key = indexed? things key := by
  rw [ownIndexed?, indexed?]
  split_ifs with hlength
  · rfl
  · -- A key that reads as an index is spelled as that index, and so finds the same thing under it.
    cases hread : readIndex? key.toList with
    | some i =>
        have hkey : key = String.ofList (decimal (0 + i)) := by
          rw [Nat.zero_add, ← hplain i hread, String.ofList_toList]
        rw [hkey, get?_numbered]
        rfl
    | none =>
        rw [get?_numbered_eq_none fun i hi heq => ?_]
        · rfl
        · rw [Nat.zero_add] at heq
          rw [heq, readIndex?_decimal (by omega)] at hread
          cases hread

/-- Whether a key finds in a value what the renderer finds: any key does in an object, and in
an array or a string one that is spelled plainly, if 64 bits can count the places. -/
def FindsAlike (v : Value) (key : String) : Prop :=
  match v with
  | .arr items => items.length ≤ UInt64.size ∧ SpelledPlainly key
  | .str s => (units s.toList).length ≤ UInt64.size ∧ SpelledPlainly key
  | .null | .bool _ | .num _ | .obj _ => True

theorem ownProperty?_eq {v : Value} {key : String} (h : FindsAlike v key) :
    ownProperty? v key = property? v key := by
  cases v with
  | null | bool _ | num _ | obj _ => rfl
  | arr items => exact ownIndexed?_eq h.1 h.2
  | str s => exact ownIndexed?_eq (by rw [List.length_map]; exact h.1) h.2

/-! ## Walks -/

/-- One round of a module's loop: it stays where nothing can be looked up. -/
def ownStep (current : Option Value) (key : String) : Option Value :=
  match current with
  | none => none
  | some .null => some .null
  | some v => ownProperty? v key

/-- Where nothing can be looked up, a walk stays. -/
theorem foldl_ownStep_of_absent {current : Option Value} {keys : List String}
    (h : (Thing.value current).isPresent = false) : keys.foldl ownStep current = current := by
  induction keys with
  | nil => rfl
  | cons key rest ih =>
      have hstep : ownStep current key = current := by
        cases current with
        | none => rfl
        | some v =>
            cases v with
            | null => rfl
            | bool _ | num _ | str _ | arr _ | obj _ => cases h
      rw [List.foldl_cons, hstep, ih]

/-- Whether each key of a walk finds what the renderer finds. -/
def WalksAlike : (current : Option Value) → List String → Prop
  | _, [] => True
  | current, key :: rest =>
      (∀ v, current = some v → FindsAlike v key) ∧ WalksAlike (walkStep current key) rest

/-- A module's walk leads to where the renderer's does. -/
theorem foldl_ownStep {current : Option Value} {keys : List String}
    (h : WalksAlike current keys) : keys.foldl ownStep current = keys.foldl walkStep current := by
  induction keys generalizing current with
  | nil => rfl
  | cons key rest ih =>
      obtain ⟨hkey, hrest⟩ := h
      have hstep : ownStep current key = walkStep current key := by
        cases current with
        | none => rfl
        | some v =>
            have hfound := ownProperty?_eq (hkey v rfl)
            cases v with
            | null => rfl
            | bool _ | num _ | str _ | arr _ | obj _ => exact hfound
      rw [List.foldl_cons, List.foldl_cons, hstep, ih hrest]

/-! ## The loop -/

/-- Keys as a list that a variable holds. -/
def keyList (keys : List String) : Thing :=
  .of (.arr (keys.map .str))

section

variable {functions : Functions} {env : Environment} {current : Option Value}

theorem eval_keysLeft {keys : List String} (hattrs : env "attrs" = some (keyList keys)) :
    (Expression.binary .above (.member (.name "attrs") "length") (.number 0)).eval functions env
      = some (.of (.bool (!keys.isEmpty)), env) := by
  have hlength : (quantityOf (some (.ofNat (keys.map Value.str).length))).isPositive
      = !keys.isEmpty := by
    cases keys with
    | nil => rfl
    | cons key rest => exact decide_eq_true (by rw [List.length_map, List.length_cons]; omega)
  rw [← hlength]
  simp only [Expression.eval, hattrs]
  rfl

/-- Whether something can be looked up. -/
theorem eval_isPresent (hobj : env "obj" = some (.value current)) :
    (Expression.binary .differLoosely (.name "obj") .null).eval functions env
      = some (.of (.bool (Thing.value current).isPresent), env) := by
  simp only [Expression.eval, hobj]
  rfl

/-- What a round leaves behind. -/
def advance (env : Environment) (next : Option Value) (rest : List String) : Environment :=
  (env.bind "attrs" (keyList rest)).bind "obj" (.value next)

/-- A round takes a key and looks it up. -/
theorem eval_lookUp {key : String} {rest : List String} (hobj : env "obj" = some (.value current))
    (hpresent : (Thing.value current).isPresent = true)
    (hattrs : env "attrs" = some (keyList (key :: rest))) :
    (Expression.assign "obj" (.item (.name "obj") (.shift "attrs"))).eval functions env
      = some (.value (ownStep current key), advance env (ownStep current key) rest) := by
  have hshift : (Expression.shift "attrs").eval functions env
      = some (.of (.str key), env.bind "attrs" (keyList rest)) := by
    rw [Expression.eval, hattrs]
    rfl
  have hproperty : (Thing.value current).property? key = some (.value (ownStep current key)) := by
    cases current with
    | none => cases hpresent
    | some v =>
        cases v with
        | null => cases hpresent
        | bool _ | num _ | str _ | arr _ | obj _ => rfl
  have hkey : printed (some (.str key)) = key := rfl
  have hbound : env.bind "attrs" (keyList rest) "obj" = some (.value current) := hobj
  simp only [Expression.eval, hobj, Option.bind_eq_bind, Option.bind_some]
  rw [Expression.eval] at hshift
  rw [hshift]
  simp only [Thing.of, Option.bind_some, hkey, hproperty, hbound]
  rfl

/-- The last part of the test of a round: whether something was found. -/
theorem eval_round {key : String} {rest : List String} (hobj : env "obj" = some (.value current))
    (hpresent : (Thing.value current).isPresent = true)
    (hattrs : env "attrs" = some (keyList (key :: rest))) :
    (Expression.binary .differ (.typeOf (.assign "obj" (.item (.name "obj") (.shift "attrs"))))
        (.text "undefined")).eval functions env
      = some (.of (.bool (ownStep current key).isSome),
          advance env (ownStep current key) rest) := by
  have hfound : (!decide (typeName (ownStep current key) = "undefined"))
      = (ownStep current key).isSome := by
    cases ownStep current key with
    | none => rfl
    | some v => cases v <;> rfl
  rw [Expression.eval, Expression.eval, eval_lookUp hobj hpresent hattrs, ← hfound]
  rfl

/-- A loop that walks a path leads to where its keys lead, if it has a round for each of them
and one for the end. It changes no other variable than the two it walks with. -/
theorem spin_walking {rounds : Nat} {keys : List String} (hobj : env "obj" = some (.value current))
    (hattrs : env "attrs" = some (keyList keys)) (hrounds : keys.length < rounds) :
    ∃ behind, spin functions walking rounds env = some behind
      ∧ behind "obj" = some (.value (keys.foldl ownStep current))
      ∧ ∀ name, name ≠ "obj" → name ≠ "attrs" → behind name = env name := by
  induction keys generalizing env current rounds with
  | nil =>
      obtain ⟨rounds, rfl⟩ := Nat.exists_eq_add_of_lt hrounds
      have htest : walking.eval functions env = some (.of (.bool false), env) :=
        eval_and_of_false (eval_and_of_false (eval_keysLeft hattrs) rfl) rfl
      refine ⟨env, ?_, hobj, fun _ _ _ => rfl⟩
      rw [spin, htest]
      rfl
  | cons key rest ih =>
      obtain ⟨rounds, rfl⟩ : ∃ more, rounds = more + 1 := ⟨rounds - 1, by omega⟩
      have hpresence : (Expression.binary .and
            (.binary .above (.member (.name "attrs") "length") (.number 0))
            (.binary .differLoosely (.name "obj") .null)).eval functions env
          = some (.of (.bool (Thing.value current).isPresent), env) :=
        (eval_and_of_true (eval_keysLeft hattrs) rfl).trans (eval_isPresent hobj)
      cases hpresent : (Thing.value current).isPresent with
      -- Nothing can be looked up any more, whatever keys are left.
      | false =>
          rw [hpresent] at hpresence
          have htest : walking.eval functions env = some (.of (.bool false), env) :=
            eval_and_of_false hpresence rfl
          refine ⟨env, ?_, ?_, fun _ _ _ => rfl⟩
          · rw [spin, htest]
            rfl
          · rw [foldl_ownStep_of_absent hpresent, hobj]
      -- A key is taken, and the loop goes on if it found something.
      | true =>
          rw [hpresent] at hpresence
          have htest : walking.eval functions env = _ :=
            (eval_and_of_true hpresence rfl).trans (eval_round hobj hpresent hattrs)
          have hkept (name : String) (hname : name ≠ "obj") (hname' : name ≠ "attrs") :
              advance env (ownStep current key) rest name = env name :=
            (if_neg hname).trans (if_neg hname')
          rw [spin, htest, List.foldl_cons]
          cases hfound : ownStep current key with
          | none =>
              rw [hfound] at hkept
              refine ⟨advance env none rest, rfl, ?_, hkept⟩
              rw [foldl_ownStep_of_absent rfl]
              rfl
          | some v =>
              rw [hfound] at hkept
              have hobj' : advance env (some v) rest "obj" = some (.value (some v)) := rfl
              have hattrs' : advance env (some v) rest "attrs" = some (keyList rest) := rfl
              obtain ⟨behind, hrun, hled, hsame⟩ :=
                ih hobj' hattrs' (Nat.lt_of_succ_lt_succ hrounds)
              exact ⟨behind, hrun, hled, fun name hname hname' =>
                (hsame name hname hname').trans (hkept name hname hname')⟩

end

/-! ## The end of a lookup -/

section

variable {functions : Functions} {rounds : Nat} {env : Environment} {found e : Option Value}

theorem eval_hasType {name : String} (kind : String) (h : env name = some (.value found)) :
    (hasType (.name name) kind).eval functions env
      = some (.of (.bool (decide (typeName found = kind))), env) := by
  rw [hasType, Expression.eval, Expression.eval, Expression.eval, h]
  rfl

theorem eval_replace {object : Expression} {s : String} (c : Char) (replacement : String)
    (h : object.eval functions env = some (.of (.str s), env))
    (hdollar : '$' ∉ replacement.toList) :
    (Expression.send object "replace" [.pattern c, .text replacement]).eval functions env
      = some (.of (.str (String.ofList (s.toList.flatMap fun d =>
          if d = c then replacement.toList else [d]))), env) := by
  have hreplace : Thing.replace? s c replacement = some (.of (.str (String.ofList
      (s.toList.flatMap fun d => if d = c then replacement.toList else [d])))) := if_neg hdollar
  simp only [Expression.eval, evalAll, h, Option.bind_eq_bind, Option.bind_some]
  exact congrArg (fun t => t.bind fun t => some (t, env)) hreplace

/-- A string is escaped by replacing four characters one after another. -/
theorem eval_escaped {s : String} (h : env "obj" = some (.of (.str s))) :
    (replaced (.name "obj")
        [('&', "&amp;"), ('<', "&lt;"), ('"', "&quot;"), ('>', "&gt;")]).eval functions env
      = some (.of (.str (String.ofList (escapeMarkup s.toList))), env) := by
  have hobj : (Expression.name "obj").eval functions env = some (.of (.str s), env) := by
    rw [Expression.eval, h]
    rfl
  have hescaped := eval_replace '>' "&gt;"
    (eval_replace '"' "&quot;"
      (eval_replace '<' "&lt;" (eval_replace '&' "&amp;" hobj (by decide)) (by decide))
      (by decide)) (by decide)
  simp only [String.toList_ofList, replacements_eq_escapeMarkup] at hescaped
  exact hescaped

/-- What is returned if nothing is escaped. -/
theorem eval_settled (hobj : env "obj" = some (.value found)) :
    (Expression.choose (hasType (.name "obj") "number") (.name "obj")
        (.paren (.binary .or (.name "obj") (.text "")))).eval functions env
      = some (.value (settle false found), env) := by
  have hname : (Expression.name "obj").eval functions env = some (.value found, env) := by
    rw [Expression.eval, hobj]
    rfl
  have hor : (Expression.binary .or (.name "obj") (.text "")).eval functions env
      = some (if Mustache.truthy found then .value found else .of (.str ""), env) := by
    cases htruthy : Mustache.truthy found with
    | true => exact eval_or_of_true hname htruthy
    | false => exact eval_or_of_false hname htruthy
  have hparen : (Expression.paren (.binary .or (.name "obj") (.text ""))).eval functions env
      = some (if Mustache.truthy found then .value found else .of (.str ""), env) := by
    rw [Expression.eval, hor]
  -- A number is kept, zero included; all else that does not count as true becomes the empty
  -- string.
  rw [eval_choose (eval_hasType "number" hobj), hname, hparen]
  cases found with
  | none => rfl
  | some v =>
      cases v with
      | null | num _ | arr _ | obj _ => rfl
      | bool b => cases b <;> rfl
      | str s =>
          by_cases hs : s = ""
          · subst hs
            rfl
          · have htruthy : Mustache.truthy (some (.str s)) = true := decide_eq_true hs
            rw [htruthy]
            rfl

/-- What is made of the value that a path leads to. Without an argument that says so, nothing
is escaped. -/
theorem run_settling {escape : Bool} (hobj : env "obj" = some (.value found))
    (hescape : env "escape" = some (.value e))
    (he : e = some (.bool escape) ∨ e = none ∧ escape = false) :
    settling.run functions rounds env = some (.returned (.value (settle escape found))) := by
  have hflag : (Expression.binary .same (.name "escape") (.boolean true)).eval functions env
      = some (.of (.bool escape), env) := by
    simp only [Expression.eval, hescape]
    rcases he with rfl | ⟨rfl, rfl⟩
    · cases escape <;> rfl
    · rfl
  have hno : ∀ v : Option Value, decide (typeName v = "function") = false := by
    intro v
    cases v with
    | none => rfl
    | some v => cases v <;> rfl
  have htest := eval_and (eval_hasType "string" hobj) fun _ => hflag
  -- A string is escaped if that is asked for. All else runs past this test and past that for a
  -- function, and is settled.
  by_cases hstring : ∃ s, found = some (.str s) ∧ escape = true
  · obtain ⟨s, rfl, rfl⟩ := hstring
    exact (run_test_of_true htest rfl).trans (runAll_give (eval_escaped hobj))
  · have hplain : (decide (typeName found = "string") && escape) = false
        ∧ settle escape found = settle false found := by
      cases found with
      | none => exact ⟨rfl, rfl⟩
      | some v =>
          cases v with
          | null | bool _ | num _ | arr _ | obj _ => exact ⟨rfl, rfl⟩
          | str s =>
              cases escape with
              | false => exact ⟨rfl, rfl⟩
              | true => exact absurd ⟨s, rfl, rfl⟩ hstring
    rw [hplain.2]
    refine (run_test_of_false htest hplain.1).trans ?_
    refine (run_test_of_false (eval_hasType "function" hobj) (hno found)).trans ?_
    exact runAll_give (eval_settled hobj)

end

/-! ## The lookup -/

/-- The first thing of a list stands under the numeral of zero. -/
theorem ownIndexed?_zero (v : Value) (things : List Value) :
    ownIndexed? (v :: things) (printed (some (.ofNat 0))) = some v := by
  have hzero : printed (some (.ofNat 0)) = String.ofList (decimal (0 + 0)) := by decide +kernel
  have hlength : String.ofList (decimal (0 + 0)) ≠ "length" := by decide +kernel
  rw [hzero, ownIndexed?, if_neg hlength, get?_numbered]
  rfl

section

variable {functions : Functions} {rounds : Nat} {env : Environment} {expression : String}

theorem eval_isPointed {c : Char} {rest : List Char} (hexpression : expression.toList = c :: rest)
    (hattrs : env "attrs" = some (.of (.str expression))) :
    (Expression.binary .same (.item (.name "attrs") (.number 0)) (.text ".")).eval functions env
      = some (.of (.bool (decide (c = '.'))), env) := by
  -- The code looks at a unit of the text, the lookup at a character; both are points or neither.
  obtain ⟨d, more, hunits, hiff⟩ := exists_units_cons c rest
  have hproperty : ownProperty? (.str expression) (printed (some (.ofNat 0)))
      = some (.str (String.singleton d)) := by
    rw [ownProperty?, hexpression, hunits]
    exact ownIndexed?_zero _ _
  have hsame : decide (String.singleton d = ".") = decide (c = '.') := by
    rw [decide_eq_decide, ← hiff]
    refine ⟨fun h => ?_, fun h => by rw [h]; rfl⟩
    have hlists := congrArg String.toList h
    rw [String.toList_singleton] at hlists
    exact (List.cons_eq_cons.mp hlists).1
  rw [← hsame]
  simp only [Expression.eval, hattrs, Option.bind_eq_bind, Option.bind_some, Thing.of,
    Thing.property?, hproperty]
  rfl

/-- The parts of a text as a list that a variable holds. -/
def partList (c : Char) (s : List Char) : Thing :=
  .of (.arr ((s.splitOn c).map fun part => .str (String.ofList part)))

theorem eval_split {object : Expression} {s separator : String} {c : Char}
    (h : object.eval functions env = some (.of (.str s), env)) (hc : separator.toList = [c]) :
    (Expression.send object "split" [.text separator]).eval functions env
      = some (partList c s.toList, env) := by
  have hsplit : Thing.split? s separator = some (partList c s.toList) := by
    rw [Thing.split?, hc]
    rfl
  simp only [Expression.eval, evalAll, h, Option.bind_eq_bind, Option.bind_some]
  exact congrArg (fun t => t.bind fun t => some (t, env)) hsplit

theorem eval_keys (hparts : env "parts" = some (partList ' ' expression.toList)) :
    (Expression.send (.item (.name "parts") (.number 0)) "split" [.text "."]).eval functions env
      = some (keyList (pathKeys expression), env) := by
  obtain ⟨rest, hrest⟩ := exists_splitOn ' ' expression.toList
  have hfirst : (Expression.item (.name "parts") (.number 0)).eval functions env
      = some (.of (.str (String.ofList (expression.toList.takeWhile (· ≠ ' ')))), env) := by
    simp only [Expression.eval, hparts, partList, hrest, List.map_cons, Option.bind_eq_bind,
      Option.bind_some, Thing.of, Thing.property?, ownProperty?, ownIndexed?_zero]
  have hkeys : partList '.' (String.ofList (expression.toList.takeWhile (· ≠ ' '))).toList
      = keyList (pathKeys expression) := by
    rw [partList, keyList, pathKeys, String.toList_ofList, splitAtChar_eq_splitOn, List.map_map]
    rfl
  rw [eval_split (c := '.') hfirst (by decide), hkeys]

end

section

variable {functions : Functions} {rounds : Nat} {members : Members} {expression : String}
  {e : Option Value} {escape : Bool}

/-- What the variables of a lookup stand for at its start. -/
def lookupScope (members : Members) (expression : String) (e : Option Value) : Environment :=
  globals.bindAll safeAccess.parameters
    [.of (.obj members), .of (.str expression), .value e]

/-- A module looks an expression up as the renderer does. -/
theorem runAll_safeAccess (halike : WalksAlike (some (.obj members)) (pathKeys expression))
    (hrounds : (pathKeys expression).length < rounds)
    (he : e = some (.bool escape) ∨ e = none ∧ escape = false) :
    runAll functions rounds safeAccess.body (lookupScope members expression e)
      = some (.returned (.value (lookup (.obj members) expression escape))) := by
  let scope := (lookupScope members expression e).bind "originalObject" (.of (.obj members))
  have hobj : scope "obj" = some (.of (.obj members)) := rfl
  have hattrs : scope "attrs" = some (.of (.str expression)) := rfl
  have hempty : (Expression.not (.name "attrs")).eval functions scope
      = some (.of (.bool (decide (expression = ""))), scope) := by
    have htruthy : (!decide (expression ≠ "")) = decide (expression = "") := by simp
    rw [← htruthy]
    simp only [Expression.eval, hattrs]
    rfl
  rw [safeAccess]
  refine (runAll_declare (t := .of (.obj members)) rfl).trans ?_
  cases hexpression : expression.toList with
  | nil =>
      have hnil : expression = "" := String.toList_eq_nil_iff.mp hexpression
      refine runAll_branch_of_returned ((run_test_of_true hempty (decide_eq_true hnil)).trans ?_)
      have hname : (Expression.name "obj").eval functions scope
          = some (.of (.obj members), scope) := by
        rw [Expression.eval, hobj]
        rfl
      rw [lookup, hexpression]
      exact run_quick hname
  | cons c rest =>
      have hne : expression ≠ "" := fun hnil => by rw [hnil] at hexpression; cases hexpression
      refine (runAll_branch_of_next (run_test_of_false hempty (decide_eq_false hne))).trans ?_
      have hpointed : (Expression.binary .same (.item (.name "attrs") (.number 0))
            (.text ".")).eval functions scope = some (.of (.bool (decide (c = '.'))), scope) :=
        eval_isPointed hexpression hattrs
      by_cases hc : c = '.'
      · subst hc
        refine runAll_branch_of_returned ((run_test_of_true hpointed rfl).trans ?_)
        have hmember : (Expression.item (.name "obj") (.name "attrs")).eval functions scope
            = some (.value (NameMap.get? members expression), scope) := by
          simp only [Expression.eval, hobj]
          rfl
        refine (runAll_give hmember).trans ?_
        rw [lookup, hexpression]
        rfl
      · refine (runAll_branch_of_next
          (run_test_of_false hpointed (decide_eq_false hc))).trans ?_
        have hlookup : lookup (.obj members) expression escape
            = settle escape ((pathKeys expression).foldl ownStep (some (.obj members))) := by
          rw [foldl_ownStep halike]
          unfold lookup
          rw [hexpression]
          split
          · next heq => cases heq
          · next heq => exact absurd (List.cons_eq_cons.mp heq).1 hc
          · rfl
        -- The expression is taken apart, the loop walks the keys, and what it found is settled.
        have hparts : (Expression.send (.name "attrs") "split" [.text " "]).eval functions scope
            = some (partList ' ' expression.toList, scope) :=
          eval_split (by simp only [Expression.eval, hattrs]; rfl) rfl
        refine (runAll_declare hparts).trans ?_
        let parted := scope.bind "parts" (partList ' ' expression.toList)
        let keyed := parted.bind "attrs" (keyList (pathKeys expression))
        have hkeys : (Expression.assign "attrs" (.send (.item (.name "parts") (.number 0)) "split"
              [.text "."])).eval functions parted
            = some (keyList (pathKeys expression), keyed) := by
          rw [Expression.eval, eval_keys rfl]
          rfl
        refine (runAll_perform hkeys).trans ?_
        have hobj' : keyed "obj" = some (.of (.obj members)) := rfl
        have hattrs' : keyed "attrs" = some (keyList (pathKeys expression)) := rfl
        obtain ⟨behind, hspin, hled, hsame⟩ := spin_walking hobj' hattrs' hrounds
        refine (runAll_spin hspin).trans ?_
        have hescape : behind "escape" = some (.value e) :=
          hsame "escape" (by decide) (by decide)
        rw [hlookup]
        exact runAll_branch_of_returned (run_settling hled hescape he)

end

/-! ## The list of a section -/

section

variable {functions : Functions} {rounds : Nat} {members : Members} {expression : String}

/-- The values of a section whose value counts as true. -/
def listedValues : Value → List Value
  | .arr items => items
  | other => [other]

theorem elements_eq (scope : Value) (expression : String) :
    elements scope expression
      = match lookup scope expression false with
        | none => []
        | some v => if v.truthy then listedValues v else [] := by
  rw [elements]
  cases lookup scope expression false with
  | none => rfl
  | some v => cases v <;> rfl

/-- What the variables of a list stand for once its value is known. -/
def listScope (members : Members) (expression : String) (v : Value) : Environment :=
  (globals.bindAll ["data", "value"] [.of (.obj members), .of (.str expression)]).bind
    "dataValue" (.of v)

/-- An array is known by what it inherits from, and any other value is put into a list of its
own. -/
theorem runAll_listing (callable : SectionCallable) {v : Value} (htruthy : v.truthy = true) :
    runAll functions rounds (listing callable) (listScope members expression v)
      = some (.returned (.of (.arr (listedValues v)))) := by
  cases v with
  | null => cases htruthy
  | bool _ | num _ | str _ | arr _ | obj _ => rfl

/-- A module lists what a section is shown for as the renderer does, whatever a lookup gives
it. -/
theorem runAll_toArray (callable : SectionCallable)
    (hlookup : functions "safeAccess" [.of (.obj members), .of (.str expression)]
      = some (.value (lookup (.obj members) expression false))) :
    runAll functions rounds (toArray callable).body
        (globals.bindAll ["data", "value"] [.of (.obj members), .of (.str expression)])
      = some (.returned (.of (.arr (elements (.obj members) expression)))) := by
  let scope := globals.bindAll ["data", "value"] [.of (.obj members), .of (.str expression)]
  have hcall : (Expression.call "safeAccess" [.name "data", .name "value"]).eval functions scope
      = some (.value (lookup (.obj members) expression false), scope) := by
    have hscope : scope "data" = some (.of (.obj members))
        ∧ scope "value" = some (.of (.str expression)) ∧ scope "safeAccess" = none :=
      ⟨rfl, rfl, rfl⟩
    simp only [Expression.eval, evalAll, hscope, Option.bind_eq_bind, Option.bind_some, hlookup]
  refine (runAll_declare hcall).trans (runAll_branch_of_returned ?_)
  rw [elements_eq]
  cases lookup (.obj members) expression false with
  | none => exact (run_test_of_false (t := .value none) rfl rfl).trans (runAll_give rfl)
  | some v =>
      dsimp only
      cases htruthy : v.truthy with
      | false =>
          rw [if_neg Bool.false_ne_true]
          exact (run_test_of_false (t := .of v) rfl htruthy).trans (runAll_give rfl)
      | true =>
          rw [if_pos rfl]
          exact (run_test_of_true (t := .of v) rfl htruthy).trans (runAll_listing callable htruthy)

end

/-! ## Both functions -/

/-- The calls of the function that walks a path. -/
def lookups (rounds : Nat) : Functions
  | "safeAccess", arguments => safeAccess.run (fun _ _ => none) rounds arguments
  | _, _ => none

/-- The functions of a generated module find what the renderer finds. The texts that a module
brings along are those of two functions: the first, called with an object, an expression and
whether to escape, returns what the renderer looks up, and the second, called with an object
and an expression, returns a list of what the renderer shows a section for. They do where each
key that is looked up in an array or a string is spelled as places are, and the loop needs no
more rounds than the expression has keys, and one. -/
theorem functions_find_alike (members : Members) (expression : String) {rounds : Nat}
    (halike : WalksAlike (some (.obj members)) (pathKeys expression))
    (hrounds : (pathKeys expression).length < rounds) :
    (String.ofList safeAccess.layout = Helper.safeAccessSource
        ∧ ∀ escape, safeAccess.run (fun _ _ => none) rounds
            [.of (.obj members), .of (.str expression), .of (.bool escape)]
          = some (.value (lookup (.obj members) expression escape)))
      ∧ ∀ options : Options,
        String.ofList (toArray options.sectionCallable).layout = Helper.source options .toArray
          ∧ (toArray options.sectionCallable).run (lookups rounds) rounds
              [.of (.obj members), .of (.str expression)]
            = some (.of (.arr (elements (.obj members) expression))) := by
  refine ⟨⟨layout_safeAccess, fun escape => ?_⟩, fun options => ⟨layout_toArray options, ?_⟩⟩
  · exact run_of_returned (runAll_safeAccess (e := some (.bool escape)) halike hrounds (.inl rfl))
  · -- The one function calls the other without the flag.
    have hlookup : lookups rounds "safeAccess" [.of (.obj members), .of (.str expression)]
        = some (.value (lookup (.obj members) expression false)) :=
      run_of_returned (runAll_safeAccess (e := none) halike hrounds (.inr ⟨rfl, rfl⟩))
    exact run_of_returned (runAll_toArray options.sectionCallable hlookup)

/-- An item of an array, whose place is spelled plainly. -/
theorem functions_find_alike_of_item :
    let members : Members := [("xs", .arr [.str "a", .str "<b>"])]
    safeAccess.run (fun _ _ => none) 3 [.of (.obj members), .of (.str "xs.1"), .of (.bool true)]
        = some (.value (lookup (.obj members) "xs.1" true))
      ∧ printed (lookup (.obj members) "xs.1" true) = "&lt;b&gt;" := by
  intro members
  have hkeys : pathKeys "xs.1" = ["xs", "1"] := by decide +kernel
  have halike : WalksAlike (some (.obj members)) (pathKeys "xs.1") := by
    rw [hkeys]
    refine ⟨fun v hv => ?_, fun v hv => ?_, trivial⟩
    · cases hv
      trivial
    · cases hv
      exact ⟨by decide, by decide +kernel⟩
  obtain ⟨⟨-, hrun⟩, -⟩ := functions_find_alike members "xs.1" halike
    (show (pathKeys "xs.1").length < 3 by rw [hkeys]; decide)
  exact ⟨hrun true, by decide +kernel⟩

/-- The renderer takes a key with leading zeros or a sign for a place, and finds an item where a
module finds nothing. -/
theorem functions_find_alike_of_zeros :
    let scope : Value := .obj [("xs", .arr [.str "a", .str "b"])]
    let found (expression : String) : Option Bool :=
      (safeAccess.run (fun _ _ => none) 3
        [.of scope, .of (.str expression), .of (.bool false)]).map Thing.truthy
    (found "xs.1" = some true ∧ printed (lookup scope "xs.1" false) = "b")
      ∧ (found "xs.01" = some false ∧ printed (lookup scope "xs.01" false) = "b")
      ∧ (found "xs.+1" = some false ∧ printed (lookup scope "xs.+1" false) = "b") := by
  decide +kernel

end Routine

end Mustache
