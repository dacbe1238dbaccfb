import Mustache.Proofs.Module.Blocks
import Mustache.Render.Renderer

/-!
What the fragments of emitted code mean.

Where text is built a fragment spells a text: its value is that text, or an object where
an element stands, or a list, of which each of the two modes of text makes a text of its
own. Where a list is built a fragment gives items: its value is one of them, or the list
of them. A run that is closed puts together what its fragments spell or give, in each of
the three modes.
-/
set_option autoImplicit false

namespace Mustache

open Json Script

/-! ## Values for entries -/

mutual

/-- An entry of a structural result as a value. -/
def Rendered.toValue : Rendered → Value
  | .text value => .str value
  | .element tag attributes children =>
      .ofMembers
        [("tag", .str tag),
         ("attrs", .obj (attributes.map fun (name, value) => (name, .str value))),
         ("children", .arr (valuesOf children))]

/-- The entries of a structural result as values. -/
def valuesOf : List Rendered → List Value
  | [] => []
  | entry :: rest => entry.toValue :: valuesOf rest

end

theorem valuesOf_append (first rest : List Rendered) :
    valuesOf (first ++ rest) = valuesOf first ++ valuesOf rest := by
  induction first with
  | nil => rfl
  | cons entry first ih => rw [List.cons_append, valuesOf, valuesOf, ih, List.cons_append]

/-- An element as an object, with its members in the order of their names. -/
theorem toValue_element (tag : String) (attributes : List (String × String))
    (children : List Rendered) :
    (Rendered.element tag attributes children).toValue
      = .obj [("attrs", .obj (attributes.map fun (name, value) => (name, .str value))),
        ("children", .arr (valuesOf children)), ("tag", .str tag)] := by
  have hattrs : "attrs" < "tag" := by decide
  have hchildren : "children" < "tag" := by decide
  have hnext : ¬ "children" < "attrs" := by decide
  rw [Rendered.toValue]
  simp [Value.ofMembers, NameMap.insertAll, NameMap.insert, hattrs, hchildren, hnext]

mutual

/-- Different entries have different values. -/
theorem eq_of_toValue {a b : Rendered} (h : a.toValue = b.toValue) : a = b := by
  cases a with
  | text s =>
      cases b with
      | text t =>
          rw [Rendered.toValue, Rendered.toValue] at h
          cases h
          rfl
      | element tag attributes children =>
          rw [Rendered.toValue, toValue_element] at h
          cases h
  | element tag attributes children =>
      cases b with
      | text t =>
          rw [Rendered.toValue, toValue_element] at h
          cases h
      | element tag' attributes' children' =>
          rw [toValue_element, toValue_element] at h
          simp only [Value.obj.injEq, List.cons.injEq, Prod.mk.injEq, true_and, and_true,
            Value.arr.injEq, Value.str.injEq] at h
          obtain ⟨hattributes, hchildren, rfl⟩ := h
          -- The values of attributes are texts, which can be read back.
          have hinjective : Function.Injective fun entry : String × String =>
              (entry.1, Value.str entry.2) := by
            rintro ⟨name, value⟩ ⟨name', value'⟩ heq
            cases heq
            rfl
          rw [List.map_injective_iff.mpr hinjective hattributes, eq_of_valuesOf hchildren]

/-- Different lists of entries have different values. -/
theorem eq_of_valuesOf {as bs : List Rendered} (h : valuesOf as = valuesOf bs) : as = bs := by
  cases as with
  | nil =>
      cases bs with
      | nil => rfl
      | cons b bs => cases h
  | cons a as =>
      cases bs with
      | nil => cases h
      | cons b bs =>
          obtain ⟨hfirst, hrest⟩ := List.cons.inj h
          rw [eq_of_toValue hfirst, eq_of_valuesOf hrest]

end
/-! ## Texts -/

theorem printedItems_append (first rest : List Value) :
    printedItems (first ++ rest) = printedItems first ++ printedItems rest := by
  induction first with
  | nil => rfl
  | cons item first ih => cases item <;> simp [printedItems, ih]

/-- The text that the items of a list make where text is built: they follow each other
where arguments are joined, and are printed with commas between them where a sum is
built. -/
def Output.textOfItems (output : Output) (items : List Value) : String :=
  match output with
  | .joined | .nodes => String.join (printedItems items)
  | .summed => ",".intercalate (printedItems items)

theorem textOfItems_nil (output : Output) : output.textOfItems [] = "" := by
  cases output <;> simp [Output.textOfItems, printedItems]

/-- Whether a value stands for a text where text is built. -/
def Spells (output : Output) (v : Value) (t : String) : Prop :=
  v = .str t ∨ (∃ items, v = .arr items ∧ output.textOfItems items = t)
    ∨ (∃ members, v = .obj members) ∧ t = "[object Object]"

theorem Spells.printed_eq {v : Value} {t : String} (h : Spells .summed v t) : v.printed = t := by
  rcases h with rfl | ⟨items, rfl, rfl⟩ | ⟨⟨members, rfl⟩, rfl⟩
  · rw [Value.printed]
  · rw [Value.printed, Output.textOfItems]
  · rw [Value.printed]

/-- A value that stands for a text prints it among the items of a list. -/
theorem Spells.items_eq {v : Value} {t : String} (h : Spells .joined v t) :
    String.join (printedItems (spliced v)) = t := by
  rcases h with rfl | ⟨items, rfl, rfl⟩ | ⟨⟨members, rfl⟩, rfl⟩
  · simp [spliced, printedItems, Value.printed]
  · rw [spliced, Output.textOfItems]
  · simp [spliced, printedItems, Value.printed]

/-- A value that stands for a text makes a sum a string. -/
theorem Spells.isTextual {output : Output} {v : Value} {t : String} (h : Spells output v t) :
    isTextual (some v) = true := by
  rcases h with rfl | ⟨items, rfl, -⟩ | ⟨⟨members, rfl⟩, -⟩ <;> rfl

/-- What stands for a text in one mode stands for one in any other. -/
theorem Spells.exists_text {output : Output} {v : Value} {t : String} (h : Spells output v t)
    (other : Output) : ∃ u, Spells other v u := by
  rcases h with rfl | ⟨items, rfl, -⟩ | ⟨hobject, -⟩
  · exact ⟨t, .inl rfl⟩
  · exact ⟨_, .inr (.inl ⟨items, rfl, rfl⟩)⟩
  · exact ⟨_, .inr (.inr ⟨hobject, rfl⟩)⟩

variable {modules : Modules} {env : Environment} {depth : Nat} {scope : Value}

/-- Whether a fragment stands for a text over the data of a depth. -/
def SpellsAt (output : Output) (modules : Modules) (depth : Nat) (scope : Value)
    (fragment : Fragment) (t : String) : Prop :=
  match fragment with
  | .whole e => ∃ v, e.Yields modules depth scope v ∧ Spells output v t
  | .printed e => ∃ v, e.Denotes modules depth scope (.value v) ∧ printed v = t

/-- A sum of two values, of which the first makes it a string. -/
theorem plus_eval {left right : Term} {l r : Option Value}
    (hl : left.eval modules env = some (.value l)) (hr : right.eval modules env = some (.value r))
    (htextual : isTextual l = true) :
    (Term.binary .plus left right).eval modules env
      = some (.of (.str (printed l ++ printed r))) := by
  simp only [Term.eval, hl, hr, Option.bind_eq_bind, Option.bind_some, Denotation.value?,
    BinaryOperator.apply, addValues, htextual, Bool.true_or, if_true, Option.map_some]

theorem printed_str (s : String) : printed (some (.str s)) = s := by
  rw [printed, Value.printed]

theorem printed_argument {e : Expr} {v : Option Value}
    (h : e.Denotes modules depth scope (.value v)) :
    (Fragment.printed e).argument.Yields modules depth scope (.str (printed v)) := by
  intro env henv
  have hempty : (Expr.text "").term.eval modules env = some (.value (some (.str ""))) := rfl
  have hsum := plus_eval hempty (h env henv) rfl
  rwa [printed_str, String.empty_append] at hsum

theorem SpellsAt.argument {output : Output} {fragment : Fragment} {t : String}
    (h : SpellsAt output modules depth scope fragment t) :
    ∃ v, fragment.argument.Yields modules depth scope v ∧ Spells output v t := by
  cases fragment with
  | whole e => exact h
  | printed e =>
      obtain ⟨v, hv, rfl⟩ := h
      exact ⟨.str (printed v), printed_argument hv, .inl rfl⟩

/-! ## Runs of text -/

/-- Behind a string, the rest of a run adds what its fragments spell. -/
theorem sum_eval {fragments : List Fragment} {ts : List String}
    (h : List.Forall₂ (SpellsAt .summed modules depth scope) fragments ts)
    (henv : Holds env depth scope) {left : Term} {l : Option Value}
    (hl : left.eval modules env = some (.value l)) (htextual : isTextual l = true) :
    (termOfSum left (fragments.flatMap Fragment.summands ++ [(true, .text "")])).eval modules env
      = some (.of (.str (printed l ++ String.join ts))) := by
  have hempty : (Expr.text "").term.eval modules env = some (.value (some (.str ""))) := rfl
  -- What is on the left grows with each fragment, so the induction is for any text there.
  induction h generalizing left l with
  | nil =>
      have hsum := plus_eval hl hempty htextual
      rw [String.join_nil]
      rwa [printed_str] at hsum
  | @cons fragment t fragments ts hfirst hrest ih =>
      rw [List.flatMap_cons, List.append_assoc, String.join_cons]
      cases fragment with
      | whole e =>
          obtain ⟨v, hv, hspells⟩ := hfirst
          have hmore := ih (plus_eval hl (hv env henv) htextual) rfl
          rw [printed_str, String.append_assoc] at hmore
          rw [printed, hspells.printed_eq] at hmore
          exact hmore
      -- The empty string in front makes text of a value that is none.
      | printed e =>
          obtain ⟨v, hv, rfl⟩ := hfirst
          have hmore := ih (plus_eval (plus_eval hl hempty htextual) (hv env henv) rfl) rfl
          rw [printed_str, printed_str, printed_str, String.append_empty,
            String.append_assoc] at hmore
          exact hmore

theorem runSum_yields {fragments : List Fragment} {ts : List String}
    (h : List.Forall₂ (SpellsAt .summed modules depth scope) fragments ts) :
    (runSum fragments).Yields modules depth scope (.str (String.join ts)) := by
  intro env henv
  have hempty : (Expr.text "").term.eval modules env = some (.value (some (.str ""))) := rfl
  have hsum (first : Expr) (spaced : Bool) (more : List (Bool × Expr)) :
      sumOf ((spaced, first) :: (more ++ [(true, .text "")]))
        = .sum first (more ++ [(true, .text "")]) := by
    cases more <;> rfl
  -- The first fragment makes the sum a string: either it stands for a text, or it is
  -- printed behind an empty one.
  cases h with
  | nil => exact hempty
  | @cons fragment t fragments ts hfirst hrest =>
      rw [runSum, List.flatMap_cons, String.join_cons]
      cases fragment with
      | whole e =>
          obtain ⟨v, hv, hspells⟩ := hfirst
          have hmore := sum_eval hrest henv (hv env henv) hspells.isTextual
          rw [printed, hspells.printed_eq] at hmore
          rw [Fragment.summands, List.singleton_append, List.cons_append, hsum]
          exact hmore
      | printed e =>
          obtain ⟨v, hv, rfl⟩ := hfirst
          have hmore := sum_eval hrest henv (plus_eval hempty (hv env henv) rfl) rfl
          rw [printed_str, printed_str, String.empty_append] at hmore
          rw [Fragment.summands, List.cons_append, List.cons_append, List.singleton_append, hsum]
          exact hmore

/-! ## Lists of arguments -/

theorem evalList_append {first rest : List Expr} {ds es : List Denotation}
    (hfirst : evalList modules (termsOfList first) env = some ds)
    (hrest : evalList modules (termsOfList rest) env = some es) :
    evalList modules (termsOfList (first ++ rest)) env = some (ds ++ es) := by
  induction first generalizing ds with
  | nil =>
      cases hfirst
      exact hrest
  | cons e first ih =>
      simp only [termsOfList, evalList, Option.bind_eq_bind, Option.bind_eq_some_iff,
        Option.some.injEq] at hfirst
      obtain ⟨d, hd, ds, hds, rfl⟩ := hfirst
      simp only [List.cons_append, termsOfList, evalList, hd, ih hds, Option.bind_eq_bind,
        Option.bind_some]

/-- One list is made of arguments and of the items of those that are lists. -/
theorem concatenated_eval {arguments : List Expr} {values : List Value}
    (h : evalList modules (termsOfList arguments) env = some (values.map .of)) :
    (concatenated arguments).term.eval modules env
      = some (.of (.arr (values.flatMap spliced))) := by
  have hlist : (Expr.list []).term.eval modules env = some (.of (.arr [])) := rfl
  have hcall : Denotation.call modules (.method (.of (.arr [])) "concat") (values.map .of)
      = ((values.map Denotation.of).mapM Denotation.present?).bind fun added =>
          some (.of (.arr ([] ++ added.flatMap spliced))) := rfl
  rw [mapM_present?, Option.bind_some, List.nil_append] at hcall
  simp only [concatenated, method, Expr.term, Term.eval, h, Option.bind_eq_bind] at hlist ⊢
  rw [hlist]
  exact hcall

theorem exists_values {α : Type} {P : Fragment → α → Prop} {R : Value → α → Prop}
    (hvalue : ∀ fragment x, P fragment x →
      ∃ v, fragment.argument.Yields modules depth scope v ∧ R v x)
    {fragments : List Fragment} {xs : List α} (h : List.Forall₂ P fragments xs) :
    ∃ values, List.Forall₂ R values xs ∧ ∀ env, Holds env depth scope →
      evalList modules (termsOfList (fragments.map Fragment.argument)) env
        = some (values.map .of) := by
  induction h with
  | nil => exact ⟨[], .nil, fun _ _ => rfl⟩
  | cons hfirst hrest ih =>
      obtain ⟨v, hv, hrel⟩ := hvalue _ _ hfirst
      obtain ⟨values, hvalues, heval⟩ := ih
      refine ⟨v :: values, .cons hrel hvalues, fun env henv => ?_⟩
      simp only [List.map_cons, termsOfList, evalList, hv env henv, heval env henv,
        Option.bind_eq_bind, Option.bind_some]

/-- A run that is closed by an argument with a value is one list. -/
theorem concatenated_close {fragments : List Fragment} {terminator : Expr} {values : List Value}
    {last : Value}
    (hvalues : evalList modules (termsOfList (fragments.map Fragment.argument)) env
      = some (values.map .of))
    (hlast : terminator.term.eval modules env = some (.of last)) :
    (concatenated (fragments.map Fragment.argument ++ [terminator])).term.eval modules env
      = some (.of (.arr (values.flatMap spliced ++ spliced last))) := by
  have hend : evalList modules (termsOfList [terminator]) env = some ([last].map .of) := by
    simp only [termsOfList, evalList, hlast, Option.bind_eq_bind, Option.bind_some]
    rfl
  have hall := evalList_append hvalues hend
  rw [← List.map_append] at hall
  rw [concatenated_eval hall, List.flatMap_append, List.flatMap_singleton]

theorem join_items {values : List Value} {ts : List String}
    (h : List.Forall₂ (Spells .joined) values ts) :
    String.join (printedItems (values.flatMap spliced)) = String.join ts := by
  induction h with
  | nil => rfl
  | cons hfirst hrest ih =>
      rw [List.flatMap_cons, printedItems_append, String.join_append, hfirst.items_eq, ih,
        String.join_cons]

/-! ## Closed runs -/

/-- A run of text that is closed, in either mode: a list whose items print what the
fragments spell. -/
theorem closed_text {output : Output} (houtput : output ≠ .nodes) {fragments : List Fragment}
    {ts : List String} (h : List.Forall₂ (SpellsAt output modules depth scope) fragments ts) :
    ∃ items, (concatenated (output.close fragments)).Yields modules depth scope (.arr items)
      ∧ String.join (printedItems items) = String.join ts := by
  -- Joined, the terminator is one more item; summed, the whole run is one.
  cases output with
  | joined =>
      obtain ⟨values, hvalues, heval⟩ := exists_values (fun _ _ hf => hf.argument) h
      refine ⟨values.flatMap spliced ++ [.str ""], fun env henv => ?_, ?_⟩
      · have hclosed : (concatenated (fragments.map Fragment.argument
            ++ [.text ""])).term.eval modules env
            = some (.of (.arr (values.flatMap spliced ++ spliced (.str "")))) :=
          concatenated_close (heval env henv) rfl
        exact hclosed
      · rw [printedItems_append, String.join_append, join_items hvalues]
        simp [printedItems, Value.printed]
  | summed =>
      refine ⟨[.str (String.join ts)], fun env henv => ?_, ?_⟩
      · have hsum : evalList modules (termsOfList [runSum fragments]) env
            = some ([Value.str (String.join ts)].map .of) := by
          simp only [termsOfList, evalList, runSum_yields h env henv, Option.bind_eq_bind,
            Option.bind_some]
          rfl
        exact concatenated_eval hsum
      · simp [printedItems, Value.printed]
  | nodes => exact absurd rfl houtput

/-- Whether a fragment gives items to a list over the data of a depth. -/
def GivesAt (modules : Modules) (depth : Nat) (scope : Value) (fragment : Fragment)
    (items : List Value) : Prop :=
  ∃ v, fragment.argument.Yields modules depth scope v ∧ spliced v = items

/-- A run of items that is closed is the list of them. -/
theorem closed_nodes {fragments : List Fragment} {parts : List (List Value)}
    (h : List.Forall₂ (GivesAt modules depth scope) fragments parts) :
    (concatenated (Output.nodes.close fragments)).Yields modules depth scope
      (.arr parts.flatten) := by
  intro env henv
  obtain ⟨values, hvalues, heval⟩ :=
    exists_values (R := fun v items => spliced v = items) (fun _ _ hf => hf) h
  have hitems : values.flatMap spliced = parts.flatten := by
    clear heval h
    induction hvalues with
    | nil => rfl
    | cons hfirst hrest ih => rw [List.flatMap_cons, hfirst, ih, List.flatten_cons]
  -- The terminator is an empty list, which adds nothing.
  have hclosed : (concatenated (Output.nodes.close fragments)).term.eval modules env
      = some (.of (.arr (values.flatMap spliced ++ spliced (.arr [])))) :=
    concatenated_close (heval env henv) rfl
  rw [hitems, spliced, List.append_nil] at hclosed
  exact hclosed

/-! ## Blocks -/

/-- What a relation holds of, for each member of a list. -/
theorem exists_forall₂ {α β : Type} {P : α → β → Prop} {xs : List α} (h : ∀ x ∈ xs, ∃ y, P x y) :
    ∃ ys, List.Forall₂ P xs ys := by
  induction xs with
  | nil => exact ⟨[], .nil⟩
  | cons x xs ih =>
      obtain ⟨y, hy⟩ := h x List.mem_cons_self
      obtain ⟨ys, hys⟩ := ih fun x' hx' => h x' (List.mem_cons_of_mem x hx')
      exact ⟨y :: ys, .cons hy hys⟩

theorem mapM_eq_map {α β γ : Type} {f : α → Option β} {g : γ → β} {xs : List α} {ys : List γ}
    (h : List.Forall₂ (fun x y => f x = some (g y)) xs ys) : xs.mapM f = some (ys.map g) := by
  induction h with
  | nil => rfl
  | cons hfirst hrest ih =>
      rw [List.mapM_cons, hfirst, ih]
      rfl

theorem join_flatten {α : Type} {xs : List α} {ys : List (List Value × String)}
    (h : List.Forall₂ (fun _ y => String.join (printedItems y.1) = y.2) xs ys) :
    String.join (printedItems (ys.map Prod.fst).flatten) = String.join (ys.map Prod.snd) := by
  induction h with
  | nil => rfl
  | cons hfirst hrest ih =>
      rw [List.map_cons, List.flatten_cons, printedItems_append, String.join_append, hfirst, ih,
        List.map_cons, String.join_cons]

/-- A block whose body spells a text in each scope spells all of them, one after
another. -/
theorem block_spells {o : EmitOptions} {output : Output} (houtput : output ≠ .nodes)
    {kind : BlockKind} {expression : String} {body : List Node} {location : Location}
    {R : Value → String → Prop}
    (h : ∀ s ∈ blockScopes o.invertedPolicy kind scope expression, ∃ ts,
      List.Forall₂ (SpellsAt output modules (depth + 1) s) (emitNodes o output (depth + 1) body) ts
        ∧ R s (String.join ts)) :
    ∃ texts, List.Forall₂ R (blockScopes o.invertedPolicy kind scope expression) texts
      ∧ List.Forall₂ (SpellsAt output modules depth scope)
        (emitNode o output depth (.block kind expression body location)).toList
        [String.join texts] := by
  let result := concatenated (output.close (emitNodes o output (depth + 1) body))
  -- For each scope the items that the body gives there, and the text that they print.
  have hscope : ∀ s ∈ blockScopes o.invertedPolicy kind scope expression,
      ∃ y : List Value × String, result.Yields modules (depth + 1) s (.arr y.1)
        ∧ R s y.2 ∧ String.join (printedItems y.1) = y.2 := by
    intro s hs
    obtain ⟨ts, hts, hrel⟩ := h s hs
    obtain ⟨items, hitems, htext⟩ := closed_text houtput hts
    exact ⟨(items, String.join ts), hitems, hrel, htext⟩
  obtain ⟨ys, hys⟩ := exists_forall₂ hscope
  have hresults : List.Forall₂ (fun s items => result.Yields modules (depth + 1) s (.arr items))
      (blockScopes o.invertedPolicy kind scope expression) (ys.map Prod.fst) :=
    List.forall₂_map_right_iff.mpr (hys.imp fun _ _ hy => hy.1)
  have htext := join_flatten (hys.imp fun _ _ hy => hy.2.2)
  obtain ⟨v, hv, hvalue⟩ := block_yields o.invertedPolicy output kind hresults
  refine ⟨ys.map Prod.snd, List.forall₂_map_right_iff.mpr (hys.imp fun _ _ hy => hy.2.1),
    .cons ⟨v, hv, ?_⟩ .nil⟩
  -- A block that is hidden is an empty list, which spells nothing wherever it stands.
  rcases hvalue with rfl | ⟨rfl, hnone⟩
  · left
    rw [← htext]
    cases output with
    | joined | summed => rfl
    | nodes => exact absurd rfl houtput
  · rw [List.map_eq_nil_iff] at hnone
    rw [hnone]
    exact .inr (.inl ⟨[], rfl, textOfItems_nil output⟩)

/-- The texts of all scopes of a block, one after another. -/
theorem joinScopes_texts {render : Value → Option String} {scopes : List Value}
    {texts : List String} (h : List.Forall₂ (fun s t => render s = some t) scopes texts) :
    joinScopes render scopes = some (String.join texts) := by
  rw [joinScopes, mapM_eq_map (g := id) h]
  simp

/-- A block whose body gives items in each scope gives all of them, one after
another. -/
theorem block_gives {o : EmitOptions} {kind : BlockKind} {expression : String} {body : List Node}
    {R : Value → List Value → Prop}
    (h : ∀ s ∈ blockScopes o.invertedPolicy kind scope expression, ∃ parts,
      List.Forall₂ (GivesAt modules (depth + 1) s) (emitNodes o .nodes (depth + 1) body) parts
        ∧ R s parts.flatten) (location : Location) :
    ∃ results, List.Forall₂ R (blockScopes o.invertedPolicy kind scope expression) results
      ∧ List.Forall₂ (GivesAt modules depth scope)
        (emitNode o .nodes depth (.block kind expression body location)).toList
        [results.flatten] := by
  let result := concatenated (Output.nodes.close (emitNodes o .nodes (depth + 1) body))
  have hscope : ∀ s ∈ blockScopes o.invertedPolicy kind scope expression,
      ∃ items, result.Yields modules (depth + 1) s (.arr items) ∧ R s items := by
    intro s hs
    obtain ⟨parts, hparts, hrel⟩ := h s hs
    exact ⟨parts.flatten, closed_nodes hparts, hrel⟩
  obtain ⟨results, hall⟩ := exists_forall₂ hscope
  obtain ⟨v, hv, hvalue⟩ :=
    block_yields o.invertedPolicy .nodes kind (hall.imp fun _ _ hitems => hitems.1)
  refine ⟨results, hall.imp fun _ _ hitems => hitems.2, .cons ⟨v, hv, ?_⟩ .nil⟩
  -- A list of no results is what a hidden block gives.
  rcases hvalue with rfl | ⟨rfl, rfl⟩ <;> rfl

/-- The entries of all scopes of a block, as values. -/
theorem appendScopes_values {render : Value → Option (List Rendered)} {scopes : List Value}
    {results : List (List Value)}
    (h : List.Forall₂ (fun s items => (render s).map valuesOf = some items) scopes results) :
    (appendScopes render scopes).map valuesOf = some results.flatten := by
  rw [appendScopes]
  induction h with
  | nil => rfl
  | @cons s items scopes results hfirst hrest ih =>
      obtain ⟨entries, hentries, rfl⟩ := Option.map_eq_some_iff.mp hfirst
      rw [List.flatten_cons]
      cases hmore : scopes.mapM render with
      | none =>
          rw [hmore] at ih
          cases ih
      | some others =>
          rw [hmore] at ih
          have hvalues : valuesOf others.flatten = results.flatten := Option.some.inj ih
          rw [List.mapM_cons, hentries, hmore, ← hvalues, ← valuesOf_append]
          rfl

end Mustache
