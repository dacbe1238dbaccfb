import Mustache.Proofs.Script.Evaluation

/-!
Values as numbers.

A script that compares a value with a number takes it for a number first. A string is read
as a numeral without the blanks around it: an empty one is zero, a prefix says that a numeral
is hexadecimal, octal or binary, `Infinity` is the only word, and what is no numeral is not a
number. An array is read as the string that it prints, and so is an object.
-/
set_option autoImplicit false

namespace Mustache.Script

open Json Text

/-! ## Numbers -/

inductive Quantity where
  | notANumber
  | infinite (negative : Bool)
  | finite (value : Number)
  deriving DecidableEq, Repr

/-- Whether a number is greater than zero. -/
def Quantity.isPositive : Quantity → Bool
  | .notANumber => false
  | .infinite negative => !negative
  | .finite value => value.isPositive

/-! ## Numerals -/

/-- The blanks of scripts: those of text without the next line, and with the byte order
mark. -/
def isScriptBlank (c : Char) : Bool :=
  c = '\uFEFF' || (isBlank c && c ≠ '\u0085')

/-- The text without the blanks of scripts at its two ends. -/
def trimBlanks (s : List Char) : List Char :=
  ((s.dropWhile isScriptBlank).reverse.dropWhile isScriptBlank).reverse

/-- The base that the letter behind a leading zero stands for. -/
def baseOf? (c : Char) : Option Nat :=
  if c = 'x' ∨ c = 'X' then some 16
  else if c = 'o' ∨ c = 'O' then some 8
  else if c = 'b' ∨ c = 'B' then some 2
  else none

/-- The number that digits of a base spell; nothing if there are none, or others. -/
def inBase? (base : Nat) (digits : List Char) : Option Nat :=
  if digits = [] then none
  else digits.foldlM (fun n c => do
    let digit ← hexDigitValue? c
    if digit < base then some (base * n + digit) else none) 0

/-- A numeral with a prefix that says its base. -/
def readPrefixed? : List Char → Option Nat
  | '0' :: letter :: digits => (baseOf? letter).bind fun base => inBase? base digits
  | _ => none

/-- A text without the sign that it may start with. -/
def withoutSign (s : List Char) : List Char :=
  if s.head? = some '-' ∨ s.head? = some '+' then s.drop 1 else s

/-- A decimal numeral with an optional sign. -/
def readDecimal (s : List Char) : Quantity :=
  let negative := s.head? == some '-'
  if withoutSign s = "Infinity".toList then .infinite negative
  else
    match FloatText.readNumeral? (withoutSign s) with
    | none => .notANumber
    | some numeral =>
        match numeral.toBinary64? negative with
        | some x => .finite (.double x)
        | none => .infinite negative

/-- The number that a string is read as. -/
def quantityOfText (s : List Char) : Quantity :=
  let trimmed := trimBlanks s
  if trimmed = [] then .finite (.int 0)
  else
    match readPrefixed? trimmed with
    | some n => .finite (.int n)
    | none => readDecimal trimmed

def quantityOf : Option Value → Quantity
  | none => .notANumber
  | some .null => .finite (.int 0)
  | some (.bool b) => .finite (.int (if b then 1 else 0))
  | some (.num n) => .finite n
  | some (.str s) => quantityOfText s.toList
  | some (.arr items) => quantityOfText (Value.arr items).printed.toList
  | some (.obj members) => quantityOfText (Value.obj members).printed.toList

/-! ## Two ways to read a number -/

/-- Whether the renderer reads a string as scripts do: the two kinds of blanks that they
differ in are not there, there is no prefix for a base, and a word for the infinite is
spelled as scripts spell it. -/
structure ReadsAlike (s : List Char) : Prop where
  blanks : '\u0085' ∉ s ∧ '\uFEFF' ∉ s
  unprefixed : readPrefixed? (trim s) = none
  spelling : (withoutSign (trim s)).map Char.toLower ∈ ["inf".toList, "infinity".toList] →
    withoutSign (trim s) = "Infinity".toList

instance (s : List Char) : Decidable (ReadsAlike s) :=
  decidable_of_iff
    (('\u0085' ∉ s ∧ '\uFEFF' ∉ s) ∧ readPrefixed? (trim s) = none
      ∧ ((withoutSign (trim s)).map Char.toLower ∈ ["inf".toList, "infinity".toList] →
        withoutSign (trim s) = "Infinity".toList))
    ⟨fun ⟨hblanks, hunprefixed, hspelling⟩ => ⟨hblanks, hunprefixed, hspelling⟩,
      fun ⟨hblanks, hunprefixed, hspelling⟩ => ⟨hblanks, hunprefixed, hspelling⟩⟩

theorem dropWhile_congr {p q : Char → Bool} {s : List Char} (h : ∀ c ∈ s, p c = q c) :
    s.dropWhile p = s.dropWhile q := by
  induction s with
  | nil => rfl
  | cons c s ih =>
      rw [List.dropWhile_cons, List.dropWhile_cons, h c List.mem_cons_self,
        ih fun d hd => h d (List.mem_cons_of_mem c hd)]

/-- Without the blanks that they differ in, both kinds of blanks are the same. -/
theorem trimBlanks_eq_trim {s : List Char} (h : '\u0085' ∉ s ∧ '\uFEFF' ∉ s) :
    trimBlanks s = trim s := by
  have hblank : ∀ c ∈ s, isScriptBlank c = isBlank c := by
    intro c hc
    have hnext : c ≠ '\u0085' := fun heq => h.1 (heq ▸ hc)
    have hmark : c ≠ '\uFEFF' := fun heq => h.2 (heq ▸ hc)
    simp [isScriptBlank, hnext, hmark]
  rw [trimBlanks, trim, trimEnd, trimStart, dropWhile_congr hblank]
  refine congrArg List.reverse (dropWhile_congr fun c hc => hblank c ?_)
  exact (List.dropWhile_suffix isBlank).subset (List.mem_reverse.mp hc)

/-- A digit has no lower case of its own. -/
theorem toLower_of_isDigit {c : Char} (h : c.isDigit = true) : c.toLower = c := by
  rw [Char.isDigit, Bool.and_eq_true, decide_eq_true_iff, decide_eq_true_iff] at h
  refine dif_neg fun hupper => ?_
  have hlow := UInt32.le_trans hupper.1 h.2
  exact absurd hlow (by decide)

/-- A numeral begins with a digit or a point. -/
theorem readNumeral?_eq_none {c : Char} {s : List Char} (hdigit : c.isDigit = false)
    (hpoint : c ≠ '.') : FloatText.readNumeral? (c :: s) = none := by
  have hfraction : FloatText.splitFraction (c :: s) = ([], c :: s) := by
    unfold FloatText.splitFraction
    split
    · next heq => exact absurd (List.cons_eq_cons.mp heq).1 hpoint
    · rfl
  unfold FloatText.readNumeral?
  simp [hdigit, hfraction]

theorem read?_eq (s : List Char) :
    FloatText.read? s
      = match (FloatText.words (s.head? == some '-')).lookup
          (String.ofList ((withoutSign s).map Char.toLower)) with
        | some word => some word
        | none => (FloatText.readNumeral? (withoutSign s)).map fun n =>
            match n.toBinary64? (s.head? == some '-') with
            | some x => .finite x
            | none => .infinite (s.head? == some '-') :=
  rfl

/-- The word that a text is, for the renderer. -/
theorem lookup_words (negative : Bool) (s : List Char) :
    (FloatText.words negative).lookup (String.ofList s)
      = if s = "inf".toList ∨ s = "infinity".toList then some (.infinite negative)
        else if s = "nan".toList then some .nan else none := by
  have hword (word : String) : (String.ofList s == word) = decide (s = word.toList) := by
    rw [Bool.eq_iff_iff, beq_iff_eq, decide_eq_true_iff]
    exact ⟨fun h => by rw [← h, String.toList_ofList], fun h => by rw [h, String.ofList_toList]⟩
  rw [FloatText.words, List.lookup_cons, List.lookup_cons, List.lookup_cons, List.lookup_nil,
    hword, hword, hword]
  by_cases hinf : s = "inf".toList
  · rw [decide_eq_true hinf, if_pos (.inl hinf)]
  · rw [decide_eq_false hinf]
    by_cases hinfinity : s = "infinity".toList
    · rw [decide_eq_true hinfinity, if_pos (.inr hinfinity)]
    · rw [decide_eq_false hinfinity, if_neg (not_or.mpr ⟨hinf, hinfinity⟩)]
      by_cases hnan : s = "nan".toList
      · rw [decide_eq_true hnan, if_pos hnan]
      · rw [decide_eq_false hnan, if_neg hnan]

/-- A decimal numeral is greater than zero for the renderer if and only if it is for a
script. -/
theorem isPositive_readDecimal {s : List Char}
    (hspelling : (withoutSign s).map Char.toLower ∈ ["inf".toList, "infinity".toList] →
      withoutSign s = "Infinity".toList) :
    (readDecimal s).isPositive = (FloatText.read? s).any FloatText.isPositive := by
  have hlower : "Infinity".toList.map Char.toLower = "infinity".toList := by decide
  rw [readDecimal, read?_eq, lookup_words]
  generalize withoutSign s = unsigned at hspelling ⊢
  generalize (s.head? == some '-') = negative
  by_cases hinfinity : unsigned = "Infinity".toList
  · rw [if_pos hinfinity, hinfinity, hlower, if_pos (.inr rfl)]
    rfl
  · have hword : ¬ (unsigned.map Char.toLower = "inf".toList
        ∨ unsigned.map Char.toLower = "infinity".toList) := fun h =>
      hinfinity (hspelling (List.mem_cons.mpr (h.imp_right List.mem_singleton.mpr)))
    rw [if_neg hinfinity, if_neg hword]
    by_cases hnan : unsigned.map Char.toLower = "nan".toList
    -- A word that begins with a letter is no numeral.
    · rw [if_pos hnan]
      cases unsigned with
      | nil => cases hnan
      | cons c rest =>
          have hc : c.toLower = 'n' := (List.cons_eq_cons.mp hnan).1
          have hdigit : c.isDigit = false := by
            refine Bool.eq_false_iff.mpr fun hdigit => ?_
            rw [toLower_of_isDigit hdigit] at hc
            rw [hc] at hdigit
            exact absurd hdigit (by decide)
          have hpoint : c ≠ '.' := by
            rintro rfl
            exact absurd hc (by decide)
          rw [readNumeral?_eq_none hdigit hpoint]
          rfl
    · rw [if_neg hnan]
      cases FloatText.readNumeral? unsigned with
      | none => rfl
      | some numeral =>
          dsimp only [Option.map_some]
          cases numeral.toBinary64? negative with
          | none => rfl
          | some x => rfl

/-- A string that reads alike is greater than zero for the renderer if and only if it is for
a script. -/
theorem isPositive_quantityOfText {s : List Char} (h : ReadsAlike s) :
    (quantityOfText s).isPositive = (FloatText.read? (trim s)).any FloatText.isPositive := by
  rw [quantityOfText, trimBlanks_eq_trim h.blanks, h.unprefixed,
    ← isPositive_readDecimal h.spelling]
  split_ifs with hempty
  · rw [hempty]
    decide
  · rfl

/-! ## Texts that are no numbers -/

theorem mem_dropWhile {p : Char → Bool} {c : Char} {s : List Char} (hmem : c ∈ s)
    (hc : p c = false) : c ∈ s.dropWhile p := by
  rw [← List.takeWhile_append_dropWhile (p := p) (l := s)] at hmem
  refine (List.mem_append.mp hmem).resolve_left fun htake => ?_
  rw [List.all_eq_true.mp List.all_takeWhile c htake] at hc
  cases hc

section

variable {s : List Char}

theorem comma_mem_trimBlanks (h : ',' ∈ s) : ',' ∈ trimBlanks s := by
  have hcomma : isScriptBlank ',' = false := by decide
  exact List.mem_reverse.mpr
    (mem_dropWhile (List.mem_reverse.mpr (mem_dropWhile h hcomma)) hcomma)

theorem comma_mem_withoutSign (h : ',' ∈ s) : ',' ∈ withoutSign s := by
  rw [withoutSign]
  split_ifs with hsign
  · cases s with
    | nil => cases h
    | cons c rest =>
        rw [List.head?_cons, Option.some.injEq, Option.some.injEq] at hsign
        refine (List.mem_cons.mp h).resolve_left ?_
        rintro rfl
        exact absurd hsign (by decide)
  · exact h

/-- The digits of an exponent hold no comma. -/
theorem readExponent?_of_comma (h : ',' ∈ s) : Mustache.readExponent? s = none := by
  have hdigits : (withoutSign s).all Char.isDigit = false :=
    List.all_eq_false.mpr ⟨',', comma_mem_withoutSign h, by decide⟩
  rw [withoutSign] at hdigits
  rw [Mustache.readExponent?, if_pos]
  rw [hdigits, Bool.not_false, Bool.or_true]

/-- Neither does a decimal numeral. -/
theorem readNumeral?_of_comma (h : ',' ∈ s) : FloatText.readNumeral? s = none := by
  have hdigit : Char.isDigit ',' = false := by decide
  -- No digit is a comma, so it is still there behind the whole part and the fraction.
  have hrest : ',' ∈ (FloatText.splitFraction (s.dropWhile Char.isDigit)).2 := by
    have hdrop := mem_dropWhile h hdigit
    unfold FloatText.splitFraction
    split
    · next rest heq =>
      rw [heq] at hdrop
      exact mem_dropWhile ((List.mem_cons.mp hdrop).resolve_left (by decide)) hdigit
    · exact hdrop
  unfold FloatText.readNumeral?
  generalize FloatText.splitFraction (s.dropWhile Char.isDigit) = split at hrest
  obtain ⟨fraction, rest⟩ := split
  dsimp only at hrest ⊢
  split_ifs with hempty
  · rfl
  · cases rest with
    | nil => cases hrest
    | cons c exponent =>
        dsimp only
        split_ifs with hc
        · have hexponent : ',' ∈ exponent := (List.mem_cons.mp hrest).resolve_left fun heq => by
            rw [← heq] at hc
            exact absurd hc (by decide)
          rw [readExponent?_of_comma hexponent, Option.map_none]
        · rfl

theorem inBase?_of_comma (base : Nat) (h : ',' ∈ s) : inBase? base s = none := by
  have hstop (s : List Char) (h : ',' ∈ s) (n : Nat) :
      s.foldlM (fun n c => do
        let digit ← hexDigitValue? c
        if digit < base then some (base * n + digit) else none) n = none := by
    induction s generalizing n with
    | nil => cases h
    | cons c rest ih =>
        rw [List.foldlM_cons]
        rcases List.mem_cons.mp h with rfl | hmem
        · rfl
        · exact Option.bind_eq_none_iff.mpr fun m _ => ih hmem m
  rw [inBase?, if_neg (List.ne_nil_of_mem h)]
  exact hstop s h 0

theorem readPrefixed?_of_comma (h : ',' ∈ s) : readPrefixed? s = none := by
  unfold readPrefixed?
  split
  · next letter digits =>
    have hmem := (List.mem_cons.mp h).resolve_left (by decide)
    rcases List.mem_cons.mp hmem with rfl | hmem
    · rfl
    · cases baseOf? letter with
      | none => rfl
      | some base => exact inBase?_of_comma base hmem
  · rfl

theorem quantityOfText_of_comma (h : ',' ∈ s) : quantityOfText s = .notANumber := by
  have htrim := comma_mem_trimBlanks h
  rw [quantityOfText, readPrefixed?_of_comma htrim, if_neg (List.ne_nil_of_mem htrim)]
  generalize trimBlanks s = trimmed at htrim
  have hinfinity : withoutSign trimmed ≠ "Infinity".toList := fun heq => by
    have hmem := comma_mem_withoutSign htrim
    rw [heq] at hmem
    exact absurd hmem (by decide)
  rw [readDecimal, readNumeral?_of_comma (comma_mem_withoutSign htrim), if_neg hinfinity]

end

/-! ## Values -/

/-- Whether the renderer takes a value for a number as scripts do: a string reads alike, and
an array is not one of a single item, which scripts take for the item. -/
def ComparesAlike : Value → Prop
  | .str s => ReadsAlike s.toList
  | .arr items => items.length ≠ 1
  | .null | .bool _ | .num _ | .obj _ => True

theorem comma_mem_printed (first second : Value) (rest : List Value) :
    ',' ∈ (Value.arr (first :: second :: rest)).printed.toList := by
  have hitems (v : Value) (vs : List Value) :
      ∃ text, printedItems (v :: vs) = text :: printedItems vs := by
    cases v with
    | null => exact ⟨"", by rw [printedItems]⟩
    | bool _ | num _ | str _ | arr _ | obj _ => exact ⟨_, by rw [printedItems]; simp⟩
  obtain ⟨x, hx⟩ := hitems first (second :: rest)
  obtain ⟨y, hy⟩ := hitems second rest
  rw [Value.printed, hx, hy, String.toList_intercalate, List.map_cons, List.map_cons]
  simp [List.intercalate]

/-- A value that compares alike is greater than zero for the renderer if and only if it is
for a script. -/
theorem isPositive_quantityOf {v : Value} (h : ComparesAlike v) :
    (quantityOf (some v)).isPositive = isAboveZero (some v) := by
  cases v with
  | null => rfl
  | bool b => cases b <;> rfl
  | num n => rfl
  | str s => exact isPositive_quantityOfText h
  | arr items =>
      match items with
      | [] => decide
      | [_] => exact absurd rfl h
      | first :: second :: rest =>
          rw [quantityOf, quantityOfText_of_comma (comma_mem_printed first second rest)]
          rfl
  | obj members =>
      have htext : (quantityOfText "[object Object]".toList).isPositive = false := by decide
      rw [quantityOf, Value.printed, htext]
      rfl

end Mustache.Script
