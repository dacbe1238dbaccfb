import Mathlib.Data.List.Forall2
import Mathlib.Tactic.SplitIfs
import Mustache.Json.Printer
import Mustache.Json.Token

/-!
JSON texts, as the grammar of JSON gives them, and their tokens.

A phrase is a value as it is written. Its numbers keep their digits and its strings their
units, so it may be out of range, name a member twice or hold half of a surrogate pair, which
is all allowed by the grammar (`Spells`). Each text that the grammar gives is cut into the
tokens of its phrase (`Spells.tokens`), whatever the blanks in it and the escapes in its
strings. What follows a value never continues it, since the grammar puts a blank, a comma or a
closing bracket there (`Follows`).

The units of a string spell a text if the halves of surrogate pairs in them are paired
(`UnitsOf`). What is written for a text or an object is a text that the grammar gives
(`spells_quoted`, `spells_obj`).
-/
set_option autoImplicit false

namespace Mustache.Json

open Text

/-! ## Phrases -/

/-- A value as it is written. -/
inductive Phrase where
  | null
  | bool (value : Bool)
  | number (negative whole : Bool) (numeral : Numeral)
  /-- A string, by its units. -/
  | string (units : List Nat)
  | array (items : List Phrase)
  /-- An object, with its members by the units of their names. -/
  | object (members : List (List Nat × Phrase))

mutual

def Phrase.tokens : Phrase → List Token
  | .null => [.null]
  | .bool value => [.bool value]
  | .number negative whole numeral => [.number negative whole numeral]
  | .string units => [.string units]
  | .array [] => [.openArray, .closeArray]
  | .array (item :: items) =>
      .openArray :: (item.tokens ++ (itemsTokens items ++ [.closeArray]))
  | .object [] => [.openObject, .closeObject]
  | .object ((units, value) :: members) =>
      .openObject :: .string units :: .colon ::
        (value.tokens ++ (membersTokens members ++ [.closeObject]))

def itemsTokens : List Phrase → List Token
  | [] => []
  | item :: items => .comma :: (item.tokens ++ itemsTokens items)

def membersTokens : List (List Nat × Phrase) → List Token
  | [] => []
  | (units, value) :: members =>
      .comma :: .string units :: .colon :: (value.tokens ++ membersTokens members)

end

/-! ## The grammar -/

/-- Whether a text is made of blanks. -/
def IsBlank (s : List Char) : Prop := ∀ c ∈ s, isJsonBlank c = true

/-- Whether a text is a row of digits. -/
def IsDigits (s : List Char) : Prop := s ≠ [] ∧ ∀ c ∈ s, c.isDigit = true

/-- Whether a text is a row of digits in which a zero at the start stands alone. -/
def IsWhole (s : List Char) : Prop := IsDigits s ∧ (s.head? = some '0' → s = ['0'])

inductive SpellsExponent : List Char → Int → Prop
  | plain {e : Char} {s : List Char} : e = 'e' ∨ e = 'E' → IsDigits s →
      SpellsExponent (e :: s) (digitsValue s)
  | plus {e : Char} {s : List Char} : e = 'e' ∨ e = 'E' → IsDigits s →
      SpellsExponent (e :: '+' :: s) (digitsValue s)
  | minus {e : Char} {s : List Char} : e = 'e' ∨ e = 'E' → IsDigits s →
      SpellsExponent (e :: '-' :: s) (-(digitsValue s : Int))

/-- Whether a text spells a number without a sign; `whole` holds of one that has neither a
point nor an exponent. -/
inductive SpellsUnsigned : List Char → (whole : Bool) → Numeral → Prop
  | whole {s : List Char} : IsWhole s → SpellsUnsigned s true ⟨s, [], 0⟩
  | point {s t : List Char} : IsWhole s → IsDigits t →
      SpellsUnsigned (s ++ '.' :: t) false ⟨s, t, 0⟩
  | exponent {s e : List Char} {n : Int} : IsWhole s → SpellsExponent e n →
      SpellsUnsigned (s ++ e) false ⟨s, [], n⟩
  | pointExponent {s t e : List Char} {n : Int} : IsWhole s → IsDigits t → SpellsExponent e n →
      SpellsUnsigned (s ++ '.' :: (t ++ e)) false ⟨s, t, n⟩

/-- The escapes of one letter, and the units that they spell. -/
def shortEscapes : List (Char × Nat) :=
  [('"', 0x22), ('\\', 0x5C), ('/', 0x2F), ('b', 0x08), ('f', 0x0C), ('n', 0x0A), ('r', 0x0D),
    ('t', 0x09)]

/-- Whether a text spells units between the quotes of a string. -/
inductive SpellsUnits : List Char → List Nat → Prop
  | nil : SpellsUnits [] []
  | plain {c : Char} {s : List Char} {units : List Nat} : c ≠ '"' → c ≠ '\\' → 0x20 ≤ c.toNat →
      SpellsUnits s units → SpellsUnits (c :: s) (c.toNat :: units)
  | escape {c : Char} {unit : Nat} {s : List Char} {units : List Nat} :
      (c, unit) ∈ shortEscapes → SpellsUnits s units →
      SpellsUnits ('\\' :: c :: s) (unit :: units)
  | numbered {a b c d : Char} {s : List Char} {units : List Nat} :
      (∀ digit ∈ [a, b, c, d], isHexDigit digit = true) → SpellsUnits s units →
      SpellsUnits ('\\' :: 'u' :: a :: b :: c :: d :: s) (hexValue [a, b, c, d] :: units)

mutual

inductive Spells : List Char → Phrase → Prop
  | null : Spells "null".toList .null
  | true : Spells "true".toList (.bool true)
  | false : Spells "false".toList (.bool false)
  | positive {s : List Char} {whole : Bool} {numeral : Numeral} :
      SpellsUnsigned s whole numeral → Spells s (.number false whole numeral)
  | negative {s : List Char} {whole : Bool} {numeral : Numeral} :
      SpellsUnsigned s whole numeral → Spells ('-' :: s) (.number true whole numeral)
  | string {s : List Char} {units : List Nat} :
      SpellsUnits s units → Spells ('"' :: (s ++ ['"'])) (.string units)
  | emptyArray {blank : List Char} : IsBlank blank → Spells ('[' :: (blank ++ [']'])) (.array [])
  | array {s more : List Char} {item : Phrase} {items : List Phrase} :
      SpellsItem s item → SpellsItems more items →
      Spells ('[' :: (s ++ (more ++ [']']))) (.array (item :: items))
  | emptyObject {blank : List Char} :
      IsBlank blank → Spells ('\x7b' :: (blank ++ ['\x7d'])) (.object [])
  | object {s more : List Char} {member : List Nat × Phrase}
      {members : List (List Nat × Phrase)} :
      SpellsMember s member → SpellsMembers more members →
      Spells ('\x7b' :: (s ++ (more ++ ['\x7d']))) (.object (member :: members))

/-- Whether a text spells a phrase among blanks. -/
inductive SpellsItem : List Char → Phrase → Prop
  | mk {before s behind : List Char} {value : Phrase} : IsBlank before → Spells s value →
      IsBlank behind → SpellsItem (before ++ (s ++ behind)) value

inductive SpellsItems : List Char → List Phrase → Prop
  | nil : SpellsItems [] []
  | cons {s more : List Char} {item : Phrase} {items : List Phrase} : SpellsItem s item →
      SpellsItems more items → SpellsItems (',' :: (s ++ more)) (item :: items)

/-- Whether a text spells a member of an object. -/
inductive SpellsMember : List Char → List Nat × Phrase → Prop
  | mk {before name between s : List Char} {units : List Nat} {value : Phrase} :
      IsBlank before → SpellsUnits name units → IsBlank between → SpellsItem s value →
      SpellsMember (before ++ '"' :: (name ++ '"' :: (between ++ ':' :: s))) (units, value)

inductive SpellsMembers : List Char → List (List Nat × Phrase) → Prop
  | nil : SpellsMembers [] []
  | cons {s more : List Char} {member : List Nat × Phrase}
      {members : List (List Nat × Phrase)} : SpellsMember s member →
      SpellsMembers more members → SpellsMembers (',' :: (s ++ more)) (member :: members)

end

/-! ## Cutting at tokens -/

theorem tokens_eq (s : List Char) :
    tokens s = match s.dropWhile isJsonBlank with
      | [] => []
      | c :: rest => (readToken c rest).1 :: tokens (readToken c rest).2 := by
  rw [tokens]
  split <;> next hdrop => rw [hdrop]

theorem tokens_blank {blank : List Char} (h : IsBlank blank) (s : List Char) :
    tokens (blank ++ s) = tokens s := by
  rw [tokens_eq, tokens_eq s, List.dropWhile_append_of_pos h]

theorem tokens_of_readToken {c : Char} {s rest : List Char} {token : Token}
    (hc : isJsonBlank c = false) (h : readToken c s = (token, rest)) :
    tokens (c :: s) = token :: tokens rest := by
  rw [tokens_eq, List.dropWhile_cons_of_neg (by simp [hc])]
  simp only [h]

theorem tokens_openObject (s : List Char) : tokens ('\x7b' :: s) = .openObject :: tokens s :=
  tokens_of_readToken rfl rfl

theorem tokens_closeObject (s : List Char) : tokens ('\x7d' :: s) = .closeObject :: tokens s :=
  tokens_of_readToken rfl rfl

theorem tokens_openArray (s : List Char) : tokens ('[' :: s) = .openArray :: tokens s :=
  tokens_of_readToken rfl rfl

theorem tokens_closeArray (s : List Char) : tokens (']' :: s) = .closeArray :: tokens s :=
  tokens_of_readToken rfl rfl

theorem tokens_comma (s : List Char) : tokens (',' :: s) = .comma :: tokens s :=
  tokens_of_readToken rfl rfl

theorem tokens_colon (s : List Char) : tokens (':' :: s) = .colon :: tokens s :=
  tokens_of_readToken rfl rfl

/-! ## Numbers -/

def Follows (s : List Char) : Prop :=
  ∀ c ∈ s.head?, isJsonBlank c = true ∨ c = ',' ∨ c = ']' ∨ c = '\x7d'

theorem Follows.blank {blank rest : List Char} (hblank : IsBlank blank) (h : Follows rest) :
    Follows (blank ++ rest) := by
  cases blank with
  | nil => exact h
  | cons c blank =>
      intro c' hc'
      cases hc'
      exact .inl (hblank c List.mem_cons_self)

/-- What follows a number does not continue it. -/
theorem Follows.ends {s : List Char} (h : Follows s) {c : Char} (hc : c ∈ s.head?) :
    c.isDigit = false ∧ c ≠ '.' ∧ c ≠ 'e' ∧ c ≠ 'E' := by
  have hcases := h c hc
  simp only [isJsonBlank, Bool.or_eq_true, beq_iff_eq] at hcases
  rcases hcases with (((rfl | rfl) | rfl) | rfl) | rfl | rfl | rfl <;> decide

theorem span_digits {s rest : List Char} (hs : ∀ c ∈ s, c.isDigit = true)
    (hrest : ∀ c ∈ rest.head?, c.isDigit = false) :
    (s ++ rest).takeWhile Char.isDigit = s ∧ (s ++ rest).dropWhile Char.isDigit = rest := by
  rw [List.takeWhile_append_of_pos hs, List.dropWhile_append_of_pos hs]
  cases rest with
  | nil => simp
  | cons c rest => simp [hrest c rfl]

section

variable {s t e rest : List Char} {n : Int} (negative : Bool)

theorem readExponentDigits_append (minus : Bool) (hs : IsDigits s) (hrest : Follows rest)
    (whole fraction : List Char) :
    readExponentDigits negative minus whole fraction (s ++ rest)
      = (.number negative false
        ⟨whole, fraction, if minus then -(digitsValue s : Int) else digitsValue s⟩, rest) := by
  obtain ⟨htake, hdrop⟩ := span_digits hs.2 fun c hc => (hrest.ends hc).1
  rw [readExponentDigits, htake, hdrop, if_neg (by simpa using hs.1)]

theorem readAfterFraction_exponent (he : SpellsExponent e n) (hrest : Follows rest)
    (isWhole : Bool) (whole fraction : List Char) :
    readAfterFraction negative isWhole whole fraction (e ++ rest)
      = (.number negative false ⟨whole, fraction, n⟩, rest) := by
  cases he with
  | @plain e s hletter hs =>
      rw [List.cons_append, readAfterFraction, if_pos hletter]
      -- Without a sign the reader looks at the first digit, which is no sign.
      have hdigit : ∃ c more, s ++ rest = c :: more ∧ c.isDigit = true := by
        obtain ⟨c, more, rfl⟩ := List.exists_cons_of_ne_nil hs.1
        exact ⟨c, _, rfl, hs.2 c List.mem_cons_self⟩
      obtain ⟨c, more, heq, hc⟩ := hdigit
      rw [readExponentPart]
      · exact readExponentDigits_append negative false hs hrest whole fraction
      all_goals
        rintro more' hmore
        rw [heq] at hmore
        cases hmore
        cases hc
  | plus hletter hs =>
      rw [List.cons_append, readAfterFraction, if_pos hletter]
      exact readExponentDigits_append negative false hs hrest whole fraction
  | minus hletter hs =>
      rw [List.cons_append, readAfterFraction, if_pos hletter]
      exact readExponentDigits_append negative true hs hrest whole fraction

theorem readAfterFraction_end (hrest : Follows rest) (isWhole : Bool)
    (whole fraction : List Char) :
    readAfterFraction negative isWhole whole fraction rest
      = (.number negative isWhole ⟨whole, fraction, 0⟩, rest) := by
  cases rest with
  | nil => rfl
  | cons c rest =>
      obtain ⟨-, -, he, hE⟩ := hrest.ends rfl
      rw [readAfterFraction, if_neg (not_or.mpr ⟨he, hE⟩)]

theorem readAfterWhole_point (ht : IsDigits t) (hrest : ∀ c ∈ rest.head?, c.isDigit = false)
    (whole : List Char) :
    readAfterWhole negative whole ('.' :: (t ++ rest))
      = readAfterFraction negative false whole t rest := by
  obtain ⟨htake, hdrop⟩ := span_digits ht.2 hrest
  rw [readAfterWhole, htake, hdrop, if_neg (by simpa using ht.1)]

theorem readAfterWhole_noPoint (hrest : ∀ c ∈ rest.head?, c ≠ '.') (whole : List Char) :
    readAfterWhole negative whole rest = readAfterFraction negative true whole [] rest := by
  rw [readAfterWhole]
  rintro more rfl
  exact hrest '.' rfl rfl

theorem readUnsigned_append (hs : IsWhole s) (hrest : ∀ c ∈ rest.head?, c.isDigit = false) :
    readUnsigned negative (s ++ rest) = readAfterWhole negative s rest := by
  obtain ⟨htake, hdrop⟩ := span_digits hs.1.2 hrest
  have hzero : ¬ (s.head? = some '0' ∧ 1 < s.length) := by
    rintro ⟨hhead, hlength⟩
    rw [hs.2 hhead] at hlength
    exact absurd hlength (by decide)
  simp only [readUnsigned, htake, hdrop, hzero, if_false]
  rw [if_neg (by simpa using hs.1.1)]

theorem SpellsExponent.head (he : SpellsExponent e n) (rest : List Char) :
    ∀ c ∈ (e ++ rest).head?, c.isDigit = false ∧ c ≠ '.' := by
  have hletter {c : Char} (h : c = 'e' ∨ c = 'E') : c.isDigit = false ∧ c ≠ '.' := by
    rcases h with rfl | rfl <;> decide
  cases he <;> rintro c ⟨⟩ <;> exact hletter ‹_›

end

theorem SpellsUnsigned.read {s rest : List Char} {whole : Bool} {numeral : Numeral}
    (h : SpellsUnsigned s whole numeral) (hrest : Follows rest) (negative : Bool) :
    readUnsigned negative (s ++ rest) = (.number negative whole numeral, rest) := by
  have hdigit : ∀ c ∈ rest.head?, c.isDigit = false := fun c hc => (hrest.ends hc).1
  cases h with
  | whole hs =>
      rw [readUnsigned_append negative hs hdigit,
        readAfterWhole_noPoint negative fun c hc => (hrest.ends hc).2.1,
        readAfterFraction_end negative hrest]
  | point hs ht =>
      rw [List.append_assoc, List.cons_append, readUnsigned_append negative hs (by simp),
        readAfterWhole_point negative ht hdigit, readAfterFraction_end negative hrest]
  | exponent hs he =>
      rw [List.append_assoc, readUnsigned_append negative hs fun c hc => (he.head rest c hc).1,
        readAfterWhole_noPoint negative fun c hc => (he.head rest c hc).2,
        readAfterFraction_exponent negative he hrest]
  | pointExponent hs ht he =>
      rw [List.append_assoc, List.cons_append, List.append_assoc,
        readUnsigned_append negative hs (by simp),
        readAfterWhole_point negative ht fun c hc => (he.head rest c hc).1,
        readAfterFraction_exponent negative he hrest]

/-- A number is cut off before what follows it. -/
theorem SpellsUnsigned.tokens {s rest : List Char} {whole : Bool} {numeral : Numeral}
    (h : SpellsUnsigned s whole numeral) (hrest : Follows rest) :
    tokens (s ++ rest) = .number false whole numeral :: tokens rest
      ∧ tokens ('-' :: (s ++ rest)) = .number true whole numeral :: tokens rest := by
  have hread := h.read hrest
  refine ⟨?_, tokens_of_readToken rfl (hread true)⟩
  -- The tokenizer chooses by the first character. It is a digit, and so none of the marks.
  obtain ⟨c, more, hs, hc⟩ : ∃ c more, s ++ rest = c :: more ∧ c.isDigit = true := by
    have hwhole {s t : List Char} (hs : IsWhole s) :
        ∃ c more, s ++ t = c :: more ∧ c.isDigit = true := by
      obtain ⟨c, more, rfl⟩ := List.exists_cons_of_ne_nil hs.1.1
      exact ⟨c, _, rfl, hs.1.2 c List.mem_cons_self⟩
    cases h with
    | whole hs => exact hwhole hs
    | point hs | exponent hs | pointExponent hs =>
        rw [List.append_assoc]
        exact hwhole hs
  rw [hs] at hread ⊢
  have hne : ∀ mark : Char, mark.isDigit = false → c ≠ mark := by
    rintro mark hmark rfl
    rw [hmark] at hc
    cases hc
  refine tokens_of_readToken ?_ (Eq.trans ?_ (hread false))
  · simp [isJsonBlank, hne ' ' rfl, hne '\t' rfl, hne '\n' rfl, hne '\r' rfl]
  · simp [readToken, hne '\x7b' rfl, hne '\x7d' rfl, hne '[' rfl, hne ']' rfl, hne ',' rfl,
      hne ':' rfl, hne '"' rfl, hne 'n' rfl, hne 't' rfl, hne 'f' rfl, hne '-' rfl, hc]

/-! ## Strings -/

theorem escapedChar?_of_mem {c : Char} {unit : Nat} (h : (c, unit) ∈ shortEscapes) :
    c ≠ 'u' ∧ escapedChar? c = some unit := by
  have hall : ∀ entry ∈ shortEscapes, entry.1 ≠ 'u' ∧ escapedChar? entry.1 = some entry.2 := by
    decide
  exact hall _ h

theorem readString_plain {c : Char} (hquote : c ≠ '"') (hescape : c ≠ '\\')
    (hcontrol : 0x20 ≤ c.toNat) (before : List Nat) (s : List Char) :
    readString before (c :: s) = readString (c.toNat :: before) s := by
  rw [readString, if_neg (Nat.not_lt.mpr hcontrol)]
  case x_1 => exact fun h => hquote h
  all_goals
    intros
    exact hescape ‹_›

theorem readString_escape {c : Char} {unit : Nat} (h : (c, unit) ∈ shortEscapes)
    (before : List Nat) (s : List Char) :
    readString before ('\\' :: c :: s) = readString (unit :: before) s := by
  obtain ⟨hletter, hunit⟩ := escapedChar?_of_mem h
  rw [readString, hunit]
  all_goals
    intros
    exact hletter ‹_›

/-- A string is read up to its closing quote. -/
theorem SpellsUnits.read {s : List Char} {units : List Nat} (h : SpellsUnits s units)
    (before : List Nat) (rest : List Char) :
    readString before (s ++ '"' :: rest) = (.string (before.reverse ++ units), rest) := by
  induction h generalizing before with
  | nil => simp [readString]
  | plain hquote hescape hcontrol _ ih =>
      rw [List.cons_append, readString_plain hquote hescape hcontrol, ih, List.reverse_cons,
        List.append_assoc, List.singleton_append]
  | escape hescape _ ih =>
      rw [List.cons_append, List.cons_append, readString_escape hescape, ih, List.reverse_cons,
        List.append_assoc, List.singleton_append]
  | @numbered a b c d s units hdigits _ ih =>
      have hall : [a, b, c, d].all isHexDigit = true := List.all_eq_true.mpr hdigits
      simp only [List.cons_append, readString, hall, if_true]
      rw [ih, List.reverse_cons, List.append_assoc, List.singleton_append]

theorem SpellsUnits.tokens {s : List Char} {units : List Nat} (h : SpellsUnits s units)
    (rest : List Char) : tokens ('"' :: (s ++ '"' :: rest)) = .string units :: tokens rest :=
  tokens_of_readToken rfl (h.read [] rest)

/-! ## Texts -/

/-- The first half of the surrogate pair for a number beyond 16 bits. -/
def leadOf (n : Nat) : Nat := 0xD800 + (n - 0x10000) / 0x400

/-- The second half of the surrogate pair for a number beyond 16 bits. -/
def trailOf (n : Nat) : Nat := 0xDC00 + (n - 0x10000) % 0x400

/-- Whether units spell a text: each character by its number or, beyond 16 bits, by a surrogate
pair. -/
inductive UnitsOf : List Nat → List Char → Prop
  | nil : UnitsOf [] []
  | char {c : Char} {units : List Nat} {s : List Char} :
      UnitsOf units s → UnitsOf (c.toNat :: units) (c :: s)
  | pair {c : Char} {units : List Nat} {s : List Char} : 0x10000 ≤ c.toNat → UnitsOf units s →
      UnitsOf (leadOf c.toNat :: trailOf c.toNat :: units) (c :: s)

theorem unitsOf_map_toNat (s : List Char) : UnitsOf (s.map Char.toNat) s := by
  induction s with
  | nil => exact .nil
  | cons c s ih => exact .char ih

theorem decodeUnits_char (atEnd : Fault) (c : Char) (units : List Nat) :
    decodeUnits atEnd (c.toNat :: units) = (decodeUnits atEnd units).map (c :: ·) := by
  have hvalid : c.toNat < 0xD800 ∨ 0xDFFF < c.toNat := by
    rcases c.valid with h | ⟨h, -⟩
    · exact .inl h
    · exact .inr h
  have hlead : isLead c.toNat = false := by
    simp only [isLead, Bool.and_eq_false_iff, decide_eq_false_iff_not]
    omega
  have htrail : isTrail c.toNat = false := by
    simp only [isTrail, Bool.and_eq_false_iff, decide_eq_false_iff_not]
    omega
  cases units <;> simp [decodeUnits, hlead, htrail, Except.map]

theorem decodeUnits_pair (atEnd : Fault) {c : Char} (hc : 0x10000 ≤ c.toNat)
    (units : List Nat) :
    decodeUnits atEnd (leadOf c.toNat :: trailOf c.toNat :: units)
      = (decodeUnits atEnd units).map (c :: ·) := by
  have hvalid : c.toNat < 0x110000 := by
    rcases c.valid with h | ⟨-, h⟩
    · exact Nat.lt_trans h (by decide)
    · exact h
  have hlead : isLead (leadOf c.toNat) = true := by
    unfold leadOf
    exact Bool.and_eq_true_iff.mpr ⟨decide_eq_true (by omega), decide_eq_true (by omega)⟩
  have htrail : isTrail (trailOf c.toNat) = true := by
    unfold trailOf
    exact Bool.and_eq_true_iff.mpr ⟨decide_eq_true (by omega), decide_eq_true (by omega)⟩
  have hvalue : 0x10000 + 0x400 * (leadOf c.toNat - 0xD800) + (trailOf c.toNat - 0xDC00)
      = c.toNat := by
    unfold leadOf trailOf
    omega
  rw [decodeUnits, if_pos hlead, if_pos htrail, hvalue, Char.ofNat_toNat]

/-- The units of a text spell it. -/
theorem UnitsOf.stringText {units : List Nat} {s : List Char} (h : UnitsOf units s) :
    stringText units = .ok (String.ofList s) := by
  have hdecode : decodeUnits .malformed units = .ok s := by
    induction h with
    | nil => rfl
    | char _ ih => rw [decodeUnits_char, ih]; rfl
    | pair hc _ ih => rw [decodeUnits_pair _ hc, ih]; rfl
  rw [Json.stringText, hdecode]
  rfl

theorem isHexDigit_of_mem_hexByte {n : Nat} (hn : n < 256) :
    ∀ digit ∈ hexByte n, isHexDigit digit = true := by
  have hdigit : ∀ n < 16, isHexDigit (hexDigitChar n) = true := fun n hn => by
    rw [isHexDigit, hexDigitValue?_hexDigitChar n hn]
    rfl
  simp only [hexByte, List.mem_cons, List.not_mem_nil, or_false]
  rintro digit (rfl | rfl)
  · exact hdigit _ (by omega)
  · exact hdigit _ (by omega)

/-- A character that is written between quotes is spelled there. -/
theorem SpellsUnits.encode (c : Char) {s : List Char} {units : List Nat}
    (h : SpellsUnits s units) : SpellsUnits (encodeChar c ++ s) (c.toNat :: units) := by
  rw [encodeChar]
  split_ifs with hquote hescape hcontrol
  · subst hquote
    exact .escape (by decide) h
  · subst hescape
    exact .escape (by decide) h
  · have hdigits := isHexDigit_of_mem_hexByte (Nat.lt_trans hcontrol (by decide : 32 < 256))
    have hvalue : hexValue ('0' :: '0' :: hexByte c.toNat) = c.toNat :=
      hexValue_hexByte c.toNat (by omega)
    have hall : ∀ digit ∈ '0' :: '0' :: hexByte c.toNat, isHexDigit digit = true :=
      List.forall_mem_cons.mpr ⟨rfl, List.forall_mem_cons.mpr ⟨rfl, hdigits⟩⟩
    have hspells := SpellsUnits.numbered hall h
    rwa [← hexByte, hvalue] at hspells
  · exact .plain hquote hescape (Nat.not_lt.mp hcontrol) h

/-- So is a text. -/
theorem spellsUnits_flatMap_encodeChar (s : List Char) :
    SpellsUnits (s.flatMap encodeChar) (s.map Char.toNat) := by
  induction s with
  | nil => exact .nil
  | cons c s ih => exact ih.encode c

theorem spells_quoted (s : String) : Spells (quoted s) (.string (s.toList.map Char.toNat)) :=
  .string (spellsUnits_flatMap_encodeChar s.toList)

/-! ## Phrases -/

theorem SpellsItems.follows {s rest : List Char} {items : List Phrase} (h : SpellsItems s items)
    (hrest : Follows rest) : Follows (s ++ rest) := by
  cases h with
  | nil => exact hrest
  | cons =>
      rintro c ⟨⟩
      exact .inr (.inl rfl)

theorem SpellsMembers.follows {s rest : List Char} {members : List (List Nat × Phrase)}
    (h : SpellsMembers s members) (hrest : Follows rest) : Follows (s ++ rest) := by
  cases h with
  | nil => exact hrest
  | cons =>
      rintro c ⟨⟩
      exact .inr (.inl rfl)

theorem follows_closeArray (rest : List Char) : Follows (']' :: rest) := by
  rintro c ⟨⟩
  exact .inr (.inr (.inl rfl))

theorem follows_closeObject (rest : List Char) : Follows ('\x7d' :: rest) := by
  rintro c ⟨⟩
  exact .inr (.inr (.inr rfl))

mutual

theorem Spells.tokens {s rest : List Char} {value : Phrase} (h : Spells s value)
    (hrest : Follows rest) : tokens (s ++ rest) = value.tokens ++ tokens rest := by
  cases h with
  | null | true | false => exact tokens_of_readToken rfl rfl
  | positive hs => exact (hs.tokens hrest).1
  | negative hs => exact (hs.tokens hrest).2
  | string hs =>
      rw [List.cons_append, List.append_assoc]
      exact hs.tokens rest
  | emptyArray hblank =>
      rw [List.cons_append, List.append_assoc, tokens_openArray, tokens_blank hblank,
        List.singleton_append, tokens_closeArray]
      rfl
  -- What may stand behind an item is what its followers start with, which is a comma or the
  -- closing bracket.
  | array hitem hitems =>
      have hclose := follows_closeArray rest
      rw [List.cons_append, List.append_assoc, List.append_assoc, List.singleton_append,
        tokens_openArray, hitem.tokens (hitems.follows hclose), hitems.tokens hclose,
        tokens_closeArray, Phrase.tokens]
      simp
  | emptyObject hblank =>
      rw [List.cons_append, List.append_assoc, tokens_openObject, tokens_blank hblank,
        List.singleton_append, tokens_closeObject]
      rfl
  | @object s more member members hmember hmembers =>
      have hclose := follows_closeObject rest
      rw [List.cons_append, List.append_assoc, List.append_assoc, List.singleton_append,
        tokens_openObject, hmember.tokens (hmembers.follows hclose), hmembers.tokens hclose,
        tokens_closeObject, Phrase.tokens]
      simp
termination_by 2 * s.length
decreasing_by all_goals subst_vars; simp only [List.length_append, List.length_cons]; omega

theorem SpellsItem.tokens {s rest : List Char} {value : Phrase} (h : SpellsItem s value)
    (hrest : Follows rest) : tokens (s ++ rest) = value.tokens ++ tokens rest := by
  cases h with
  | mk hbefore hs hbehind =>
      rw [List.append_assoc, List.append_assoc, tokens_blank hbefore,
        hs.tokens (hrest.blank hbehind), tokens_blank hbehind]
termination_by 2 * s.length + 1
decreasing_by all_goals subst_vars; simp only [List.length_append]; omega

theorem SpellsItems.tokens {s rest : List Char} {items : List Phrase} (h : SpellsItems s items)
    (hrest : Follows rest) : tokens (s ++ rest) = itemsTokens items ++ tokens rest := by
  cases h with
  | nil => rfl
  | cons hitem hitems =>
      rw [List.cons_append, List.append_assoc, tokens_comma,
        hitem.tokens (hitems.follows hrest), hitems.tokens hrest, itemsTokens]
      simp
termination_by 2 * s.length
decreasing_by all_goals subst_vars; simp only [List.length_append, List.length_cons]; omega

theorem SpellsMember.tokens {s rest : List Char} {member : List Nat × Phrase}
    (h : SpellsMember s member) (hrest : Follows rest) :
    tokens (s ++ rest)
      = .string member.1 :: .colon :: (member.2.tokens ++ tokens rest) := by
  cases h with
  | mk hbefore hname hbetween hvalue =>
      rw [List.append_assoc, tokens_blank hbefore, List.cons_append, List.append_assoc,
        List.cons_append, hname.tokens, List.append_assoc, tokens_blank hbetween,
        List.cons_append, tokens_colon, hvalue.tokens hrest]
termination_by 2 * s.length
decreasing_by all_goals subst_vars; simp only [List.length_append, List.length_cons]; omega

theorem SpellsMembers.tokens {s rest : List Char} {members : List (List Nat × Phrase)}
    (h : SpellsMembers s members) (hrest : Follows rest) :
    tokens (s ++ rest) = membersTokens members ++ tokens rest := by
  cases h with
  | nil => rfl
  | @cons s more member members hmember hmembers =>
      rw [List.cons_append, List.append_assoc, tokens_comma,
        hmember.tokens (hmembers.follows hrest), hmembers.tokens hrest, membersTokens]
      simp
termination_by 2 * s.length
decreasing_by all_goals subst_vars; simp only [List.length_append, List.length_cons]; omega

end

/-- A text that spells one phrase among blanks has the tokens of that phrase. -/
theorem SpellsItem.tokens_eq {s : List Char} {value : Phrase} (h : SpellsItem s value) :
    Json.tokens s = value.tokens := by
  have hend : Follows [] := by
    rintro c ⟨⟩
  have hnil : Json.tokens [] = [] := by
    rw [Json.tokens_eq]
    rfl
  have htokens := h.tokens hend
  rwa [List.append_nil, hnil, List.append_nil] at htokens

/-! ## Objects that are written -/

theorem isBlank_nil : IsBlank [] := by
  rintro c ⟨⟩

theorem Spells.item {s : List Char} {value : Phrase} (h : Spells s value) :
    SpellsItem s value := by
  have hitem := SpellsItem.mk isBlank_nil h isBlank_nil
  rwa [List.nil_append, List.append_nil] at hitem

/-- Whether a member is written as a member of a phrase. -/
def Writes (entry : String × Value) (member : List Nat × Phrase) : Prop :=
  member.1 = entry.1.toList.map Char.toNat ∧ Spells entry.2.text member.2

def memberText (entry : String × Value) : List Char :=
  quoted entry.1 ++ ':' :: entry.2.text

theorem membersText_cons (entry : String × Value) (entries : List (String × Value)) :
    membersText (entry :: entries)
      = memberText entry ++ entries.flatMap fun later => ',' :: memberText later := by
  induction entries generalizing entry with
  | nil => simp [membersText, memberText]
  | cons next entries ih =>
      obtain ⟨name, value⟩ := entry
      rw [membersText, ih]
      simp [memberText]

theorem Writes.spellsMember {entry : String × Value} {member : List Nat × Phrase}
    (h : Writes entry member) : SpellsMember (memberText entry) member := by
  obtain ⟨units, value⟩ := member
  obtain ⟨rfl, hvalue⟩ := h
  have hmember := SpellsMember.mk isBlank_nil (spellsUnits_flatMap_encodeChar entry.1.toList)
    isBlank_nil hvalue.item
  simpa [memberText, quoted] using hmember

theorem spells_obj {entries : List (String × Value)} {members : List (List Nat × Phrase)}
    (h : List.Forall₂ Writes entries members) :
    Spells (Value.obj entries).text (.object members) := by
  have hmore {entries : List (String × Value)} {members : List (List Nat × Phrase)}
      (h : List.Forall₂ Writes entries members) :
      SpellsMembers (entries.flatMap fun later => ',' :: memberText later) members := by
    induction h with
    | nil => exact .nil
    | cons hentry _ ih => exact .cons hentry.spellsMember ih
  rw [Value.text]
  cases h with
  | nil => exact .emptyObject isBlank_nil
  | cons hentry hentries =>
      rw [membersText_cons, List.append_assoc]
      exact .object hentry.spellsMember (hmore hentries)

end Mustache.Json
