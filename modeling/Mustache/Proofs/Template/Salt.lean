import Mathlib.Data.Finset.Card
import Mathlib.Data.Finset.Range
import Mathlib.Data.List.Chain
import Mustache.Proofs.Text.Decimal
import Mustache.Proofs.Text.Occurrences
import Mustache.Template.Placeholder

/-!
How placeholders start.

The placeholders of a source start with a word that is nowhere in the source. There is
such a word among the first salts: the words of two salts do not start at the same place,
so a source holds the words of no more salts than it has places where such a word may
start. A search through the salts therefore ends, with the least one whose word is new, and
its counter of 32 bits does not run over in any source of fewer than 2^32 bytes
(`salt_search_ends`). Two underscores follow each other in such a word at its very start only;
hence nothing but its last underscore can begin another one.
-/
set_option autoImplicit false

namespace Mustache

open Text

namespace Placeholder

/-! ## The words of salts -/

/-- The digits of a salt in its words. -/
def saltDigits : Nat → List Char
  | 0 => []
  | salt + 1 => decimal (salt + 1)

theorem start_succ (salt : Nat) :
    start (salt + 1) = "__stache".toList ++ decimal (salt + 1) ++ "_tag_".toList := rfl

theorem start_eq (salt : Nat) :
    start salt = commonStart ++ (saltDigits salt ++ "_tag_".toList) := by
  cases salt with
  | zero => decide
  | succ salt => exact List.append_assoc _ _ _

theorem start_ne_nil (salt : Nat) : start salt ≠ [] := by
  intro hnil
  rw [start_eq] at hnil
  exact absurd (List.append_eq_nil_iff.mp hnil).1 (by decide)

theorem isDigit_of_mem_saltDigits (salt : Nat) : ∀ c ∈ saltDigits salt, c.isDigit = true := by
  cases salt with
  | zero => simp [saltDigits]
  | succ salt => exact isDigit_of_mem_decimal (salt + 1)

theorem digitsValue_saltDigits (salt : Nat) : digitsValue (saltDigits salt) = salt := by
  cases salt with
  | zero => rfl
  | succ salt => exact digitsValue_decimal (salt + 1)

/-- The words of two salts do not start at the same place. -/
theorem eq_of_start_prefix {a b : Nat} {s : List Char} (ha : start a <+: s) (hb : start b <+: s) :
    a = b := by
  obtain ⟨x, rfl⟩ := ha
  obtain ⟨y, hy⟩ := hb
  rw [start_eq b, start_eq a, List.append_assoc, List.append_assoc, List.append_assoc,
    List.append_assoc, List.append_cancel_left_eq] at hy
  -- What stands behind the common start are digits up to the next underscore.
  have hdigits (salt : Nat) (rest : List Char) :
      (saltDigits salt ++ ("_tag_".toList ++ rest)).takeWhile Char.isDigit = saltDigits salt := by
    rw [List.takeWhile_append_of_pos (isDigit_of_mem_saltDigits salt)]
    have htag : "_tag_".toList = ['_', 't', 'a', 'g', '_'] := by decide
    rw [htag, List.cons_append, List.takeWhile_cons_of_neg (by decide), List.append_nil]
  have hsalts := congrArg (List.takeWhile Char.isDigit) hy
  rw [hdigits, hdigits] at hsalts
  rw [← digitsValue_saltDigits a, ← digitsValue_saltDigits b, hsalts]

theorem commonStart_leads (salt : Nat) : commonStart <+: start salt := by
  rw [start_eq]
  exact List.prefix_append _ _

/-! ## A fresh word -/

/-- A text holds the words of no more salts than there are places where such a word may
start. -/
theorem card_le_occurrences (salts : Finset Nat) (s : List Char)
    (h : ∀ salt ∈ salts, start salt <:+: s) : salts.card ≤ occurrences commonStart s := by
  classical
  induction s generalizing salts with
  | nil =>
      have hempty : salts = ∅ := by
        refine Finset.eq_empty_of_forall_notMem fun salt hsalt => ?_
        exact start_ne_nil salt (List.infix_nil.mp (h salt hsalt))
      rw [hempty, Finset.card_empty]
      exact Nat.zero_le _
  | cons c s ih =>
      -- One salt at most has its word at the first place; the others are in the rest.
      let here := salts.filter fun salt => start salt <+: c :: s
      let later := salts.filter fun salt => ¬ start salt <+: c :: s
      have hsplit : here.card + later.card = salts.card := Finset.card_filter_add_card_filter_not _
      have hlater : later.card ≤ occurrences commonStart s := by
        refine ih later fun salt hsalt => ?_
        obtain ⟨hmem, hnot⟩ := Finset.mem_filter.mp hsalt
        exact (List.infix_cons_iff.mp (h salt hmem)).resolve_left hnot
      have hhere : here.card ≤ if commonStart.isPrefixOf (c :: s) then 1 else 0 := by
        split_ifs with hcommon
        · refine Finset.card_le_one.mpr fun a ha b hb => ?_
          exact eq_of_start_prefix (Finset.mem_filter.mp ha).2 (Finset.mem_filter.mp hb).2
        · have hempty : here = ∅ := by
            refine Finset.eq_empty_of_forall_notMem fun salt hsalt => hcommon ?_
            exact List.isPrefixOf_iff_prefix.mpr
              ((commonStart_leads salt).trans (Finset.mem_filter.mp hsalt).2)
          rw [hempty, Finset.card_empty]
      rw [occurrences]
      omega

/-- The salts that are looked through are enough: the chosen one is found among them. -/
theorem find?_saltFor (source : List Char) :
    ((List.range (occurrences commonStart source + 1)).find? fun salt =>
      !occursIn (start salt) source) = some (saltFor source) := by
  rw [saltFor]
  cases hfind : (List.range (occurrences commonStart source + 1)).find? fun salt =>
      !occursIn (start salt) source with
  | some salt => rw [Option.getD_some]
  | none =>
      -- Otherwise each of these salts has its word in the source: one too many.
      have hall := List.find?_eq_none.mp hfind
      have hcard := card_le_occurrences (Finset.range (occurrences commonStart source + 1)) source
        fun salt hsalt => by
          have hsalt := hall salt (List.mem_range.mpr (Finset.mem_range.mp hsalt))
          exact occursIn_iff.mp (by simpa using hsalt)
      rw [Finset.card_range] at hcard
      omega

/-- The words that are chosen for a source start as nothing in it does. -/
theorem start_saltFor_fresh (source : List Char) : ¬ start (saltFor source) <:+: source := by
  obtain ⟨hfresh, -, -⟩ := List.find?_range_eq_some.mp (find?_saltFor source)
  intro hoccurs
  rw [occursIn_iff.mpr hoccurs] at hfresh
  exact absurd hfresh (by decide)

/-- The chosen salt is no greater than the number of places where a word may start. -/
theorem saltFor_le_occurrences (source : List Char) :
    saltFor source ≤ occurrences commonStart source := by
  obtain ⟨-, hmem, -⟩ := List.find?_range_eq_some.mp (find?_saltFor source)
  exact Nat.lt_succ_iff.mp (List.mem_range.mp hmem)

/-- The words of all smaller salts than the chosen one stand in the source. -/
theorem start_infix_of_lt_saltFor {source : List Char} {salt : Nat}
    (h : salt < saltFor source) : start salt <:+: source := by
  obtain ⟨-, -, hearlier⟩ := List.find?_range_eq_some.mp (find?_saltFor source)
  have hoccurs := hearlier salt h
  rw [Bool.not_not] at hoccurs
  exact occursIn_iff.mp hoccurs

theorem occurrences_le_byteLength {word : List Char} (hword : word ≠ []) (s : List Char) :
    occurrences word s ≤ byteLength s := by
  induction s with
  | nil => simp [occurrences, hword]
  | cons c s ih =>
      have hpos := Char.utf8Size_pos c
      rw [occurrences, byteLength_cons]
      split_ifs <;> omega

/-! ## The search -/

/-- How far a search for a fresh word has come: to a salt, and to the word that is tried. -/
structure SaltSearch where
  salt : Nat
  word : List Char

namespace SaltSearch

/-- A search begins with the word without a salt. -/
def first : SaltSearch where
  salt := 0
  word := "__stache_tag_".toList

/-- The search with the next salt, of which its counter keeps what `kept` says. -/
def next (kept : Nat → Nat) (search : SaltSearch) : SaltSearch where
  salt := kept (search.salt + 1)
  word := "__stache".toList ++ decimal (kept (search.salt + 1)) ++ "_tag_".toList

/-- A search ends, after a number of steps, with a word that is not in the source; each
step turns down a word that is. -/
inductive Ends (kept : Nat → Nat) (source : List Char) :
    (search : SaltSearch) → (steps : Nat) → (found : SaltSearch) → Prop
  | fresh {search : SaltSearch} (hfresh : occursIn search.word source = false) :
      Ends kept source search 0 search
  | turnDown {search found : SaltSearch} {steps : Nat}
      (hoccurs : occursIn search.word source = true)
      (hrest : Ends kept source (search.next kept) steps found) :
      Ends kept source search (steps + 1) found

variable {kept : Nat → Nat} {source : List Char}

/-- A search tries the words of one salt after another, as long as its counter keeps them. -/
theorem next_start {salt : Nat} (hkept : kept (salt + 1) = salt + 1) :
    (SaltSearch.mk salt (start salt)).next kept = ⟨salt + 1, start (salt + 1)⟩ := by
  rw [start_succ, next, hkept]

/-- A search comes from any salt to the chosen one, with a step for each salt between. -/
theorem ends_from (hkept : ∀ salt ≤ saltFor source, kept salt = salt) (steps : Nat) :
    ∀ salt, salt + steps = saltFor source →
      Ends kept source ⟨salt, start salt⟩ steps ⟨saltFor source, start (saltFor source)⟩ := by
  induction steps with
  | zero =>
      rintro salt rfl
      refine .fresh ?_
      rw [← Bool.not_eq_true, occursIn_iff]
      exact start_saltFor_fresh source
  | succ steps ih =>
      intro salt hsalt
      refine .turnDown (occursIn_iff.mpr (start_infix_of_lt_saltFor (by omega))) ?_
      rw [next_start (hkept (salt + 1) (by omega))]
      exact ih (salt + 1) (by omega)

/-- A search ends with the chosen salt, if its counter keeps all salts up to that. -/
theorem ends_saltFor (hkept : ∀ salt ≤ saltFor source, kept salt = salt) :
    Ends kept source first (saltFor source) ⟨saltFor source, start (saltFor source)⟩ :=
  ends_from hkept (saltFor source) 0 (Nat.zero_add _)

end SaltSearch

/-- What a search for a fresh word in a source comes to. -/
structure SearchedFor (source : List Char) (salt : Nat) : Prop where
  /-- It turns down one word for each smaller salt, and ends with the word of this one. -/
  ends : SaltSearch.Ends id source .first salt ⟨salt, start salt⟩
  /-- It takes no more steps than there are places where such a word may start. -/
  bounded : salt ≤ occurrences commonStart source
  /-- The word that it ends with is nowhere in the source. -/
  absent : ¬ start salt <:+: source
  /-- The words of all smaller salts are. -/
  least : ∀ smaller < salt, start smaller <:+: source
  /-- A counter of 32 bits makes no difference if it can hold the salt. -/
  ends_word : salt < UInt32.size →
    SaltSearch.Ends (· % UInt32.size) source .first salt ⟨salt, start salt⟩
  /-- It can in any source whose bytes it can count. -/
  holds : byteLength source < UInt32.size → salt < UInt32.size

/-- The search for a fresh word ends in every source, with the least salt whose word is not
in the source, and after no more steps than there are places where such a word may start. A
counter of 32 bits does not run over in a source of fewer than 2^32 bytes. -/
theorem salt_search_ends (source : List Char) : SearchedFor source (saltFor source) where
  ends := SaltSearch.ends_saltFor fun _ _ => rfl
  bounded := saltFor_le_occurrences source
  absent := start_saltFor_fresh source
  least := fun _ h => start_infix_of_lt_saltFor h
  ends_word := by
    intro hsalt
    refine SaltSearch.ends_saltFor fun salt hle => ?_
    have hword : salt < UInt32.size := by omega
    exact Nat.mod_eq_of_lt hword
  holds := fun hsize =>
    calc saltFor source
      _ ≤ occurrences commonStart source := saltFor_le_occurrences source
      _ ≤ byteLength source := occurrences_le_byteLength (by decide) source
      _ < UInt32.size := hsize

/-- The word without a salt stands behind that of the first salt, and twice; the common start
alone is no word. -/
theorem salt_search_ends_of_two :
    let source := "__stache1_tag_0__ __stache_tag___stache_tag_ __stache2".toList
    byteLength source < UInt32.size
      ∧ saltFor source = 2
      ∧ SaltSearch.Ends (· % UInt32.size) source .first 2 ⟨2, start 2⟩ := by
  intro source
  have hsize : byteLength source < UInt32.size := by decide
  have hsalt : saltFor source = 2 := by decide +kernel
  have hsearched := salt_search_ends source
  refine ⟨hsize, hsalt, ?_⟩
  rw [← hsalt]
  exact hsearched.ends_word (hsearched.holds hsize)

/-! ## Underscores -/

def UnderscoresApart (a b : Char) : Prop :=
  ¬ (a = '_' ∧ b = '_')

instance : DecidableRel UnderscoresApart :=
  fun a b => inferInstanceAs (Decidable (¬ (a = '_' ∧ b = '_')))

/-- A word starts with two underscores, and behind the first one no two of them follow each
other. -/
theorem start_underscores (salt : Nat) :
    ∃ rest, start salt = '_' :: '_' :: rest ∧ ('_' :: rest).IsChain UnderscoresApart := by
  have hcommon : commonStart = '_' :: '_' :: "stache".toList := by decide
  refine ⟨"stache".toList ++ (saltDigits salt ++ "_tag_".toList), ?_, ?_⟩
  · rw [start_eq, hcommon, List.cons_append, List.cons_append]
  · have hdigit : ∀ c ∈ saltDigits salt, c ≠ '_' := by
      rintro c hc rfl
      exact absurd (isDigit_of_mem_saltDigits salt '_' hc) (by decide)
    -- No underscore is followed by another but the first two, whatever the digits of the salt.
    have hletters : ('_' :: "stache".toList).IsChain UnderscoresApart := by decide
    have htag : "_tag_".toList.IsChain UnderscoresApart := by decide
    have hdigits : (saltDigits salt).IsChain UnderscoresApart := by
      refine (List.pairwise_of_forall_mem_list ?_).isChain
      rintro c hc d - ⟨rfl, -⟩
      exact hdigit _ hc rfl
    rw [← List.cons_append]
    refine List.isChain_append.mpr ⟨hletters, List.isChain_append.mpr ⟨hdigits, htag, ?_⟩, ?_⟩
    · rintro c hc d hd ⟨rfl, -⟩
      exact hdigit _ (List.mem_of_getLast? hc) rfl
    · rintro c hc d hd ⟨rfl, -⟩
      exact absurd hc (by decide)

/-- If a word begins in another one behind its start, it begins with the last underscore of
that. -/
theorem eq_underscore_of_border {salt : Nat} {x y : List Char} (hword : start salt = x ++ y)
    (hx : x ≠ []) (hy : y ≠ []) (hstarts : y <+: start salt) : y = ['_'] := by
  obtain ⟨rest, hstart, hchain⟩ := start_underscores salt
  obtain ⟨c, x, rfl⟩ := List.exists_cons_of_ne_nil hx
  rw [hstart] at hword hstarts
  obtain ⟨-, hrest⟩ := List.cons_eq_cons.mp hword
  rw [hrest] at hchain
  obtain ⟨d, y, rfl⟩ := List.exists_cons_of_ne_nil hy
  obtain ⟨rfl, htail⟩ := List.cons_prefix_cons.mp hstarts
  cases y with
  | nil => rfl
  | cons e y =>
      obtain ⟨rfl, -⟩ := List.cons_prefix_cons.mp htail
      have hpair := (List.isChain_append.mp hchain).2.1
      exact absurd (And.intro rfl rfl) (List.isChain_cons_cons.mp hpair).1

end Placeholder

end Mustache
