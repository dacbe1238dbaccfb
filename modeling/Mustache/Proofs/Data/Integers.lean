import Mustache.Data.Printed
import Mustache.Json.Token
import Mustache.Proofs.Numeral.Integers

/-!
Integers in values that are printed.

The renderer prints an integer of 64 bits exactly, and a script the shortest decimal of the
nearest number. What a value prints is the same in both exactly if every integer in it that is
printed is spelled (`integers_print_alike`). Where one is not, the text of the script differs
from its numeral and is not shorter, so that in a list no other item can make up for it
(`compare_items`).
-/
set_option autoImplicit false

namespace Mustache

open Json (Number Value)
open Text

/-! ## Numbers -/

/-- Whether a number is what an integer of 64 bits, signed or unsigned, is read as. The integer
`-0` is read as a zero that has kept its sign. -/
def Json.Number.IsInteger : Number → Prop
  | .int n => -(2 ^ 63) ≤ n ∧ n < 2 ^ 64
  | .double x => x = Binary64.zero true

def Json.Number.PrintsInScripts : Number → String → Prop
  | .int n, s => Script.Prints n s.toList
  | .double x, s => Script.PrintsNumber x s.toList

def Json.Number.scriptText : Number → String
  | .int n => String.ofList (Script.roundedText n)
  | .double x => String.ofList x.text

section

variable {number : Number}

/-- An integer of 64 bits, with or without a sign, has at most 64 bits. -/
theorem Json.Number.IsInteger.natAbs_le {n : Int} (h : (Number.int n).IsInteger) :
    n.natAbs ≤ 2 ^ 64 := by
  obtain ⟨hlow, hhigh⟩ := h
  omega

theorem Json.Number.printsInScripts_iff (h : number.IsInteger) (s : String) :
    number.PrintsInScripts s ↔ s = number.scriptText := by
  have htext (t : List Char) : s.toList = t ↔ s = String.ofList t :=
    ⟨fun heq => by rw [← heq, String.ofList_toList], fun heq => by rw [heq, String.toList_ofList]⟩
  cases number with
  | int n =>
      rw [PrintsInScripts, scriptText, Script.prints_iff h.natAbs_le, htext]
  | double x =>
      obtain rfl := h
      have hzero : (Binary64.zero true).mantissa = 0 := rfl
      rw [PrintsInScripts, scriptText, Script.PrintsNumber, Binary64.text_eq, if_pos hzero,
        if_pos hzero, htext]

theorem Json.Number.printed_eq_iff (h : number.IsInteger) :
    number.printed = number.scriptText ↔ ∀ n, number = .int n → Script.IsSpelled n := by
  cases number with
  | int n =>
      rw [printed, scriptText, String.ofList_inj, Script.integerText_eq_iff h.natAbs_le]
      constructor
      · rintro hspelled m heq
        obtain rfl := Number.int.inj heq
        exact hspelled
      · exact fun hspelled => hspelled n rfl
  | double x => exact iff_of_true rfl fun n heq => Number.noConfusion heq

theorem Json.Number.length_printed_le (h : number.IsInteger) :
    number.printed.length ≤ number.scriptText.length := by
  cases number with
  | int n =>
      rw [printed, scriptText, String.length_ofList, String.length_ofList]
      exact Script.length_integerText_le h.natAbs_le
  | double x => exact le_rfl

end

/-! ## Values -/

mutual

/-- The text that a script makes of a value by string conversion. -/
def Json.Value.scriptText : Value → String
  | .null => "null"
  | .bool b => if b then "true" else "false"
  | .num number => number.scriptText
  | .str s => s
  | .arr items => ",".intercalate (scriptTexts items)
  | .obj _ => "[object Object]"

/-- The texts of the items of a list that a script joins; null is the empty text there. -/
def scriptTexts : List Value → List String
  | [] => []
  | item :: rest => (match item with | .null => "" | item => item.scriptText) :: scriptTexts rest

end

mutual

/-- The numbers of a value that are printed: those that are not in an object. -/
def Json.Value.printedNumbers : Value → List Number
  | .num number => [number]
  | .arr items => printedNumbersOf items
  | .null | .bool _ | .str _ | .obj _ => []

/-- The numbers of the items of a list that are printed. -/
def printedNumbersOf : List Value → List Number
  | [] => []
  | item :: rest => item.printedNumbers ++ printedNumbersOf rest

end

/-- Texts that are joined are the same if the joined text is, if none of them is longer on one
of the two sides. -/
theorem eq_of_intercalate_eq (separator : List Char) {texts texts' : List (List Char)}
    (h : List.Forall₂ (fun s t => s.length ≤ t.length) texts texts') :
    (separator.intercalate texts).length ≤ (separator.intercalate texts').length
      ∧ (separator.intercalate texts = separator.intercalate texts' → texts = texts') := by
  induction h with
  | nil => exact ⟨le_rfl, fun _ => rfl⟩
  | cons hfirst hrest ih =>
      obtain ⟨hle, heq⟩ := ih
      cases hrest with
      | nil =>
          rw [List.intercalate_singleton, List.intercalate_singleton]
          exact ⟨hfirst, fun h => by rw [h]⟩
      | cons hsecond hrest =>
          rw [List.intercalate_cons_cons, List.intercalate_cons_cons]
          constructor
          · simp only [List.length_append] at hle ⊢
            omega
          · intro hjoined
            have hlength := congrArg List.length hjoined
            simp only [List.length_append] at hlength hle
            rw [List.append_assoc, List.append_assoc] at hjoined
            -- No text is longer than its partner, so the lengths of the joined texts agree only if
            -- those of the first texts do; then both can be cut there.
            obtain ⟨hsame, hbehind⟩ := List.append_inj hjoined (by omega)
            rw [hsame, heq (List.append_cancel_left hbehind)]

mutual

/-- What a value prints is not longer than its text in scripts, and the same if all numbers in
it are printed alike. -/
theorem compare_value (v : Value) (hv : ∀ number ∈ v.printedNumbers, number.IsInteger) :
    v.printed.length ≤ v.scriptText.length
      ∧ (v.printed = v.scriptText
        ↔ ∀ number ∈ v.printedNumbers, number.printed = number.scriptText) := by
  cases v with
  -- No number is printed in these, and both texts are one.
  | null | bool | str | obj => exact ⟨le_rfl, iff_of_true rfl fun _ h => nomatch h⟩
  | num number =>
      rw [Value.printed, Value.scriptText, Value.printedNumbers]
      exact ⟨Number.length_printed_le (hv number List.mem_cons_self),
        ⟨fun h _ hmem => List.mem_singleton.mp hmem ▸ h, fun h => h number List.mem_cons_self⟩⟩
  | arr items =>
      obtain ⟨hlength, hsame⟩ := compare_items items hv
      have htexts : List.Forall₂ (fun s t => s.length ≤ t.length)
          ((printedItems items).map String.toList) ((scriptTexts items).map String.toList) := by
        rw [List.forall₂_map_left_iff, List.forall₂_map_right_iff]
        exact hlength
      obtain ⟨hle, heq⟩ := eq_of_intercalate_eq ",".toList htexts
      rw [Value.printed, Value.scriptText, Value.printedNumbers, ← hsame]
      refine ⟨?_, fun h => ?_, fun h => by rw [h]⟩
      · rw [← String.length_toList, ← String.length_toList, String.toList_intercalate,
          String.toList_intercalate]
        exact hle
      · have hjoined := congrArg String.toList h
        rw [String.toList_intercalate, String.toList_intercalate] at hjoined
        exact List.map_injective_iff.mpr (fun _ _ => String.toList_injective) (heq hjoined)

theorem compare_items (items : List Value)
    (hitems : ∀ number ∈ printedNumbersOf items, number.IsInteger) :
    List.Forall₂ (fun s t : String => s.length ≤ t.length) (printedItems items)
        (scriptTexts items)
      ∧ (printedItems items = scriptTexts items
        ↔ ∀ number ∈ printedNumbersOf items, number.printed = number.scriptText) := by
  cases items with
  | nil => exact ⟨.nil, iff_of_true rfl fun _ h => nomatch h⟩
  | cons item rest =>
      have hparts := List.forall_mem_append.mp hitems
      obtain ⟨hlength, hsame⟩ := compare_items rest hparts.2
      -- Null is the empty text on both sides.
      obtain ⟨text, text', htexts, htexts', hle, heq⟩ : ∃ text text' : String,
          printedItems (item :: rest) = text :: printedItems rest
            ∧ scriptTexts (item :: rest) = text' :: scriptTexts rest
            ∧ text.length ≤ text'.length
            ∧ (text = text' ↔ ∀ number ∈ item.printedNumbers,
              number.printed = number.scriptText) := by
        obtain ⟨hle, heq⟩ := compare_value item hparts.1
        cases item with
        | null => exact ⟨"", "", rfl, rfl, le_rfl, iff_of_true rfl fun _ h => nomatch h⟩
        | bool | num | str | arr | obj => exact ⟨_, _, rfl, rfl, hle, heq⟩
      rw [htexts, htexts', printedNumbersOf, List.forall_mem_append, ← heq, ← hsame,
        List.cons_eq_cons]
      exact ⟨.cons hle hlength, Iff.rfl⟩

end

/-- What a value prints whose printed numbers are integers of 64 bits is its text in scripts
exactly if each of these integers is spelled, as all of at most 53 bits are; of those that denote
one number at most one is. -/
theorem integers_print_alike {v : Value}
    (hv : ∀ number ∈ v.printedNumbers, number.IsInteger) :
    (∀ number ∈ v.printedNumbers, ∀ s, number.PrintsInScripts s ↔ s = number.scriptText)
      ∧ (v.printed = v.scriptText
        ↔ ∀ n, .int n ∈ v.printedNumbers → Script.IsSpelled n)
      ∧ (∀ n : Int, n.natAbs ≤ 2 ^ 53 → Script.IsSpelled n)
      ∧ ∀ m n x, .int m ∈ v.printedNumbers → .int n ∈ v.printedNumbers →
        Binary64.Denotes x m → Binary64.Denotes x n → Script.IsSpelled m → Script.IsSpelled n →
          m = n := by
  refine ⟨fun number hmem => Number.printsInScripts_iff (hv number hmem), ?_,
    fun n hn => Script.isSpelled_of_le hn, fun m n x hmem hmem' hm hn => ?_⟩
  · rw [(compare_value v hv).2]
    constructor
    · intro h n hmem
      exact (Number.printed_eq_iff (hv _ hmem)).mp (h _ hmem) n rfl
    · intro h number hmem
      exact (Number.printed_eq_iff (hv _ hmem)).mpr fun n heq => h n (heq ▸ hmem)
  · exact Script.eq_of_isSpelled hm hn (hv _ hmem).natAbs_le (hv _ hmem').natAbs_le

/-- A list prints as in scripts whose first number has more than 53 bits and is spelled. -/
theorem integers_print_alike_of_list :
    (Value.arr [.num (.int 9007199254740994), .arr [.num (.int (-1)), .null]]).printed
        = "9007199254740994,-1,"
      ∧ (Value.arr [.num (.int 9007199254740994), .arr [.num (.int (-1)), .null]]).scriptText
        = "9007199254740994,-1," := by
  -- The value is named, so that no step below computes with it by itself.
  obtain ⟨v, hvalue⟩ : ∃ v : Value,
      v = .arr [.num (.int 9007199254740994), .arr [.num (.int (-1)), .null]] := ⟨_, rfl⟩
  have hnumbers : v.printedNumbers = [.int 9007199254740994, .int (-1)] := by rw [hvalue]; rfl
  have hprinted : v.printed = "9007199254740994,-1," := by
    rw [hvalue]
    decide +kernel
  have hintegers : ∀ number ∈ v.printedNumbers, number.IsInteger := by
    simp [hnumbers, Number.IsInteger]
  obtain ⟨-, hsame, hsmall, -⟩ := integers_print_alike hintegers
  have hspelled : ∀ n, Number.int n ∈ v.printedNumbers → Script.IsSpelled n := by
    intro n hmem
    rw [hnumbers, List.mem_cons, List.mem_singleton] at hmem
    rcases hmem with heq | heq
    · obtain rfl := Number.int.inj heq
      exact (Script.integerText_eq_iff (by decide)).mp (by decide +kernel)
    · obtain rfl := Number.int.inj heq
      exact hsmall (-1) (by decide)
  rw [← hvalue]
  exact ⟨hprinted, (hsame.mpr hspelled).symm.trans hprinted⟩

/-- The integer behind 2 ^ 53 denotes the same number as 2 ^ 53, which is what scripts print for
both; the renderer prints the integer itself. -/
theorem integers_print_otherwise :
    (Value.num (.int 9007199254740993)).printed = "9007199254740993"
      ∧ (Value.num (.int 9007199254740992)).printed = "9007199254740992"
      ∧ (Number.int 9007199254740993).PrintsInScripts "9007199254740992"
      ∧ (Number.int 9007199254740992).PrintsInScripts "9007199254740992"
      ∧ ∃ x : Binary64, x.Denotes 9007199254740993 ∧ x.Denotes 9007199254740992 := by
  have hprints (n : Int) (hn : n.natAbs ≤ 2 ^ 64)
      (htext : "9007199254740992".toList = Script.roundedText n) :
      (Number.int n).PrintsInScripts "9007199254740992" := (Script.prints_iff hn _).mpr htext
  -- The number next to both is found by rounding.
  have hdenotes (n : Int) (hn : n.natAbs ≤ 2 ^ 64)
      (hround : Binary64.ofInt? n = some ⟨false, Binary64.topBit, 1⟩) :
      (Binary64.mk false Binary64.topBit 1).Denotes n := by
    obtain ⟨x, hx, hspec⟩ := Binary64.exists_ofInt? hn
    rw [hround] at hx
    rwa [Option.some.inj hx]
  refine ⟨by decide +kernel, by decide +kernel, hprints _ (by decide) (by decide +kernel),
    hprints _ (by decide) (by decide +kernel), ⟨false, Binary64.topBit, 1⟩, ?_, ?_⟩
  · exact hdenotes _ (by decide) (by decide +kernel)
  · exact hdenotes _ (by decide) (by decide +kernel)

end Mustache
