import Mathlib.Algebra.Group.Nat.Defs
import Mathlib.Tactic.SplitIfs
import Mustache.Text.Digits

/-!
Numerals that are written and read back.

A numeral is a row of ASCII digits and not empty, so a character that is no digit ends
it, and what is read of it is the number that was written.
-/
set_option autoImplicit false

namespace Mustache

open Text

/-- A numeral consists of ASCII digits. -/
theorem exists_digit_of_mem_decimal (n : Nat) : ∀ c ∈ decimal n, ∃ d < 10, c = digitChar d := by
  induction n using Nat.strongRecOn with
  | ind n ih =>
      intro c hc
      rw [decimal] at hc
      split_ifs at hc with hn
      · exact ⟨n, hn, List.mem_singleton.mp hc⟩
      · rcases List.mem_append.mp hc with hc | hc
        · exact ih (n / 10) (by omega) c hc
        · exact ⟨n % 10, by omega, List.mem_singleton.mp hc⟩

theorem isDigit_of_mem_decimal (n : Nat) : ∀ c ∈ decimal n, c.isDigit = true := by
  have hdigit : ∀ d < 10, (digitChar d).isDigit = true := by decide
  intro c hc
  obtain ⟨d, hd, rfl⟩ := exists_digit_of_mem_decimal n c hc
  exact hdigit d hd

/-- A numeral is the same in lower case. -/
theorem map_toLower_decimal (n : Nat) : (decimal n).map Char.toLower = decimal n := by
  have hdigit : ∀ d < 10, (digitChar d).toLower = digitChar d := by decide
  refine (List.map_congr_left fun c hc => ?_).trans (List.map_id _)
  obtain ⟨d, hd, rfl⟩ := exists_digit_of_mem_decimal n c hc
  exact hdigit d hd

/-- A numeral has a digit. -/
theorem decimal_ne_nil (n : Nat) : decimal n ≠ [] := by
  rw [decimal]
  split_ifs <;> simp

/-- A numeral spells its number. -/
theorem digitsValue_decimal (n : Nat) : digitsValue (decimal n) = n := by
  have hdigit : ∀ d < 10, digitValue (digitChar d) = d := by decide
  induction n using Nat.strongRecOn with
  | ind n ih =>
      rw [decimal]
      split_ifs with hn
      · simp [digitsValue, hdigit n hn]
      · have hrest := ih (n / 10) (by omega)
        rw [digitsValue] at hrest ⊢
        rw [List.foldl_append, hrest, List.foldl_cons, List.foldl_nil,
          hdigit (n % 10) (Nat.mod_lt n (by decide))]
        omega

/-- A numeral has at most so many digits as its number is below that power of ten. -/
theorem length_decimal_le_iff (n : Nat) {k : Nat} (hk : 0 < k) :
    (decimal n).length ≤ k ↔ n < 10 ^ k := by
  induction n using Nat.strongRecOn generalizing k with
  | ind n ih =>
      rw [decimal]
      split_ifs with hn
      · have hle : 10 ^ 1 ≤ 10 ^ k := Nat.pow_le_pow_right (by decide) hk
        exact ⟨fun _ => by omega, fun _ => hk⟩
      · rw [List.length_append, List.length_singleton]
        match k with
        | 1 =>
            have hlength := List.length_pos_iff.mpr (decimal_ne_nil (n / 10))
            exact ⟨fun h => by omega, fun h => absurd h hn⟩
        | k + 2 =>
            rw [Nat.add_le_add_iff_right, ih (n / 10) (by omega) (Nat.succ_pos k),
              Nat.div_lt_iff_lt_mul (by decide), ← Nat.pow_succ]

/-- A numeral of a number that is not zero has no leading zero. -/
theorem pow_length_decimal_le {n : Nat} (hn : 0 < n) : 10 ^ ((decimal n).length - 1) ≤ n := by
  rcases Nat.eq_zero_or_pos ((decimal n).length - 1) with hone | hmore
  · rw [hone]
    exact hn
  · refine Nat.le_of_not_lt fun hlt => ?_
    have hshort := (length_decimal_le_iff n hmore).mpr hlt
    omega

/-- Zeros behind a numeral multiply by ten. -/
theorem decimal_mul_pow {n : Nat} (hn : 0 < n) (k : Nat) :
    decimal (n * 10 ^ k) = decimal n ++ List.replicate k '0' := by
  induction k with
  | zero => rw [Nat.pow_zero, Nat.mul_one, List.replicate_zero, List.append_nil]
  | succ k ih =>
      have hpos : 0 < n * 10 ^ k := Nat.mul_pos hn (Nat.pow_pos (by decide))
      have hlast : digitChar 0 = '0' := rfl
      rw [Nat.pow_succ, ← Nat.mul_assoc, decimal, if_neg (by omega),
        Nat.mul_div_cancel _ (by decide), Nat.mul_mod_left, hlast, ih, List.append_assoc,
        List.replicate_succ']

/-- Different numbers have different numerals. -/
theorem decimal_injective {m n : Nat} (h : decimal m = decimal n) : m = n := by
  rw [← digitsValue_decimal m, h, digitsValue_decimal]

/-- So have their texts. -/
theorem ofList_decimal_injective {m n : Nat}
    (h : String.ofList (decimal m) = String.ofList (decimal n)) : m = n :=
  decimal_injective (String.ofList_injective h)

/-- A row of digits without a sign that fits 64 bits is read as the number it spells. -/
theorem readIndex?_of_digits {s : List Char} (hne : s ≠ []) (hdigits : ∀ c ∈ s, c.isDigit = true)
    (hsize : digitsValue s < UInt64.size) : readIndex? s = some (digitsValue s) := by
  have hall : s.all Char.isDigit = true := List.all_eq_true.mpr hdigits
  unfold readIndex?
  split
  · exact absurd (hdigits '+' List.mem_cons_self) (by decide)
  · simp only [List.isEmpty_eq_false_iff.mpr hne, hall, Bool.not_true, Bool.or_self,
      Bool.false_eq_true, if_false]
    exact if_pos hsize

/-- A numeral that fits 64 bits is read as its number. -/
theorem readIndex?_decimal {n : Nat} (h : n < UInt64.size) : readIndex? (decimal n) = some n := by
  have hread := readIndex?_of_digits (decimal_ne_nil n) (isDigit_of_mem_decimal n)
    (by rwa [digitsValue_decimal])
  rwa [digitsValue_decimal] at hread

end Mustache
