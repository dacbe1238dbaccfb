import Mustache.Proofs.Numeral.Shortest

/-!
The texts of integers.

A script takes an integer for the nearest number, and prints the shortest decimal of that
(`Script.Prints`). For integers of at most 64 bits this is one text, which rounding and the search
compute (`prints_iff`). It is the integer's own numeral exactly if the shortest decimal is the
integer again (`integerText_eq_iff`), as it is for all of at most 53 bits (`isSpelled_of_le`); it
is never shorter than that (`length_integerText_le`).
-/
set_option autoImplicit false

namespace Mustache

open Text

namespace Decimal

/-- The text of a decimal: with an exponent if it is very great or very small. -/
def laidOut (d : Decimal) : List Char :=
  if -6 < d.pointAt ∧ d.pointAt ≤ 21 then d.positional else d.scientific

/-- The whole number that a decimal on a grid of whole numbers is. -/
def whole (d : Decimal) : ℕ :=
  d.digits * 10 ^ d.scale.toNat

theorem value_eq_whole {d : Decimal} (hscale : 0 ≤ d.scale) : d.value = d.whole := by
  obtain ⟨j, hj⟩ := Int.eq_ofNat_of_zero_le hscale
  rw [value, whole, hj, Int.toNat_natCast, zpow_natCast]
  push_cast
  rfl

/-- A whole number that is not too great is printed as its numeral. -/
theorem laidOut_eq_decimal {d : Decimal} (hscale : 0 ≤ d.scale) (hdigits : 0 < d.digits)
    (hless : d.value < 10 ^ (21 : ℤ)) : d.laidOut = decimal d.whole := by
  have hpoint : d.pointAt = (d.length : ℤ) + d.scale := rfl
  have hlength := d.length_pos
  have hexponent := lt_of_ten_zpow_lt ((value_bounds hdigits).1.trans_lt hless)
  rw [laidOut, if_pos ⟨by omega, by omega⟩, whole, decimal_mul_pow hdigits]
  simp only [positional, if_pos hscale]
  rfl

end Decimal

/-- A text with the sign of a number in front. -/
def signed (negative : Bool) (s : List Char) : List Char :=
  if negative then '-' :: s else s

theorem integerText_eq_signed (n : Int) :
    integerText n = signed (decide (n < 0)) (decimal n.natAbs) := by
  rw [integerText, signed]
  by_cases hn : n < 0
  · rw [if_pos hn, if_pos (decide_eq_true hn)]
  · rw [if_neg hn, if_neg fun h => hn (of_decide_eq_true h)]

theorem signed_injective {negative : Bool} {s t : List Char}
    (h : signed negative s = signed negative t) : s = t := by
  cases negative with
  | false => exact h
  | true => exact (List.cons.inj h).2

theorem length_signed_le {negative : Bool} {s t : List Char} (h : s.length ≤ t.length) :
    (signed negative s).length ≤ (signed negative t).length := by
  cases negative with
  | false => exact h
  | true => exact Nat.succ_le_succ h

namespace Binary64

theorem text_eq (x : Binary64) :
    x.text = if x.mantissa = 0 then ['0'] else signed x.negative x.shortest.laidOut := by
  rw [text, isZero]
  by_cases hzero : x.mantissa = 0
  · rw [if_pos hzero, if_pos (beq_iff_eq.mpr hzero)]
  · rw [if_neg hzero, if_neg fun h => hzero (beq_iff_eq.mp h)]
    rfl

/-! ## The number of an integer -/

/-- The nearest number to an integer of at most 64 bits that is not zero is a whole number. -/
theorem Denotes.exists_whole {x : Binary64} {n : Int} (h : x.Denotes n) (hzero : n ≠ 0)
    (hn : n.natAbs ≤ 2 ^ 64) : ∃ k, x.Whole k := by
  have hunit := two_zpow_pos x.exponent
  have hpos : 0 < n.natAbs := Int.natAbs_pos.mpr hzero
  by_cases hexponent : 0 ≤ x.exponent
  · obtain ⟨e, he⟩ := Int.eq_ofNat_of_zero_le hexponent
    have hvalue : x.magnitude = ((x.mantissa * 2 ^ e : ℕ) : ℚ) := by
      rw [magnitude, he, zpow_natCast]
      push_cast
      rfl
    -- One and 2 ^ 64 are numbers, so rounding does not leave the range between them.
    have hone : Stored ((1 : ℕ) : ℚ) := stored_nat (by decide)
    have htop : Stored (((1 : ℕ) : ℚ) * 2 ^ (64 : ℤ)) :=
      stored_mul (by decide) (by decide) (by decide)
    have hlow := h.2.le_magnitude hone (by exact_mod_cast hpos)
    have hhigh := h.2.magnitude_le htop (by rw [Nat.cast_one, one_mul]; exact_mod_cast hn)
    rw [hvalue] at hlow hhigh
    refine ⟨x.mantissa * 2 ^ e, h.2.wellFormed, hvalue, by exact_mod_cast hlow, ?_⟩
    rw [Nat.cast_one, one_mul] at hhigh
    exact_mod_cast hhigh
  · -- The number has less than 53 bits, so that it is the integer.
    have hless : x.magnitude < ((2 * topBit : ℕ) : ℚ) := by
      have hpower : (2 : ℚ) ^ x.exponent ≤ 1 := zpow_le_one_of_nonpos₀ one_le_two (by omega)
      have hmantissa : (x.mantissa : ℚ) < ((2 * topBit : ℕ) : ℚ) :=
        Nat.cast_lt.mpr h.2.wellFormed.mantissa_lt
      calc x.magnitude ≤ x.mantissa * 1 := mul_le_mul_of_nonneg_left hpower (Nat.cast_nonneg _)
        _ < ((2 * topBit : ℕ) : ℚ) := by rwa [mul_one]
    have hsmall : n.natAbs ≤ 2 * topBit := by
      by_contra hgreat
      push Not at hgreat
      have hle := h.2.le_magnitude (stored_nat le_rfl) (Nat.cast_le.mpr hgreat.le)
      exact absurd hle (not_le.mpr hless)
    exact ⟨n.natAbs, h.2.wellFormed, h.2.eq_of_stored (stored_nat hsmall), hpos, hn⟩

theorem Denotes.mantissa_eq_zero {x : Binary64} (h : x.Denotes 0) : x.mantissa = 0 := by
  have hstored : Stored (((0 : Int).natAbs : ℕ) : ℚ) := stored_nat (Nat.zero_le _)
  have hvalue := h.2.eq_of_stored hstored
  rw [Int.natAbs_zero, Nat.cast_zero, magnitude] at hvalue
  exact Nat.cast_eq_zero.mp ((mul_eq_zero.mp hvalue).resolve_right (two_zpow_pos _).ne')

/-- An integer of at most 64 bits denotes one number. -/
theorem Denotes.eq {x y : Binary64} {n : Int} (hx : x.Denotes n) (hy : y.Denotes n)
    (hn : n.natAbs ≤ 2 ^ 64) : x = y := by
  have hmagnitude : x.magnitude = y.magnitude := by
    by_cases hzero : n = 0
    · subst hzero
      rw [magnitude, magnitude, hx.mantissa_eq_zero, hy.mantissa_eq_zero, Nat.cast_zero, zero_mul,
        zero_mul]
    · obtain ⟨k, hk⟩ := hx.exists_whole hzero hn
      obtain ⟨l, hl⟩ := hy.exists_whole hzero hn
      exact hx.2.magnitude_eq hy.2 hk.exponent_lt hl.exponent_lt
  obtain ⟨hmantissa, hexponent⟩ := hx.2.wellFormed.eq_of_magnitude_eq hy.2.wellFormed hmagnitude
  have hnegative := hx.1.trans hy.1.symm
  cases x
  cases y
  congr

end Binary64

/-! ## Texts in scripts -/

namespace Script

open Binary64

/-- Whether a script prints a number so: zero of either sign as `0`, any other number as its
shortest decimal. -/
def PrintsNumber (x : Binary64) (s : List Char) : Prop :=
  if x.mantissa = 0 then s = ['0'] else ∃ d, x.IsShortest d ∧ s = signed x.negative d.laidOut

/-- Whether a script prints an integer so. -/
def Prints (n : Int) (s : List Char) : Prop :=
  ∃ x : Binary64, x.Denotes n ∧ PrintsNumber x s

/-- The text of an integer in scripts. -/
def roundedText (n : Int) : List Char :=
  ((ofInt? n).map Binary64.text).getD []

/-- The text of a whole number is that of its shortest decimal. -/
theorem printsNumber_iff {x : Binary64} {k : ℕ} (h : x.Whole k) (s : List Char) :
    PrintsNumber x s ↔ s = x.text := by
  rw [PrintsNumber, text_eq, if_neg h.mantissa_ne_zero, if_neg h.mantissa_ne_zero]
  constructor
  · rintro ⟨d, hd, rfl⟩
    rw [h.eq_shortest hd]
  · intro heq
    exact ⟨x.shortest, h.isShortest, heq⟩

/-- An integer of at most 64 bits has one text in scripts, which can be computed. -/
theorem prints_iff {n : Int} (hn : n.natAbs ≤ 2 ^ 64) (s : List Char) :
    Prints n s ↔ s = roundedText n := by
  obtain ⟨x, hround, hx⟩ := exists_ofInt? hn
  have htext : roundedText n = x.text := by
    rw [roundedText, hround, Option.map_some, Option.getD_some]
  have hnumber : PrintsNumber x s ↔ s = x.text := by
    by_cases hzero : n = 0
    · subst hzero
      rw [PrintsNumber, text_eq, if_pos hx.mantissa_eq_zero, if_pos hx.mantissa_eq_zero]
    · obtain ⟨k, hk⟩ := hx.exists_whole hzero hn
      exact printsNumber_iff hk s
  rw [htext, ← hnumber]
  constructor
  · rintro ⟨y, hy, hs⟩
    rwa [hy.eq hx hn] at hs
  · exact fun hs => ⟨x, hx, hs⟩

/-- Whether the shortest decimal of the nearest number to an integer is the integer again. -/
def IsSpelled (n : Int) : Prop :=
  ∃ (x : Binary64) (d : Decimal), x.Denotes n ∧ x.IsShortest d ∧ d.value = n.natAbs

theorem isSpelled_zero : IsSpelled 0 := by
  have hvalue : (Decimal.mk 0 0).value = 0 := by rw [Decimal.value, Nat.cast_zero, zero_mul]
  have hlength : (Decimal.mk 0 0).length = 1 := Decimal.length_of_lt_ten (by decide)
  refine ⟨zero false, ⟨0, 0⟩, denotes_zero, ⟨?_, ?_, ?_, ?_⟩, ?_⟩
  · have hself := (wellFormed_zero false).isNearest
    rwa [magnitude_zero, ← hvalue] at hself
  · intro d' _
    rw [hlength]
    exact d'.length_pos
  · intro d' _ _
    rw [hvalue, magnitude_zero, sub_zero, abs_zero]
    exact abs_nonneg _
  · exact fun _ _ _ _ => .inr rfl
  · rw [hvalue, Int.natAbs_zero, Nat.cast_zero]

/-- The text of an integer that is not zero is the numeral of the shortest decimal. -/
theorem exists_roundedText {n : Int} (hzero : n ≠ 0) (hn : n.natAbs ≤ 2 ^ 64) :
    ∃ (x : Binary64) (k : ℕ), x.Denotes n ∧ x.Whole k ∧ 0 ≤ x.shortest.scale
      ∧ roundedText n = signed (decide (n < 0)) (decimal x.shortest.whole) := by
  obtain ⟨x, hround, hx⟩ := exists_ofInt? hn
  obtain ⟨k, hk⟩ := hx.exists_whole hzero hn
  have hhit := hk.firstHit_shortest
  refine ⟨x, k, hx, hk, hhit.scale_nonneg, ?_⟩
  rw [roundedText, hround, Option.map_some, Option.getD_some, text_eq, if_neg hk.mantissa_ne_zero,
    hx.1, Decimal.laidOut_eq_decimal hhit.scale_nonneg (hk.digits_pos hhit.reads)
      (hk.reads_lt hhit.reads)]

/-- Scripts print an integer as its own numeral exactly if it is spelled. -/
theorem integerText_eq_iff {n : Int} (hn : n.natAbs ≤ 2 ^ 64) :
    integerText n = roundedText n ↔ IsSpelled n := by
  by_cases hzero : n = 0
  · subst hzero
    have htext : integerText 0 = ['0'] := by
      rw [integerText_eq_signed, Int.natAbs_zero, decimal, if_pos (by decide)]
      rfl
    have hmantissa : (zero false).mantissa = 0 := rfl
    refine iff_of_true ((prints_iff hn _).mp ⟨zero false, denotes_zero, ?_⟩) isSpelled_zero
    rw [PrintsNumber, if_pos hmantissa, htext]
  · obtain ⟨x, k, hx, hk, hscale, htext⟩ := exists_roundedText hzero hn
    have hvalue : x.shortest.value = x.shortest.whole := Decimal.value_eq_whole hscale
    rw [htext, integerText_eq_signed]
    constructor
    · intro h
      have hwhole := decimal_injective (signed_injective h)
      exact ⟨x, x.shortest, hx, hk.isShortest, by rw [hvalue, hwhole]⟩
    · rintro ⟨y, d, hy, hd, hspelled⟩
      obtain rfl := hy.eq hx hn
      rw [hk.eq_shortest hd, hvalue] at hspelled
      rw [Nat.cast_inj.mp hspelled]

/-- The shortest decimal has no fewer digits before the point than the integer: the power of ten
of the first digit is stored, so that neither rounding nor the search leads below it. -/
theorem length_decimal_le {x : Binary64} {n : Int} {k : ℕ} (hx : x.Denotes n) (hk : x.Whole k)
    (hn : n.natAbs ≤ 2 ^ 64) (hscale : 0 ≤ x.shortest.scale) :
    (decimal n.natAbs).length ≤ (decimal x.shortest.whole).length := by
  by_contra hlt
  push Not at hlt
  have hshort := List.length_pos_iff.mpr (decimal_ne_nil x.shortest.whole)
  obtain ⟨j, hj⟩ : ∃ j, (decimal n.natAbs).length = j + 1 :=
    ⟨_, (Nat.succ_pred_eq_of_pos (by omega)).symm⟩
  have hwhole : x.shortest.whole < 10 ^ j :=
    (length_decimal_le_iff _ (by omega)).mp (by omega)
  have hpower : 10 ^ j ≤ n.natAbs := by
    have hpos : 0 < n.natAbs := by
      by_contra hzero
      have hone : (decimal n.natAbs).length = 1 := by
        rw [Nat.eq_zero_of_not_pos hzero, decimal, if_pos (by decide), List.length_singleton]
      omega
    have hle := pow_length_decimal_le hpos
    rwa [hj, Nat.add_sub_cancel] at hle
  have hsmall : j ≤ 22 := by
    have hless : 10 ^ j < 10 ^ 22 := (hpower.trans hn).trans_lt (by decide)
    exact ((Nat.pow_lt_pow_iff_right (by decide)).mp hless).le
  have hstored : Stored (10 ^ (j : ℤ)) := stored_ten_zpow (by omega) (by omega)
  have hle : (10 : ℚ) ^ (j : ℤ) ≤ x.magnitude :=
    hx.2.le_magnitude hstored (by rw [zpow_natCast]; exact_mod_cast hpower)
  have hvalue : x.shortest.value < 10 ^ (j : ℤ) := by
    rw [Decimal.value_eq_whole hscale, zpow_natCast]
    exact_mod_cast hwhole
  -- Between the shortest decimal and the number, the power of ten is the number.
  have hhit := hk.firstHit_shortest
  have hreads := hk.between hhit.reads hk.wellFormed.isNearest hvalue.le (hk.magnitude_eq ▸ hle)
  have hnumber := hreads.eq_of_stored hstored
  -- One digit spells it, so that the search would have found it.
  have hone : (Decimal.mk 1 j).value = x.magnitude := by
    rw [hnumber, Decimal.value, Nat.cast_one, one_mul]
  have hlength : (Decimal.mk 1 j).length = 1 :=
    Decimal.length_of_lt_ten Nat.one_lt_ofNat
  have hself : x.IsNearest (Decimal.mk 1 j).value := hone ▸ hk.wellFormed.isNearest
  obtain ⟨hfewest, hsame⟩ := hhit.length_le hk hself
  rw [hlength] at hfewest hsame
  rcases hsame (le_antisymm x.shortest.length_pos hfewest) with heq | hless
  · rw [hone, hnumber] at heq
    exact hvalue.ne heq.symm
  · rw [hone, sub_self, abs_zero] at hless
    exact absurd hless (not_lt.mpr (abs_nonneg _))

/-- The text of an integer in scripts is not shorter than its numeral. -/
theorem length_integerText_le {n : Int} (hn : n.natAbs ≤ 2 ^ 64) :
    (integerText n).length ≤ (roundedText n).length := by
  by_cases hzero : n = 0
  · subst hzero
    exact (congrArg List.length ((integerText_eq_iff hn).mpr isSpelled_zero)).le
  · obtain ⟨x, k, hx, hk, hscale, htext⟩ := exists_roundedText hzero hn
    rw [htext, integerText_eq_signed]
    exact length_signed_le (length_decimal_le hx hk hn hscale)

/-- A first hit that is odd is the number: it is a point of the grid of ones alone, as the number
is. -/
theorem eq_of_odd {x : Binary64} {k : ℕ} {d : Decimal} (hd : x.FirstHit d) (hk : x.Whole k)
    (hodd : d.whole % 2 = 1) : d.whole = k := by
  have hones : d.scale.toNat = 0 := by
    by_contra hten
    obtain ⟨j, hj⟩ := Nat.exists_eq_succ_of_ne_zero hten
    rw [Decimal.whole, hj, pow_succ, ← mul_assoc] at hodd
    omega
  have hzero : d.scale = 0 := by
    have hscale := hd.scale_nonneg
    omega
  have hpoint : (k : ℚ) * 10 ^ d.scale = k := by rw [hzero, zpow_zero, mul_one]
  have hnearest := hd.nearest k (by rw [hpoint]; exact hk.isNearest)
  rw [hpoint, hk.magnitude_eq, sub_self, abs_zero, Decimal.value_eq_whole hd.scale_nonneg]
    at hnearest
  have hsame := sub_eq_zero.mp (abs_nonpos_iff.mp hnearest)
  exact_mod_cast hsame.symm

/-- The first hit for a number of at most 53 bits, or for the next one, has at most its value: of
the two that follow the first is odd and the second is stored. -/
theorem whole_le {x : Binary64} {k : ℕ} {d : Decimal} (hd : x.FirstHit d) (hk : x.Whole k)
    (hle : k ≤ 2 * topBit) : d.whole ≤ 2 * topBit := by
  by_contra hgreat
  push Not at hgreat
  have hreads := hd.reads
  rw [Decimal.value_eq_whole hd.scale_nonneg] at hreads
  -- The next number is two further, so only the odd integer between them is to be excluded.
  have hstored : Stored ((2 * topBit + 2 : ℕ) : ℚ) := by
    have hnext : Stored (((topBit + 1 : ℕ) : ℚ) * 2 ^ (1 : ℤ)) :=
      stored_mul (by decide) (by decide) (by decide)
    have hvalue : ((topBit + 1 : ℕ) : ℚ) * 2 ^ (1 : ℤ) = ((2 * topBit + 2 : ℕ) : ℚ) := by
      rw [zpow_one]
      push_cast
      ring
    rwa [hvalue] at hnext
  have hless : d.whole < 2 * topBit + 2 := by
    by_contra hmore
    push Not at hmore
    have hbetween := hk.between hk.isNearest hreads (Nat.cast_le.mpr (by omega))
      (Nat.cast_le.mpr hmore)
    have hnumber := hbetween.eq_of_stored hstored
    rw [hk.magnitude_eq] at hnumber
    have : k = 2 * topBit + 2 := by exact_mod_cast hnumber
    omega
  have heq := eq_of_odd hd hk (by omega)
  omega

theorem eq_of_isSpelled {x : Binary64} {m n : Int} (hm : x.Denotes m) (hn : x.Denotes n)
    (hmSize : m.natAbs ≤ 2 ^ 64) (hnSize : n.natAbs ≤ 2 ^ 64) (hmSpelled : IsSpelled m)
    (hnSpelled : IsSpelled n) : m = n := by
  have hsign : m < 0 ↔ n < 0 := by
    rw [← decide_eq_decide, ← hm.1, ← hn.1]
  have hnatAbs : m.natAbs = n.natAbs := by
    by_cases hzero : m = 0
    · by_cases hzero' : n = 0
      · rw [hzero, hzero']
      · obtain ⟨k, hk⟩ := hn.exists_whole hzero' hnSize
        rw [hzero] at hm
        exact absurd hm.mantissa_eq_zero hk.mantissa_ne_zero
    · obtain ⟨k, hk⟩ := hm.exists_whole hzero hmSize
      obtain ⟨y, d, hy, hd, hvalue⟩ := hmSpelled
      obtain ⟨z, d', hz, hd', hvalue'⟩ := hnSpelled
      obtain rfl := hy.eq hm hmSize
      obtain rfl := hz.eq hn hnSize
      rw [hk.eq_shortest hd] at hvalue
      rw [hk.eq_shortest hd', hvalue] at hvalue'
      exact_mod_cast hvalue'
  omega

/-- Integers of at most 53 bits are spelled, and the next one. -/
theorem isSpelled_of_le {n : Int} (hn : n.natAbs ≤ 2 ^ 53) : IsSpelled n := by
  by_cases hzero : n = 0
  · rw [hzero]
    exact isSpelled_zero
  · obtain ⟨x, k, hx, hk, hscale, -⟩ := exists_roundedText hzero (hn.trans (by decide))
    have hhit := hk.firstHit_shortest
    have htop : 2 ^ 53 = 2 * topBit := by decide
    have hnumber := hx.2.eq_of_stored (stored_nat (hn.trans_eq htop))
    have hsmall : k ≤ 2 * topBit := by
      rw [hk.magnitude_eq] at hnumber
      have heq : k = n.natAbs := by exact_mod_cast hnumber
      rw [heq]
      exact hn.trans_eq htop
    have hreads := hhit.reads
    refine ⟨x, x.shortest, hx, hk.isShortest, ?_⟩
    rw [Decimal.value_eq_whole hscale] at hreads ⊢
    rw [← hnumber]
    exact (hreads.eq_of_stored (stored_nat (whole_le hhit hk hsmall))).symm

end Script

end Mustache
