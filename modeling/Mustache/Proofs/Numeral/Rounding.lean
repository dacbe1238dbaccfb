import Mathlib.Tactic.FieldSimp
import Mustache.Proofs.Numeral.Binary64

/-!
Rounding to binary64.

A fraction is brought to the exponent at which it has as many bits before the point as a
mantissa has (`unitExponent_spec`), and is rounded to a whole number there
(`abs_sub_roundQuotient_le`). Numbers of a lesser exponent lie below all points of that grid
that matter, so that the nearest point of the grid is the nearest number (`isNearest_nearest`).
-/
set_option autoImplicit false

namespace Mustache

namespace Binary64

/-! ## The nearest whole number -/

/-- The rounded quotient, against the remainder. -/
theorem roundQuotient_cases (num den : ℕ) (hden : 0 < den) :
    (roundQuotient num den = num / den ∧ 2 * (num % den) ≤ den
      ∧ (2 * (num % den) = den → num / den % 2 = 0))
    ∨ (roundQuotient num den = num / den + 1 ∧ den ≤ 2 * (num % den)
      ∧ (2 * (num % den) = den → (num / den + 1) % 2 = 0)) := by
  have hless := Nat.mod_lt num hden
  rw [roundQuotient]
  rcases lt_trichotomy (2 * (num % den)) den with hlt | heq | hlt
  · rw [if_pos hlt]
    exact .inl ⟨rfl, hlt.le, fun heq => absurd heq hlt.ne⟩
  · rw [if_neg heq.not_lt, if_neg heq.not_gt]
    by_cases heven : num / den % 2 = 0
    · rw [if_pos heven]
      exact .inl ⟨rfl, heq.le, fun _ => heven⟩
    · rw [if_neg heven]
      exact .inr ⟨rfl, heq.ge, fun _ => by omega⟩
  · rw [if_neg hlt.not_gt, if_pos hlt]
    exact .inr ⟨rfl, hlt.le, fun heq => absurd heq hlt.ne'⟩

/-- The rounded quotient is at most half away, and is even if it is half away. -/
theorem abs_sub_roundQuotient_le {num den : ℕ} (hden : 0 < den) :
    |(num : ℚ) / den - roundQuotient num den| ≤ 1 / 2
      ∧ (|(num : ℚ) / den - roundQuotient num den| = 1 / 2 → roundQuotient num den % 2 = 0) := by
  have hpos : (0 : ℚ) < den := Nat.cast_pos.mpr hden
  obtain ⟨rest, hrest⟩ : ∃ rest : ℚ, rest = ((num % den : ℕ) : ℚ) / den := ⟨_, rfl⟩
  have hcast : ((num % den : ℕ) : ℚ) = rest * den := by rw [hrest, div_mul_cancel₀ _ hpos.ne']
  have hquotient : (num : ℚ) / den = (num / den : ℕ) + rest := by
    rw [div_eq_iff hpos.ne', add_mul, ← hcast]
    exact_mod_cast (Nat.div_add_mod' num den).symm
  have hnonneg : 0 ≤ rest := by rw [hrest]; positivity
  have hless : rest < 1 := by
    rw [hrest, div_lt_one hpos]
    exact_mod_cast Nat.mod_lt num hden
  have hle : 2 * (num % den) ≤ den ↔ rest ≤ 1 / 2 := by
    rw [← @Nat.cast_le ℚ, Nat.cast_mul, hcast]
    constructor <;> intro h <;> push_cast at * <;> nlinarith
  have hge : den ≤ 2 * (num % den) ↔ 1 / 2 ≤ rest := by
    rw [← @Nat.cast_le ℚ, Nat.cast_mul, hcast]
    constructor <;> intro h <;> push_cast at * <;> nlinarith
  -- With the remainder as a fraction of `den`, rounding down is off by it, and rounding up by what
  -- it lacks to one.
  rw [hquotient]
  rcases roundQuotient_cases num den hden with ⟨hround, hhalf, heven⟩ | ⟨hround, hhalf, heven⟩
  · rw [hround, add_sub_cancel_left, abs_of_nonneg hnonneg]
    refine ⟨hle.mp hhalf, fun heq => heven (le_antisymm hhalf (hge.mpr heq.ge))⟩
  · have hfar : |(num / den : ℕ) + rest - ((num / den + 1 : ℕ) : ℚ)| = 1 - rest := by
      rw [Nat.cast_add, Nat.cast_one, add_sub_add_left_eq_sub, abs_sub_comm,
        abs_of_nonneg (by linarith)]
    rw [hround, hfar]
    have hmore := hge.mp hhalf
    refine ⟨by linarith, fun heq => heven (le_antisymm (hle.mpr (by linarith)) hhalf)⟩

/-- A whole number that is at most half away is a nearest one, and the only one unless it is
half away. -/
theorem abs_sub_le_of_le_half {q : ℚ} {n : ℕ} (h : |q - n| ≤ 1 / 2) (k : ℕ) :
    |q - n| ≤ |q - k| ∧ (|q - n| = |q - k| → k = n ∨ |q - n| = 1 / 2) := by
  by_cases heq : k = n
  · rw [heq]
    exact ⟨le_rfl, fun _ => .inl rfl⟩
  · have hstep : (1 : ℚ) ≤ |(n : ℚ) - k| := by
      have hint : 1 ≤ |(n : ℤ) - k| := Int.one_le_abs (by omega)
      exact_mod_cast hint
    have htriangle : |(n : ℚ) - k| ≤ |q - n| + |q - k| := by
      rw [abs_sub_comm q n]
      exact abs_sub_le _ _ _
    exact ⟨by linarith, fun htie => .inr (by linarith)⟩

/-! ## The exponent of the last bit -/

/-- A power as a fraction of powers with exponents that are not negative. -/
theorem zpow_eq_div (b : ℚ) (hb : b ≠ 0) (e : ℤ) : b ^ e = b ^ e.toNat / b ^ (-e).toNat := by
  rw [eq_div_iff (pow_ne_zero _ hb), ← zpow_natCast b (-e).toNat, ← zpow_natCast b e.toNat,
    ← zpow_add₀ hb]
  congr 1
  omega

/-- A fraction in units of a power of two. -/
theorem inUnits_spec (num : ℕ) {den : ℕ} (hden : 0 < den) (e : ℤ) :
    0 < (inUnits num den e).2
      ∧ (num : ℚ) / den = ((inUnits num den e).1 : ℚ) / (inUnits num den e).2 * 2 ^ e := by
  have hpos : (0 : ℚ) < den := Nat.cast_pos.mpr hden
  have hunits : inUnits num den e = (num * 2 ^ (-e).toNat, den * 2 ^ e.toNat) := rfl
  rw [hunits, zpow_eq_div 2 two_ne_zero e]
  refine ⟨Nat.mul_pos hden (Nat.two_pow_pos _), ?_⟩
  push_cast
  field_simp

/-- A natural number lies between two powers of two. -/
theorem two_zpow_log2_le {n : ℕ} (hn : 0 < n) :
    (2 : ℚ) ^ (n.log2 : ℤ) ≤ n ∧ (n : ℚ) < 2 ^ ((n.log2 : ℤ) + 1) := by
  have hle : 2 ^ n.log2 ≤ n := Nat.log2_self_le hn.ne'
  have hlt : n < 2 ^ (n.log2 + 1) := Nat.lt_log2_self
  exact ⟨by exact_mod_cast hle, by exact_mod_cast hlt⟩

theorem topBit_eq : (topBit : ℚ) = 2 ^ (52 : ℤ) := by
  have h : topBit = 2 ^ 52 := rfl
  rw [h]
  norm_num

/-- The estimate of the exponent is right or one too great. -/
theorem estimate_bounds {num den : ℕ} (hnum : 0 < num) (hden : 0 < den) {e : ℤ}
    (he : e = (num.log2 : ℤ) - (den.log2 : ℤ) - 52) :
    topBit * 2 ^ (e - 1) ≤ (num : ℚ) / den ∧ (num : ℚ) / den < 2 * topBit * 2 ^ e := by
  have hpos : (0 : ℚ) < den := Nat.cast_pos.mpr hden
  obtain ⟨hnumLow, hnumHigh⟩ := two_zpow_log2_le hnum
  obtain ⟨hdenLow, hdenHigh⟩ := two_zpow_log2_le hden
  -- The quotient of two numbers of known bit lengths is known up to a factor of two on each side.
  have hlow : (2 : ℚ) ^ (num.log2 : ℤ) = topBit * 2 ^ (e - 1) * 2 ^ ((den.log2 : ℤ) + 1) := by
    rw [topBit_eq, ← zpow_add₀ two_ne_zero, ← zpow_add₀ two_ne_zero, he]
    congr 1
    ring
  have hhigh : (2 : ℚ) ^ ((num.log2 : ℤ) + 1) = 2 * topBit * 2 ^ e * 2 ^ (den.log2 : ℤ) := by
    rw [topBit_eq, ← zpow_one_add₀ two_ne_zero, ← zpow_add₀ two_ne_zero, ← zpow_add₀ two_ne_zero,
      he]
    congr 1
    ring
  have hunit := two_zpow_pos e
  have hunit' := two_zpow_pos (e - 1)
  have htop : (0 : ℚ) ≤ topBit := Nat.cast_nonneg _
  constructor
  · rw [le_div_iff₀ hpos]
    calc (topBit : ℚ) * 2 ^ (e - 1) * den ≤ topBit * 2 ^ (e - 1) * 2 ^ ((den.log2 : ℤ) + 1) :=
          mul_le_mul_of_nonneg_left hdenHigh.le (by positivity)
      _ ≤ num := hlow ▸ hnumLow
  · rw [div_lt_iff₀ hpos]
    calc (num : ℚ) < 2 * topBit * 2 ^ e * 2 ^ (den.log2 : ℤ) := hhigh ▸ hnumHigh
      _ ≤ 2 * topBit * 2 ^ e * den := mul_le_mul_of_nonneg_left hdenLow (by positivity)

/-- At the exponent of its last bit a fraction is less than what exceeds a mantissa, and has the
top bit set unless the exponent is the least one. -/
theorem unitExponent_spec {num den : ℕ} (hnum : 0 < num) (hden : 0 < den) :
    minExponent ≤ unitExponent num den
      ∧ (num : ℚ) / den < 2 * topBit * 2 ^ unitExponent num den
      ∧ (unitExponent num den = minExponent
        ∨ topBit * 2 ^ unitExponent num den ≤ (num : ℚ) / den) := by
  obtain ⟨estimate, hestimate⟩ : ∃ estimate : ℤ,
    estimate = (num.log2 : ℤ) - (den.log2 : ℤ) - 52 := ⟨_, rfl⟩
  obtain ⟨e, he⟩ : ∃ e : ℤ, e = if (inUnits num den estimate).1
    < (inUnits num den estimate).2 * topBit then estimate - 1 else estimate := ⟨_, rfl⟩
  have hunit : unitExponent num den = if e < minExponent then minExponent else e := by
    rw [he, hestimate]
    rfl
  -- Before it is cut off at the least one, the exponent fits on both sides.
  have hbounds : topBit * 2 ^ e ≤ (num : ℚ) / den ∧ (num : ℚ) / den < 2 * topBit * 2 ^ e := by
    obtain ⟨hlow, hhigh⟩ := estimate_bounds hnum hden hestimate
    obtain ⟨hdenominator, hunits⟩ := inUnits_spec num hden estimate
    have hpos : (0 : ℚ) < (inUnits num den estimate).2 := Nat.cast_pos.mpr hdenominator
    have htest : (inUnits num den estimate).1 < (inUnits num den estimate).2 * topBit
        ↔ (num : ℚ) / den < topBit * 2 ^ estimate := by
      rw [hunits, mul_lt_mul_iff_left₀ (two_zpow_pos _), div_lt_iff₀ hpos, mul_comm (topBit : ℚ)]
      exact_mod_cast Iff.rfl
    by_cases hless : (inUnits num den estimate).1 < (inUnits num den estimate).2 * topBit
    · rw [if_pos hless] at he
      have hupper := htest.mp hless
      rw [two_zpow_eq estimate] at hupper
      rw [he]
      exact ⟨hlow, by linarith⟩
    · rw [if_neg hless] at he
      rw [he]
      exact ⟨not_lt.mp fun h => hless (htest.mpr h), hhigh⟩
  rw [hunit]
  split_ifs with hleast
  · refine ⟨le_rfl, hbounds.2.trans_le ?_, .inl rfl⟩
    exact mul_le_mul_of_nonneg_left (zpow_le_zpow_right₀ one_le_two hleast.le) (by positivity)
  · exact ⟨not_lt.mp hleast, hbounds.2, .inr hbounds.1⟩

/-! ## The nearest number -/

/-- A point of the grid that is nearest to a fraction at the exponent of its last bit is nearest
among all numbers. -/
theorem isNearest_of_grid {x : Binary64} {q : ℚ} {e : ℤ} {n : ℕ} (hx : x.WellFormed)
    (hvalue : x.magnitude = n * 2 ^ e) (heven : n % 2 = 0 → x.mantissa % 2 = 0)
    (hhalf : |q / 2 ^ e - n| ≤ 1 / 2) (htie : |q / 2 ^ e - n| = 1 / 2 → n % 2 = 0)
    (hlow : e = minExponent ∨ topBit * 2 ^ e ≤ q) : x.IsNearest q := by
  have hunit := two_zpow_pos e
  have hscale (k : ℕ) : |q - k * 2 ^ e| = |q / 2 ^ e - k| * 2 ^ e := by
    have hsplit : q - k * 2 ^ e = (q / 2 ^ e - k) * 2 ^ e := by
      rw [sub_mul, div_mul_cancel₀ _ hunit.ne']
    rw [hsplit, abs_mul, abs_of_pos hunit]
  have hgrid (k : ℕ) : |q - x.magnitude| ≤ |q - k * 2 ^ e| := by
    rw [hvalue, hscale, hscale]
    exact mul_le_mul_of_nonneg_right (abs_sub_le_of_le_half hhalf k).1 hunit.le
  -- What is not on the grid lies below a point of it that lies below the fraction.
  have hbelow {y : Binary64} (hy : y.WellFormed) (hless : y.exponent < e)
      (hle : y.magnitude ≤ topBit * 2 ^ e - 2 ^ (e - 1)) :
      |q - x.magnitude| < |q - y.magnitude| := by
    have htop : topBit * 2 ^ e ≤ q := hlow.resolve_left (by have := hy.le_exponent; omega)
    have hgap := two_zpow_pos (e - 1)
    refine (hgrid topBit).trans_lt ?_
    rw [abs_of_nonneg (by linarith), abs_of_nonneg (by linarith)]
    linarith
  refine ⟨hx, fun y hy => ?_, fun y hy heq => ?_⟩
  · rcases hy.grid e with ⟨k, hk⟩ | ⟨hless, hle⟩
    · rw [hk]
      exact hgrid k
    · exact (hbelow hy hless hle).le
  · rcases hy.grid e with ⟨k, hk⟩ | ⟨hless, hle⟩
    · rw [hvalue, hk, hscale, hscale] at heq
      rcases (abs_sub_le_of_le_half hhalf k).2 (mul_right_cancel₀ hunit.ne' heq) with hsame | heq
      · exact .inl (by rw [hk, hvalue, hsame])
      · exact .inr (heven (htie heq))
    · exact absurd heq (hbelow hy hless hle).ne

/-- A fraction at the exponent of its last bit, rounded to a whole number. -/
def roundedMantissa (num den : ℕ) : ℕ :=
  roundQuotient (inUnits num den (unitExponent num den)).1
    (inUnits num den (unitExponent num den)).2

/-- A mantissa that exceeds 53 bits is halved. -/
theorem nearest?_eq (num den : ℕ) :
    nearest? num den =
      if roundedMantissa num den = 2 * topBit then
        if maxExponent < unitExponent num den + 1 then none
        else some (topBit, unitExponent num den + 1)
      else
        if maxExponent < unitExponent num den then none
        else some (roundedMantissa num den, unitExponent num den) := by
  rw [nearest?, ← roundedMantissa, carry]
  by_cases hcarry : roundedMantissa num den = 2 * topBit
  · simp only [if_pos hcarry]
  · simp only [if_neg hcarry]

/-- The fraction and the rounded mantissa are at most half a unit apart. -/
theorem roundedMantissa_spec (num : ℕ) {den : ℕ} (hden : 0 < den) :
    |(num : ℚ) / den / 2 ^ unitExponent num den - roundedMantissa num den| ≤ 1 / 2
      ∧ (|(num : ℚ) / den / 2 ^ unitExponent num den - roundedMantissa num den| = 1 / 2 →
        roundedMantissa num den % 2 = 0) := by
  obtain ⟨hdenominator, hunits⟩ := inUnits_spec num hden (unitExponent num den)
  rw [hunits, mul_div_cancel_right₀ _ (two_zpow_pos _).ne']
  exact abs_sub_roundQuotient_le hdenominator

/-- The rounded mantissa has at most 53 bits or exceeds them by one, and has the top bit set
unless the exponent is the least one. -/
theorem roundedMantissa_bounds {num den : ℕ} (hnum : 0 < num) (hden : 0 < den) :
    roundedMantissa num den ≤ 2 * topBit
      ∧ (topBit ≤ roundedMantissa num den ∨ unitExponent num den = minExponent) := by
  obtain ⟨-, hless, hnormal⟩ := unitExponent_spec hnum hden
  obtain ⟨hlow, hhigh⟩ := abs_le.mp (roundedMantissa_spec num hden).1
  rw [← div_lt_iff₀ (two_zpow_pos _)] at hless
  rw [← le_div_iff₀ (two_zpow_pos _)] at hnormal
  constructor
  · have hround : (roundedMantissa num den : ℚ) < ((2 * topBit + 1 : ℕ) : ℚ) := by
      push_cast
      linarith
    exact Nat.lt_succ_iff.mp (Nat.cast_lt.mp hround)
  · refine hnormal.symm.imp_left fun hnormal => ?_
    have hround : (topBit : ℚ) < ((roundedMantissa num den + 1 : ℕ) : ℚ) := by
      push_cast
      linarith
    exact Nat.lt_succ_iff.mp (Nat.cast_lt.mp hround)

/-- Rounding a fraction gives the number that is nearest to it. -/
theorem isNearest_nearest {num den m : ℕ} {e : ℤ} (hnum : 0 < num) (hden : 0 < den)
    (h : nearest? num den = some (m, e)) (negative : Bool) :
    (Binary64.mk negative m e).IsNearest ((num : ℚ) / den) := by
  obtain ⟨hleast, -, hnormal⟩ := unitExponent_spec hnum hden
  obtain ⟨hhalf, htie⟩ := roundedMantissa_spec num hden
  obtain ⟨hle, htop⟩ := roundedMantissa_bounds hnum hden
  rw [nearest?_eq] at h
  split_ifs at h with hcarry hhigh hhigh
  · -- The carry moves to the next exponent and leaves the value.
    obtain ⟨rfl, rfl⟩ := Prod.mk.inj (Option.some.inj h)
    have hvalue : (Binary64.mk negative topBit (unitExponent num den + 1)).magnitude
        = roundedMantissa num den * 2 ^ unitExponent num den := by
      rw [magnitude, hcarry, zpow_add_one₀ two_ne_zero]
      push_cast
      ring
    have htopBit : topBit < 2 * topBit := by decide
    have heven : topBit % 2 = 0 := by decide
    exact isNearest_of_grid
      ⟨htopBit, .inl le_rfl, hleast.trans (Int.le_add_one le_rfl), not_lt.mp hhigh⟩ hvalue
      (fun _ => heven) hhalf htie hnormal
  · obtain ⟨rfl, rfl⟩ := Prod.mk.inj (Option.some.inj h)
    exact isNearest_of_grid ⟨lt_of_le_of_ne hle hcarry, htop, hleast, not_lt.mp hhigh⟩ rfl id hhalf
      htie hnormal

/-- A fraction that is well below the greatest number can be rounded. -/
theorem isSome_nearest? {num den : ℕ} (hnum : 0 < num) (hden : 0 < den)
    (h : (num : ℚ) / den < topBit * 2 ^ maxExponent) : (nearest? num den).isSome := by
  obtain ⟨-, -, hnormal⟩ := unitExponent_spec hnum hden
  have hexponent : unitExponent num den < maxExponent := by
    rcases hnormal with hleast | hnormal
    · rw [hleast]
      decide
    · by_contra hge
      push Not at hge
      have hpower : (2 : ℚ) ^ maxExponent ≤ 2 ^ unitExponent num den :=
        zpow_le_zpow_right₀ one_le_two hge
      have htop : (0 : ℚ) ≤ topBit := Nat.cast_nonneg _
      have := mul_le_mul_of_nonneg_left hpower htop
      linarith
  rw [nearest?_eq]
  split_ifs with _ hhigh hhigh
  · omega
  · rfl
  · omega
  · rfl

/-! ## Integers -/

/-- Zero is stored. -/
theorem wellFormed_zero (negative : Bool) : (zero negative).WellFormed :=
  ⟨(by decide : 0 < 2 * topBit), .inr rfl, le_rfl, (by decide : minExponent ≤ maxExponent)⟩

theorem magnitude_zero (negative : Bool) : (zero negative).magnitude = 0 := by
  rw [magnitude, zero, Nat.cast_zero, zero_mul]

/-- Whether a number is the nearest to an integer, on the side of zero that the integer is on. -/
def Denotes (x : Binary64) (n : Int) : Prop :=
  x.negative = decide (n < 0) ∧ x.IsNearest n.natAbs

theorem denotes_zero : (zero false).Denotes 0 := by
  have hself := (wellFormed_zero false).isNearest
  rw [magnitude_zero] at hself
  refine ⟨rfl, ?_⟩
  rwa [Int.natAbs_zero, Nat.cast_zero]

/-- An integer of at most 64 bits can be rounded, and is rounded to the nearest number. -/
theorem exists_ofInt? {n : Int} (hn : n.natAbs ≤ 2 ^ 64) :
    ∃ x, ofInt? n = some x ∧ x.Denotes n := by
  by_cases hzero : n = 0
  · subst hzero
    exact ⟨zero false, rfl, denotes_zero⟩
  · have hpos : 0 < n.natAbs := Int.natAbs_pos.mpr hzero
    have hlength : decimalLength n.natAbs ≤ 20 :=
      (Nat.length_toDigits_le_iff (by decide) (by decide)).mpr (hn.trans_lt (by decide))
    have hround : ofInt? n = (nearest? n.natAbs 1).map fun p => ⟨n < 0, p.1, p.2⟩ := by
      rw [ofInt?, ofDecimal?, if_neg (by omega), if_neg (by omega), Int.toNat_zero, neg_zero,
        Int.toNat_zero, Nat.pow_eq, pow_zero, mul_one]
    have hless : ((n.natAbs : ℕ) : ℚ) / (1 : ℕ) < topBit * 2 ^ maxExponent := by
      have hcast : ((n.natAbs : ℕ) : ℚ) ≤ 2 ^ (64 : ℤ) := by exact_mod_cast hn
      have hpower : (2 : ℚ) ^ (64 : ℤ) < 2 ^ (52 + maxExponent) :=
        (zpow_lt_zpow_iff_right₀ one_lt_two).mpr (by decide)
      rw [Nat.cast_one, div_one, topBit_eq, ← zpow_add₀ two_ne_zero]
      exact hcast.trans_lt hpower
    obtain ⟨⟨m, e⟩, hnearest⟩ := Option.isSome_iff_exists.mp
      (isSome_nearest? hpos Nat.one_pos hless)
    refine ⟨⟨n < 0, m, e⟩, by rw [hround, hnearest]; rfl, rfl, ?_⟩
    have hspec := isNearest_nearest hpos Nat.one_pos hnearest (n < 0)
    rwa [Nat.cast_one, div_one] at hspec

end Binary64

end Mustache
