import Mathlib.Algebra.Order.Field.Power
import Mathlib.Algebra.Order.Field.Rat
import Mathlib.Tactic.Linarith
import Mathlib.Tactic.NormNum
import Mathlib.Tactic.Positivity
import Mathlib.Tactic.Ring
import Mustache.Numeral.Shortest

/-!
The numbers that binary64 stores, and the rationals that are rounded to them.

Magnitudes are rationals here. Between a stored magnitude and the next one there is a gap, the
unit of the last bit, halved below a power of two (`exists_above`, `exists_below`). From the
gaps follows which rationals have a number for their nearest: those in the interval between
the middles of the gaps, and these as well if the mantissa is even (`isNearest_iff`). All that
the other modules use of it is that this set is convex (`IsNearest.between`), that a stored
magnitude is its own nearest (`IsNearest.eq_of_stored`), and that the nearest is unique
(`IsNearest.unique`).
-/
set_option autoImplicit false

namespace Mustache

namespace Binary64

/-! ## Stored magnitudes -/

/-- Whether a number is in the form that the interchange format stores. -/
structure WellFormed (x : Binary64) : Prop where
  mantissa_lt : x.mantissa < 2 * topBit
  normal : topBit ≤ x.mantissa ∨ x.exponent = minExponent
  le_exponent : minExponent ≤ x.exponent
  exponent_le : x.exponent ≤ maxExponent

/-- The magnitude of a number. -/
def magnitude (x : Binary64) : ℚ :=
  x.mantissa * 2 ^ x.exponent

/-- Whether a rational is the magnitude of a stored number. -/
def Stored (q : ℚ) : Prop :=
  ∃ x : Binary64, x.WellFormed ∧ x.magnitude = q

theorem two_zpow_pos (e : ℤ) : (0 : ℚ) < 2 ^ e :=
  zpow_pos two_pos e

/-- A power of two is two of the one below. -/
theorem two_zpow_eq (e : ℤ) : (2 : ℚ) ^ e = 2 * 2 ^ (e - 1) := by
  have h := zpow_add_one₀ (two_ne_zero' ℚ) (e - 1)
  rw [sub_add_cancel] at h
  rw [h, mul_comm]

/-- A power of two by one that is not greater. -/
theorem two_zpow_eq_mul {e f : ℤ} (h : e ≤ f) :
    (2 : ℚ) ^ f = ((2 ^ (f - e).toNat : ℕ) : ℚ) * 2 ^ e := by
  have hsum : f = ((f - e).toNat : ℤ) + e := by omega
  rw [Nat.cast_pow, Nat.cast_ofNat, ← zpow_natCast, ← zpow_add₀ (two_ne_zero' ℚ), ← hsum]

/-- A mantissa of at most 53 bits at an exponent in range is stored: it is shifted up until its
top bit is set or the exponent is the least one. -/
theorem stored_mul {a : ℕ} {e : ℤ} (ha : a < 2 * topBit) (hlow : minExponent ≤ e)
    (hhigh : e ≤ maxExponent) : Stored (a * 2 ^ e) := by
  obtain ⟨k, rfl⟩ : ∃ k : ℕ, e = minExponent + k := ⟨(e - minExponent).toNat, by omega⟩
  clear hlow
  -- Each step up from the least exponent is one more shift that the mantissa may take.
  induction k generalizing a with
  | zero =>
      have hleast : minExponent ≤ maxExponent := by decide
      exact ⟨⟨false, a, minExponent⟩, ⟨ha, .inr rfl, le_rfl, hleast⟩, by simp [magnitude]⟩
  | succ k ih =>
      by_cases hnormal : topBit ≤ a
      · have hlow : minExponent ≤ minExponent + ((k + 1 : ℕ) : ℤ) := by omega
        exact ⟨⟨false, a, minExponent + (k + 1 : ℕ)⟩, ⟨ha, .inl hnormal, hlow, hhigh⟩, rfl⟩
      · obtain ⟨x, hx, hmagnitude⟩ := ih (by omega : 2 * a < 2 * topBit) (by omega)
        refine ⟨x, hx, hmagnitude.trans ?_⟩
        have hexponent : minExponent + ((k + 1 : ℕ) : ℤ) - 1 = minExponent + k := by
          push_cast
          ring
        rw [two_zpow_eq (minExponent + ((k + 1 : ℕ) : ℤ)), hexponent]
        push_cast
        ring

/-- So is the mantissa that comes after the greatest. -/
theorem stored_mul_of_le {a : ℕ} {e : ℤ} (ha : a ≤ 2 * topBit) (hlow : minExponent ≤ e)
    (hhigh : e < maxExponent) : Stored (a * 2 ^ e) := by
  rcases ha.lt_or_eq with hlt | rfl
  · exact stored_mul hlt hlow hhigh.le
  · have htop : Stored (topBit * 2 ^ (e + 1)) :=
      stored_mul (by decide) (by omega) (by omega)
    have hvalue : ((2 * topBit : ℕ) : ℚ) * 2 ^ e = topBit * 2 ^ (e + 1) := by
      rw [zpow_add_one₀ two_ne_zero]
      push_cast
      ring
    rwa [hvalue]

/-- Against the grid of an exponent a stored magnitude is a point of it, or its exponent is
less and it lies below the normal ones. -/
theorem WellFormed.grid {x : Binary64} (hx : x.WellFormed) (e : ℤ) :
    (∃ k : ℕ, x.magnitude = k * 2 ^ e)
      ∨ (x.exponent < e ∧ x.magnitude ≤ topBit * 2 ^ e - 2 ^ (e - 1)) := by
  rcases le_or_gt e x.exponent with hle | hlt
  · refine .inl ⟨x.mantissa * 2 ^ (x.exponent - e).toNat, ?_⟩
    rw [magnitude, two_zpow_eq_mul hle]
    push_cast
    ring
  · -- The greatest number of the exponent before `e` is half a unit below the least of `e`.
    refine .inr ⟨hlt, ?_⟩
    have hmantissa : (x.mantissa : ℚ) ≤ 2 * topBit - 1 := by
      have hcast : ((x.mantissa + 1 : ℕ) : ℚ) ≤ ((2 * topBit : ℕ) : ℚ) :=
        Nat.cast_le.mpr hx.mantissa_lt
      push_cast at hcast
      linarith
    have hpower : (2 : ℚ) ^ x.exponent ≤ 2 ^ (e - 1) :=
      zpow_le_zpow_right₀ one_le_two (by omega)
    have htop : (0 : ℚ) ≤ 2 * topBit - 1 := (Nat.cast_nonneg x.mantissa).trans hmantissa
    calc x.magnitude ≤ (2 * topBit - 1) * 2 ^ (e - 1) :=
          mul_le_mul hmantissa hpower (two_zpow_pos _).le htop
      _ = topBit * 2 ^ e - 2 ^ (e - 1) := by
          rw [two_zpow_eq e]
          ring

/-- The mantissa of the number with the lesser exponent, by that of one with the same
magnitude. -/
theorem mantissa_eq_of_mul_eq {a b : ℕ} {e f : ℤ} (h : (a : ℚ) * 2 ^ e = b * 2 ^ f)
    (hle : e ≤ f) : a = b * 2 ^ (f - e).toNat := by
  rw [two_zpow_eq_mul hle, ← mul_assoc] at h
  have hcast := mul_right_cancel₀ (two_zpow_pos e).ne' h
  exact_mod_cast hcast

/-- A power of two that is not one is even. -/
theorem exists_two_pow_eq {e f : ℤ} (h : e < f) : ∃ k : ℕ, 0 < k ∧ 2 ^ (f - e).toNat = 2 * k := by
  obtain ⟨j, hj⟩ : ∃ j, (f - e).toNat = j + 1 := ⟨(f - e).toNat - 1, by omega⟩
  exact ⟨2 ^ j, Nat.two_pow_pos j, by rw [hj, pow_succ]; ring⟩

/-- A magnitude is stored in one way. -/
theorem WellFormed.eq_of_magnitude_eq {x y : Binary64} (hx : x.WellFormed) (hy : y.WellFormed)
    (h : x.magnitude = y.magnitude) : x.mantissa = y.mantissa ∧ x.exponent = y.exponent := by
  have hle : ∀ {x y : Binary64}, x.WellFormed → y.WellFormed → x.magnitude = y.magnitude →
      y.exponent ≤ x.exponent := by
    intro x y hx hy h
    by_contra hlt
    push Not at hlt
    obtain ⟨k, hk, hpower⟩ := exists_two_pow_eq hlt
    have hmantissa := mantissa_eq_of_mul_eq h hlt.le
    -- The other number is normal, so that its mantissa cannot be shifted.
    have hnormal : topBit ≤ y.mantissa := hy.normal.resolve_right (by have := hx.le_exponent; omega)
    have htwice : 2 * topBit ≤ x.mantissa := by
      rw [hmantissa, hpower]
      nlinarith
    exact absurd hx.mantissa_lt (by omega)
  have hexponent : x.exponent = y.exponent := le_antisymm (hle hy hx h.symm) (hle hx hy h)
  refine ⟨?_, hexponent⟩
  have hmantissa := mantissa_eq_of_mul_eq h hexponent.le
  rwa [hexponent, sub_self, Int.toNat_zero, pow_zero, mul_one] at hmantissa

/-! ## Gaps -/

/-- The lower end of the interval around a number. -/
def lowEnd (x : Binary64) : ℚ :=
  x.interval.low * 2 ^ (x.exponent - 2)

/-- The upper end of the interval around a number. -/
def highEnd (x : Binary64) : ℚ :=
  x.interval.high * 2 ^ (x.exponent - 2)

/-- Half the unit of the last bit in quarters. -/
theorem half_eq_quarters (e : ℤ) : (2 : ℚ) ^ (e - 1) = 2 * 2 ^ (e - 2) := by
  have hexponent : e - 1 - 1 = e - 2 := by omega
  rw [two_zpow_eq (e - 1), hexponent]

/-- The unit of the last bit in quarters. -/
theorem two_zpow_eq_quarters (e : ℤ) : (2 : ℚ) ^ e = 4 * 2 ^ (e - 2) := by
  rw [two_zpow_eq e, half_eq_quarters]
  ring

/-- The next magnitude is the unit of the last bit away, and the interval ends in the middle. -/
theorem WellFormed.exists_above {x : Binary64} (hx : x.WellFormed)
    (hhigh : x.exponent < maxExponent) :
    ∃ q, Stored q ∧ q = ((x.mantissa + 1 : ℕ) : ℚ) * 2 ^ x.exponent ∧ x.magnitude < q
      ∧ x.magnitude + q = 2 * x.highEnd
      ∧ ∀ y : Binary64, y.WellFormed → x.magnitude < y.magnitude → q ≤ y.magnitude := by
  have hunit := two_zpow_pos x.exponent
  refine ⟨((x.mantissa + 1 : ℕ) : ℚ) * 2 ^ x.exponent,
    stored_mul_of_le hx.mantissa_lt hx.le_exponent hhigh, rfl, ?_, ?_, ?_⟩
  · rw [magnitude]
    push_cast
    linarith
  · rw [magnitude, highEnd, interval, two_zpow_eq_quarters x.exponent]
    push_cast
    ring
  · intro y hy hlt
    rcases hy.grid x.exponent with ⟨k, hk⟩ | ⟨hless, hbelow⟩
    · rw [hk, magnitude] at hlt
      rw [hk]
      have hmantissa : x.mantissa < k := by exact_mod_cast lt_of_mul_lt_mul_right hlt hunit.le
      exact mul_le_mul_of_nonneg_right (by exact_mod_cast hmantissa) hunit.le
    · -- A number with a greater exponent is normal.
      have hnormal : topBit ≤ x.mantissa :=
        hx.normal.resolve_right (by have := hy.le_exponent; omega)
      have htop : (topBit : ℚ) * 2 ^ x.exponent ≤ x.magnitude :=
        mul_le_mul_of_nonneg_right (by exact_mod_cast hnormal) hunit.le
      have hhalf := two_zpow_pos (x.exponent - 1)
      linarith

/-- A stored magnitude below a point of the grid is at most the point before. -/
theorem mul_add_one_le {x y : Binary64} {k : ℕ} (hk : y.magnitude = k * 2 ^ x.exponent)
    (hlt : y.magnitude < x.magnitude) :
    y.magnitude + 2 ^ x.exponent ≤ x.magnitude := by
  have hunit := two_zpow_pos x.exponent
  rw [hk, magnitude] at hlt
  have hless : k + 1 ≤ x.mantissa := by exact_mod_cast lt_of_mul_lt_mul_right hlt hunit.le
  have hle : ((k + 1 : ℕ) : ℚ) * 2 ^ x.exponent ≤ x.mantissa * 2 ^ x.exponent :=
    mul_le_mul_of_nonneg_right (Nat.cast_le.mpr hless) hunit.le
  push_cast at hle
  rw [hk, magnitude]
  linarith

/-- Below a power of two the magnitude before is half a unit away. -/
theorem WellFormed.exists_below_of_power {x : Binary64} (hx : x.WellFormed)
    (hpower : x.mantissa = topBit ∧ minExponent < x.exponent) :
    ∃ q, Stored q ∧ q < x.magnitude ∧ q + x.magnitude = 2 * x.lowEnd
      ∧ ∀ y : Binary64, y.WellFormed → y.magnitude < x.magnitude → y.magnitude ≤ q := by
  have hunit := two_zpow_eq x.exponent
  have hhalf := two_zpow_pos (x.exponent - 1)
  -- Below a power of two the exponent drops, so that the neighbour is half a unit away.
  have hstored : Stored (((2 * topBit - 1 : ℕ) : ℚ) * 2 ^ (x.exponent - 1)) :=
    stored_mul (by decide) (by have := hpower.2; omega) (by have := hx.exponent_le; omega)
  have hvalue : ((2 * topBit - 1 : ℕ) : ℚ) * 2 ^ (x.exponent - 1)
      = x.magnitude - 2 ^ (x.exponent - 1) := by
    rw [magnitude, hpower.1, hunit, Nat.cast_sub (by decide)]
    push_cast
    ring
  rw [hvalue] at hstored
  refine ⟨_, hstored, by linarith, ?_, fun y hy hlt => ?_⟩
  · rw [magnitude, lowEnd, interval, if_pos hpower, hpower.1, Nat.cast_sub (by decide),
      half_eq_quarters, two_zpow_eq_quarters x.exponent]
    push_cast
    ring
  · rcases hy.grid x.exponent with ⟨k, hk⟩ | ⟨-, hbelow⟩
    · have := mul_add_one_le hk hlt
      linarith
    · have hvalue : x.magnitude = topBit * 2 ^ x.exponent := by rw [magnitude, hpower.1]
      rwa [hvalue]

/-- Elsewhere it is a whole unit away. -/
theorem WellFormed.exists_below_of_regular {x : Binary64} (hx : x.WellFormed)
    (hzero : x.mantissa ≠ 0) (hregular : ¬(x.mantissa = topBit ∧ minExponent < x.exponent)) :
    ∃ q, Stored q ∧ q < x.magnitude ∧ q + x.magnitude = 2 * x.lowEnd
      ∧ ∀ y : Binary64, y.WellFormed → y.magnitude < x.magnitude → y.magnitude ≤ q := by
  have hunit := two_zpow_pos x.exponent
  have hstored : Stored (((x.mantissa - 1 : ℕ) : ℚ) * 2 ^ x.exponent) :=
    stored_mul (by have := hx.mantissa_lt; omega) hx.le_exponent hx.exponent_le
  have hvalue : ((x.mantissa - 1 : ℕ) : ℚ) * 2 ^ x.exponent = x.magnitude - 2 ^ x.exponent := by
    rw [magnitude, Nat.cast_sub (by omega)]
    push_cast
    ring
  rw [hvalue] at hstored
  refine ⟨_, hstored, by linarith, ?_, fun y hy hlt => ?_⟩
  · rw [magnitude, lowEnd, interval, if_neg hregular, Nat.cast_sub (by omega),
      two_zpow_eq_quarters x.exponent]
    push_cast
    ring
  · rcases hy.grid x.exponent with ⟨k, hk⟩ | ⟨hless, hbelow⟩
    · have := mul_add_one_le hk hlt
      linarith
    · -- The number is normal, and not the least of its exponent.
      have hleast := hy.le_exponent
      have hnormal : topBit ≤ x.mantissa := hx.normal.resolve_right (by omega)
      have hmore : topBit + 1 ≤ x.mantissa :=
        lt_of_le_of_ne hnormal fun heq => hregular ⟨heq.symm, by omega⟩
      have hle : ((topBit + 1 : ℕ) : ℚ) * 2 ^ x.exponent ≤ x.magnitude :=
        mul_le_mul_of_nonneg_right (Nat.cast_le.mpr hmore) hunit.le
      push_cast at hle
      have hhalf := two_zpow_pos (x.exponent - 1)
      linarith

/-- There is a magnitude before that of a number which is not zero, and the interval ends in the
middle. -/
theorem WellFormed.exists_below {x : Binary64} (hx : x.WellFormed) (hzero : x.mantissa ≠ 0) :
    ∃ q, Stored q ∧ q < x.magnitude ∧ q + x.magnitude = 2 * x.lowEnd
      ∧ ∀ y : Binary64, y.WellFormed → y.magnitude < x.magnitude → y.magnitude ≤ q := by
  by_cases hpower : x.mantissa = topBit ∧ minExponent < x.exponent
  · exact hx.exists_below_of_power hpower
  · exact hx.exists_below_of_regular hzero hpower

/-! ## Distances -/

section

variable {a b q : ℚ}

/-- Which of two points is nearer is told by their middle. -/
theorem abs_sub_le_iff_middle (h : a < b) : |q - a| ≤ |q - b| ↔ 2 * q ≤ a + b := by
  -- Of squares, so that it does not matter on which side of the points `q` is.
  rw [← sq_le_sq]
  constructor
  · intro hle
    nlinarith
  · intro hle
    nlinarith

theorem abs_sub_le_iff_middle' (h : a < b) : |q - b| ≤ |q - a| ↔ a + b ≤ 2 * q := by
  rw [← sq_le_sq]
  constructor
  · intro hle
    nlinarith
  · intro hle
    nlinarith

end

/-! ## Nearest numbers -/

/-- Whether no stored magnitude is nearer to `q` than that of `x`, and `x` has an even mantissa
if another one is as near. -/
structure IsNearest (x : Binary64) (q : ℚ) : Prop where
  wellFormed : x.WellFormed
  nearest : ∀ y : Binary64, y.WellFormed → |q - x.magnitude| ≤ |q - y.magnitude|
  even : ∀ y : Binary64, y.WellFormed → |q - x.magnitude| = |q - y.magnitude| →
    y.magnitude = x.magnitude ∨ x.mantissa % 2 = 0

section

variable {x y : Binary64} {q r : ℚ}

theorem IsNearest.abs_sub_le (h : x.IsNearest q) (hr : Stored r) :
    |q - x.magnitude| ≤ |q - r| := by
  obtain ⟨y, hy, rfl⟩ := hr
  exact h.nearest y hy

theorem IsNearest.eq_of_stored (h : x.IsNearest q) (hq : Stored q) : x.magnitude = q := by
  have hle := h.abs_sub_le hq
  rw [sub_self, abs_zero] at hle
  exact (sub_eq_zero.mp (abs_nonpos_iff.mp hle)).symm

theorem IsNearest.le_magnitude (h : x.IsNearest q) (hr : Stored r) (hle : r ≤ q) :
    r ≤ x.magnitude := by
  by_contra hlt
  push Not at hlt
  have hmiddle := (abs_sub_le_iff_middle hlt).mp (h.abs_sub_le hr)
  linarith

theorem IsNearest.magnitude_le (h : x.IsNearest q) (hr : Stored r) (hle : q ≤ r) :
    x.magnitude ≤ r := by
  by_contra hlt
  push Not at hlt
  have hmiddle := (abs_sub_le_iff_middle' hlt).mp (h.abs_sub_le hr)
  linarith

theorem IsNearest.even_of_tie (h : x.IsNearest q) (hr : Stored r) (hne : r ≠ x.magnitude)
    (htie : |q - r| ≤ |q - x.magnitude|) : x.mantissa % 2 = 0 := by
  obtain ⟨y, hy, rfl⟩ := hr
  exact (h.even y hy (le_antisymm (h.nearest y hy) htie)).resolve_left hne

/-- Whether a rational is in the interval of a number. -/
def InInterval (x : Binary64) (q : ℚ) : Prop :=
  (x.lowEnd < q ∧ q < x.highEnd)
    ∨ (x.mantissa % 2 = 0 ∧ x.lowEnd ≤ q ∧ q ≤ x.highEnd)

theorem InInterval.lowEnd_le (h : x.InInterval q) : x.lowEnd ≤ q :=
  h.elim (fun h => h.1.le) fun h => h.2.1

theorem InInterval.le_highEnd (h : x.InInterval q) : q ≤ x.highEnd :=
  h.elim (fun h => h.2.le) fun h => h.2.2

theorem InInterval.even_of_end (h : x.InInterval q) (hend : q = x.lowEnd ∨ q = x.highEnd) :
    x.mantissa % 2 = 0 := by
  rcases h with ⟨hlow, hhigh⟩ | ⟨heven, -⟩
  · exact absurd hend (not_or.mpr ⟨hlow.ne', hhigh.ne⟩)
  · exact heven

/-- A rational is in the interval of its nearest number: at an end the neighbour is as near. -/
theorem IsNearest.inInterval (h : x.IsNearest q) (hzero : x.mantissa ≠ 0)
    (hhigh : x.exponent < maxExponent) : x.InInterval q := by
  obtain ⟨above, hstored, -, hlt, hmiddle, -⟩ := h.wellFormed.exists_above hhigh
  obtain ⟨below, hstored', hlt', hmiddle', -⟩ := h.wellFormed.exists_below hzero
  have hle := (abs_sub_le_iff_middle hlt).mp (h.abs_sub_le hstored)
  have hle' := (abs_sub_le_iff_middle' hlt').mp (h.abs_sub_le hstored')
  by_cases heven : x.mantissa % 2 = 0
  · exact .inr ⟨heven, by linarith, by linarith⟩
  · refine .inl ⟨lt_of_le_of_ne (by linarith) ?_, lt_of_le_of_ne (by linarith) ?_⟩
    · rintro rfl
      exact heven (h.even_of_tie hstored' hlt'.ne
        ((abs_sub_le_iff_middle hlt').mpr (by linarith)))
    · rintro rfl
      exact heven (h.even_of_tie hstored hlt.ne'
        ((abs_sub_le_iff_middle' hlt).mpr (by linarith)))

/-- A number is the nearest to what is in its interval: no magnitude is between it and its two
neighbours. -/
theorem InInterval.isNearest (h : x.InInterval q) (hx : x.WellFormed) (hzero : x.mantissa ≠ 0)
    (hhigh : x.exponent < maxExponent) : x.IsNearest q := by
  obtain ⟨above, -, -, -, hmiddle, hleast⟩ := hx.exists_above hhigh
  obtain ⟨below, -, -, hmiddle', hgreatest⟩ := hx.exists_below hzero
  have hlow := h.lowEnd_le
  have hupper := h.le_highEnd
  refine ⟨hx, fun y hy => ?_, fun y hy htie => ?_⟩
  · -- A number below is no nearer than the neighbour below, and the middle to that is the low end
    -- of the interval; above it is the same with the high end.
    rcases lt_trichotomy y.magnitude x.magnitude with hless | heq | hmore
    · have := hgreatest y hy hless
      exact (abs_sub_le_iff_middle' hless).mpr (by linarith)
    · rw [heq]
    · have := hleast y hy hmore
      exact (abs_sub_le_iff_middle hmore).mpr (by linarith)
  · rcases lt_trichotomy y.magnitude x.magnitude with hless | heq | hmore
    · have hfar := hgreatest y hy hless
      have hend := (abs_sub_le_iff_middle hless).mp htie.ge
      exact .inr (h.even_of_end (.inl (by linarith)))
    · exact .inl heq
    · have hfar := hleast y hy hmore
      have hend := (abs_sub_le_iff_middle' hmore).mp htie.ge
      exact .inr (h.even_of_end (.inr (by linarith)))

/-- The rationals whose nearest is a given number are those in its interval. -/
theorem isNearest_iff (hx : x.WellFormed) (hzero : x.mantissa ≠ 0)
    (hhigh : x.exponent < maxExponent) : x.IsNearest q ↔ x.InInterval q :=
  ⟨fun h => h.inInterval hzero hhigh, fun h => h.isNearest hx hzero hhigh⟩

/-- What lies between two rationals with a number for their nearest has it as well. -/
theorem IsNearest.between {p : ℚ} (hp : x.IsNearest p) (hr : x.IsNearest r)
    (hzero : x.mantissa ≠ 0) (hhigh : x.exponent < maxExponent) (hlow : p ≤ q) (hupper : q ≤ r) :
    x.IsNearest q := by
  have hiff {q : ℚ} := isNearest_iff (q := q) hp.wellFormed hzero hhigh
  rw [hiff] at hp hr ⊢
  rcases hp with ⟨hp, -⟩ | ⟨heven, hp, -⟩
  · rcases hr with ⟨-, hr⟩ | ⟨heven, -, hr⟩
    · exact .inl ⟨by linarith, by linarith⟩
    · exact .inr ⟨heven, by linarith, by linarith⟩
  · have hr := InInterval.le_highEnd hr
    exact .inr ⟨heven, by linarith, by linarith⟩

theorem WellFormed.isNearest (hx : x.WellFormed) : x.IsNearest x.magnitude := by
  refine ⟨hx, fun y _ => ?_, fun y _ htie => .inl ?_⟩
  · rw [sub_self, abs_zero]
    exact abs_nonneg _
  · rw [sub_self, abs_zero] at htie
    exact (sub_eq_zero.mp (abs_eq_zero.mp htie.symm)).symm

theorem mantissa_odd_of_above (hx : x.WellFormed) (hy : y.WellFormed)
    (h : y.magnitude = ((x.mantissa + 1 : ℕ) : ℚ) * 2 ^ x.exponent) (heven : x.mantissa % 2 = 0) :
    y.mantissa % 2 ≠ 0 := by
  have hbound := hx.mantissa_lt
  have hbound' := hy.mantissa_lt
  rcases lt_trichotomy x.exponent y.exponent with hlt | heq | hlt
  · -- The exponent grows only behind the greatest mantissa, which is odd.
    obtain ⟨k, hk, hpower⟩ := exists_two_pow_eq hlt
    have hmantissa := mantissa_eq_of_mul_eq h.symm hlt.le
    rw [hpower] at hmantissa
    have htwice : x.mantissa + 1 = 2 * (y.mantissa * k) := by rw [hmantissa]; ring
    omega
  · have hmantissa := mantissa_eq_of_mul_eq h.symm heq.le
    rw [heq, sub_self, Int.toNat_zero, pow_zero, mul_one] at hmantissa
    omega
  · -- With a smaller exponent the mantissa would be too large, since that of the other is normal.
    obtain ⟨k, hk, hpower⟩ := exists_two_pow_eq hlt
    have hmantissa := mantissa_eq_of_mul_eq h hlt.le
    rw [hpower] at hmantissa
    have hnormal : topBit ≤ x.mantissa := hx.normal.resolve_right (by have := hy.le_exponent; omega)
    have htwice : 2 * topBit ≤ y.mantissa := by
      rw [hmantissa]
      nlinarith
    omega

theorem IsNearest.magnitude_eq (hx : x.IsNearest q) (hy : y.IsNearest q)
    (hhigh : x.exponent < maxExponent) (hhigh' : y.exponent < maxExponent) :
    x.magnitude = y.magnitude := by
  have hle : ∀ {x y : Binary64}, x.IsNearest q → y.IsNearest q → x.exponent < maxExponent →
      y.magnitude ≤ x.magnitude := by
    intro x y hx hy hhigh
    by_contra hlt
    push Not at hlt
    have hnear := hx.nearest y hy.wellFormed
    have hnear' := hy.nearest x hx.wellFormed
    have heven := hx.even_of_tie ⟨y, hy.wellFormed, rfl⟩ hlt.ne' hnear'
    have heven' := hy.even_of_tie ⟨x, hx.wellFormed, rfl⟩ hlt.ne hnear
    -- Nothing is in between, so that the two are neighbours.
    obtain ⟨above, hstored, habove, hless, -, hleast⟩ := hx.wellFormed.exists_above hhigh
    have hmiddle := (abs_sub_le_iff_middle hless).mp (hx.abs_sub_le hstored)
    have hmiddle' := (abs_sub_le_iff_middle' hlt).mp hnear'
    have hneighbour : y.magnitude = above :=
      le_antisymm (by linarith) (hleast y hy.wellFormed hlt)
    exact mantissa_odd_of_above hx.wellFormed hy.wellFormed (hneighbour.trans habove) heven heven'
  exact le_antisymm (hle hy hx hhigh') (hle hx hy hhigh)

end

end Binary64

end Mustache
