import Mustache.Numeral.Layout
import Mustache.Proofs.Numeral.Rounding
import Mustache.Proofs.Text.Decimal

/-!
The shortest decimal that reads back as a whole number.

Of the decimals that have a number for their nearest the shortest is meant, and of those as
short the nearest to the number (`IsShortest`). The search goes through the grids of powers of
ten from coarse to fine, and stops at the first that has a point which reads back
(`FirstHit`). For a whole number of at most 64 bits that point is the shortest decimal, and the
only one (`FirstHit.length_le`): a decimal with as few digits on a finer grid would have a power
of ten between itself and that point, and this power of ten, which is stored itself, would be
the number.
-/
set_option autoImplicit false

namespace Mustache

open Text

namespace Decimal

/-- The magnitude of a decimal. -/
def value (d : Decimal) : ℚ :=
  d.digits * 10 ^ d.scale

/-- The number of digits of a decimal. -/
def length (d : Decimal) : ℕ :=
  d.digitText.length

theorem length_pos (d : Decimal) : 0 < d.length :=
  List.length_pos_iff.mpr (decimal_ne_nil d.digits)

theorem length_of_lt_ten {d : Decimal} (h : d.digits < 10) : d.length = 1 := by
  rw [length, digitText, decimal, if_pos h, List.length_singleton]

/-- A decimal lies between two powers of ten, by its number of digits. -/
theorem value_bounds {d : Decimal} (hd : 0 < d.digits) :
    (10 : ℚ) ^ ((d.length : ℤ) - 1 + d.scale) ≤ d.value
      ∧ d.value < 10 ^ ((d.length : ℤ) + d.scale) := by
  have hunit : (0 : ℚ) < 10 ^ d.scale := zpow_pos (by norm_num) _
  have hlength := d.length_pos
  have hlow : 10 ^ (d.length - 1) ≤ d.digits := pow_length_decimal_le hd
  have hhigh : d.digits < 10 ^ d.length := (length_decimal_le_iff d.digits hlength).mp le_rfl
  have hexponent : ((d.length - 1 : ℕ) : ℤ) = (d.length : ℤ) - 1 := by omega
  rw [zpow_add₀ (by norm_num), zpow_add₀ (by norm_num), ← hexponent, zpow_natCast, zpow_natCast,
    value]
  exact ⟨mul_le_mul_of_nonneg_right (by exact_mod_cast hlow) hunit.le,
    mul_lt_mul_of_pos_right (by exact_mod_cast hhigh) hunit⟩

/-- Powers of ten are in the order of their exponents. -/
theorem lt_of_ten_zpow_lt {e f : ℤ} (h : (10 : ℚ) ^ e < 10 ^ f) : e < f :=
  (zpow_lt_zpow_iff_right₀ (by norm_num)).mp h

theorem ext {d d' : Decimal} (hdigits : d.digits = d'.digits) (hscale : d.scale = d'.scale) :
    d = d' := by
  cases d
  cases d'
  exact congrArg₂ Decimal.mk hdigits hscale

theorem scale_eq_of_value_eq {d d' : Decimal} (hd : 0 < d.digits) (hd' : 0 < d'.digits)
    (hvalue : d.value = d'.value) (hlength : d.length = d'.length) : d.scale = d'.scale := by
  obtain ⟨hlow, hhigh⟩ := value_bounds hd
  obtain ⟨hlow', hhigh'⟩ := value_bounds hd'
  rw [← hvalue, ← hlength] at hlow' hhigh'
  have hlt := lt_of_ten_zpow_lt (hlow.trans_lt hhigh')
  have hlt' := lt_of_ten_zpow_lt (hlow'.trans_lt hhigh)
  omega

end Decimal

namespace Binary64

/-- Whether a decimal reads back as a number with as few digits as possible; whether none with
as few is nearer to the number; and whether its last digit is even if another one is as near. -/
structure IsShortest (x : Binary64) (d : Decimal) : Prop where
  reads : x.IsNearest d.value
  fewest : ∀ d' : Decimal, x.IsNearest d'.value → d.length ≤ d'.length
  nearest : ∀ d' : Decimal, x.IsNearest d'.value → d'.length = d.length →
    |x.magnitude - d.value| ≤ |x.magnitude - d'.value|
  even : ∀ d' : Decimal, x.IsNearest d'.value → d'.length = d.length →
    |x.magnitude - d.value| = |x.magnitude - d'.value| → d'.value = d.value ∨ d.digits % 2 = 0

/-! ## Grids -/

theorem ten_zpow_pos (e : ℤ) : (0 : ℚ) < 10 ^ e :=
  zpow_pos (by norm_num) e

/-- The quarter of the last bit and the unit of a grid, by one factor each. -/
theorem quarterInGrid_spec (x : Binary64) (s : ℤ) :
    ∃ t : ℚ, 0 < t ∧ ((x.quarterInGrid s).1 : ℚ) * t = 2 ^ (x.exponent - 2)
      ∧ ((x.quarterInGrid s).2 : ℚ) * t = 10 ^ s := by
  have hgrid : x.quarterInGrid s
      = (2 ^ (x.exponent - 2).toNat * 10 ^ (-s).toNat,
        2 ^ (-(x.exponent - 2)).toNat * 10 ^ s.toNat) := rfl
  refine ⟨1 / (2 ^ (-(x.exponent - 2)).toNat * 10 ^ (-s).toNat), by positivity, ?_, ?_⟩
  · rw [hgrid, zpow_eq_div 2 two_ne_zero (x.exponent - 2)]
    push_cast
    field_simp
  · rw [hgrid, zpow_eq_div 10 (by norm_num) s]
    push_cast
    field_simp

/-- The number in quarters of its last bit. -/
theorem magnitude_eq_quarters (x : Binary64) :
    x.magnitude = x.interval.value * 2 ^ (x.exponent - 2) := by
  rw [magnitude, interval, two_zpow_eq_quarters x.exponent]
  push_cast
  ring

/-- Comparisons in the units of the search are comparisons of magnitudes. -/
theorem mul_le_grid_iff (x : Binary64) (s : ℤ) (a n : ℕ) :
    a * (x.quarterInGrid s).1 ≤ n * (x.quarterInGrid s).2
      ↔ (a : ℚ) * 2 ^ (x.exponent - 2) ≤ n * 10 ^ s := by
  obtain ⟨t, ht, hquarter, hunit⟩ := quarterInGrid_spec x s
  rw [← hquarter, ← hunit, ← mul_assoc, ← mul_assoc, mul_le_mul_iff_left₀ ht]
  exact_mod_cast Iff.rfl

theorem grid_le_mul_iff (x : Binary64) (s : ℤ) (a n : ℕ) :
    n * (x.quarterInGrid s).2 ≤ a * (x.quarterInGrid s).1
      ↔ (n : ℚ) * 10 ^ s ≤ a * 2 ^ (x.exponent - 2) := by
  obtain ⟨t, ht, hquarter, hunit⟩ := quarterInGrid_spec x s
  rw [← hquarter, ← hunit, ← mul_assoc, ← mul_assoc, mul_le_mul_iff_left₀ ht]
  exact_mod_cast Iff.rfl

theorem mul_lt_grid_iff (x : Binary64) (s : ℤ) (a n : ℕ) :
    a * (x.quarterInGrid s).1 < n * (x.quarterInGrid s).2
      ↔ (a : ℚ) * 2 ^ (x.exponent - 2) < n * 10 ^ s := by
  rw [← not_le, ← not_le, grid_le_mul_iff]

theorem grid_lt_mul_iff (x : Binary64) (s : ℤ) (a n : ℕ) :
    n * (x.quarterInGrid s).2 < a * (x.quarterInGrid s).1
      ↔ (n : ℚ) * 10 ^ s < a * 2 ^ (x.exponent - 2) := by
  rw [← not_le, ← not_le, mul_le_grid_iff]

/-- The point of a grid in front of a number. -/
def belowInGrid (x : Binary64) (s : ℤ) : ℕ :=
  x.interval.value * (x.quarterInGrid s).1 / (x.quarterInGrid s).2

theorem quarterInGrid_pos (x : Binary64) (s : ℤ) : 0 < (x.quarterInGrid s).2 :=
  Nat.mul_pos (Nat.two_pow_pos _) (Nat.pow_pos (by decide))

/-- A number lies between two points of a grid. -/
theorem belowInGrid_spec (x : Binary64) (s : ℤ) :
    (x.belowInGrid s : ℚ) * 10 ^ s ≤ x.magnitude
      ∧ x.magnitude < ((x.belowInGrid s + 1 : ℕ) : ℚ) * 10 ^ s := by
  rw [magnitude_eq_quarters, ← grid_le_mul_iff, ← mul_lt_grid_iff]
  refine ⟨Nat.div_mul_le_self _ _, ?_⟩
  rw [Nat.mul_comm (x.belowInGrid s + 1)]
  exact Nat.lt_mul_div_succ _ (quarterInGrid_pos x s)

/-- Which of the two points is nearer, in the units of the search. -/
theorem below_nearer_iff (x : Binary64) (s : ℤ) :
    x.interval.value * (x.quarterInGrid s).1 - x.belowInGrid s * (x.quarterInGrid s).2
        < (x.belowInGrid s + 1) * (x.quarterInGrid s).2
          - x.interval.value * (x.quarterInGrid s).1
      ↔ x.magnitude - x.belowInGrid s * 10 ^ s
        < ((x.belowInGrid s + 1 : ℕ) : ℚ) * 10 ^ s - x.magnitude := by
  obtain ⟨hbelow, habove⟩ := belowInGrid_spec x s
  rw [magnitude_eq_quarters, ← grid_le_mul_iff] at hbelow
  rw [magnitude_eq_quarters, ← mul_lt_grid_iff] at habove
  have htwice := mul_lt_grid_iff x s (2 * x.interval.value) (2 * x.belowInGrid s + 1)
  rw [Nat.mul_assoc, Nat.add_mul, Nat.mul_assoc] at htwice
  rw [Nat.add_mul] at habove ⊢
  -- Differences of natural numbers are exact here, since the point is below and the next one
  -- above.
  have hsum : x.interval.value * (x.quarterInGrid s).1 - x.belowInGrid s * (x.quarterInGrid s).2
        < x.belowInGrid s * (x.quarterInGrid s).2 + 1 * (x.quarterInGrid s).2
          - x.interval.value * (x.quarterInGrid s).1
      ↔ 2 * (x.interval.value * (x.quarterInGrid s).1)
        < 2 * (x.belowInGrid s * (x.quarterInGrid s).2) + 1 * (x.quarterInGrid s).2 := by
    omega
  rw [hsum, htwice, magnitude_eq_quarters]
  push_cast
  constructor <;> intro h <;> linarith

/-! ## Points that read back -/

/-- Whether a point of a grid is found to read back. -/
def insideGrid (x : Binary64) (s : ℤ) (n : ℕ) : Bool :=
  if x.interval.closed then
    x.interval.low * (x.quarterInGrid s).1 ≤ n * (x.quarterInGrid s).2
      && n * (x.quarterInGrid s).2 ≤ x.interval.high * (x.quarterInGrid s).1
  else
    x.interval.low * (x.quarterInGrid s).1 < n * (x.quarterInGrid s).2
      && n * (x.quarterInGrid s).2 < x.interval.high * (x.quarterInGrid s).1

theorem gridPoint?_eq (x : Binary64) (s : ℤ) :
    x.gridPoint? s =
      match x.insideGrid s (x.belowInGrid s), x.insideGrid s (x.belowInGrid s + 1) with
      | true, true =>
          if x.interval.value * (x.quarterInGrid s).1 - x.belowInGrid s * (x.quarterInGrid s).2
              < (x.belowInGrid s + 1) * (x.quarterInGrid s).2
                - x.interval.value * (x.quarterInGrid s).1 then
            some (x.belowInGrid s)
          else some (x.belowInGrid s + 1)
      | true, false => some (x.belowInGrid s)
      | false, true => some (x.belowInGrid s + 1)
      | false, false => none := rfl

section

variable {x : Binary64} (hx : x.WellFormed) (hzero : x.mantissa ≠ 0)
  (hhigh : x.exponent < maxExponent)

include hx hzero hhigh

/-- A point is found to read back if it does. -/
theorem insideGrid_iff (s : ℤ) (n : ℕ) :
    x.insideGrid s n = true ↔ x.IsNearest (n * 10 ^ s) := by
  have hclosed : x.interval.closed = true ↔ x.mantissa % 2 = 0 := by
    rw [interval]
    exact beq_iff_eq
  rw [isNearest_iff hx hzero hhigh, InInterval, lowEnd, highEnd, insideGrid]
  by_cases heven : x.mantissa % 2 = 0
  · rw [if_pos (hclosed.mpr heven), Bool.and_eq_true, decide_eq_true_iff, decide_eq_true_iff,
      mul_le_grid_iff, grid_le_mul_iff]
    exact ⟨fun h => .inr ⟨heven, h⟩, fun h => h.elim (fun h => ⟨h.1.le, h.2.le⟩) fun h => h.2⟩
  · rw [if_neg fun h => heven (hclosed.mp h), Bool.and_eq_true, decide_eq_true_iff,
      decide_eq_true_iff, mul_lt_grid_iff, grid_lt_mul_iff]
    exact ⟨.inl, fun h => h.resolve_right fun h => heven h.1⟩

/-- A point that reads back is not nearer than one of the two next to the number, which reads
back as well. -/
theorem neighbour_reads {s : ℤ} {k : ℕ} (h : x.IsNearest (k * 10 ^ s)) :
    (x.IsNearest (x.belowInGrid s * 10 ^ s)
      ∧ |x.magnitude - x.belowInGrid s * 10 ^ s| ≤ |x.magnitude - k * 10 ^ s|)
    ∨ (x.IsNearest (((x.belowInGrid s + 1 : ℕ) : ℚ) * 10 ^ s)
      ∧ |x.magnitude - ((x.belowInGrid s + 1 : ℕ) : ℚ) * 10 ^ s| ≤ |x.magnitude - k * 10 ^ s|) := by
  obtain ⟨hbelow, habove⟩ := belowInGrid_spec x s
  have hunit := ten_zpow_pos s
  have hmono {i j : ℕ} (hij : i ≤ j) : (i : ℚ) * 10 ^ s ≤ j * 10 ^ s :=
    mul_le_mul_of_nonneg_right (Nat.cast_le.mpr hij) hunit.le
  rcases Nat.lt_or_ge (x.belowInGrid s) k with hlt | hle
  · have hk := hmono hlt
    refine .inr ⟨hx.isNearest.between h hzero hhigh habove.le hk, ?_⟩
    rw [abs_of_nonpos (by linarith), abs_of_nonpos (by linarith)]
    linarith
  · have hk := hmono hle
    refine .inl ⟨h.between hx.isNearest hzero hhigh hk hbelow, ?_⟩
    rw [abs_of_nonneg (by linarith), abs_of_nonneg (by linarith)]
    linarith

/-- On a grid without a hit no point reads back. -/
theorem not_isNearest_of_gridPoint {s : ℤ} (h : x.gridPoint? s = none) (k : ℕ) :
    ¬ x.IsNearest (k * 10 ^ s) := by
  intro hk
  have hneither : x.insideGrid s (x.belowInGrid s) = false
      ∧ x.insideGrid s (x.belowInGrid s + 1) = false := by
    rw [gridPoint?_eq] at h
    split at h
    · split_ifs at h
    · cases h
    · cases h
    · next hbelow habove => exact ⟨hbelow, habove⟩
  rcases neighbour_reads hx hzero hhigh hk with ⟨hbelow, -⟩ | ⟨habove, -⟩
  · rw [← insideGrid_iff hx hzero hhigh, hneither.1] at hbelow
    cases hbelow
  · rw [← insideGrid_iff hx hzero hhigh, hneither.2] at habove
    cases habove

/-- A hit reads back, and is nearest among the points of its grid that do. -/
theorem isNearest_of_gridPoint {s : ℤ} {g : ℕ} (h : x.gridPoint? s = some g) :
    x.IsNearest (g * 10 ^ s) ∧ ∀ k : ℕ, x.IsNearest (k * 10 ^ s) →
      |x.magnitude - g * 10 ^ s| ≤ |x.magnitude - k * 10 ^ s| := by
  have hinside := insideGrid_iff hx hzero hhigh s
  obtain ⟨hbelow, habove⟩ := belowInGrid_spec x s
  have hdistance : |x.magnitude - x.belowInGrid s * 10 ^ s|
      = x.magnitude - x.belowInGrid s * 10 ^ s := abs_of_nonneg (by linarith)
  have hdistance' : |x.magnitude - ((x.belowInGrid s + 1 : ℕ) : ℚ) * 10 ^ s|
      = ((x.belowInGrid s + 1 : ℕ) : ℚ) * 10 ^ s - x.magnitude := by
    rw [abs_of_nonpos (by linarith), neg_sub]
  -- Any point of the grid that reads back is no nearer than the neighbour on its side, which reads
  -- back as well. So it is enough to choose among the two neighbours.
  rw [gridPoint?_eq] at h
  split at h
  · next hbelowInside haboveInside =>
      rw [hinside] at hbelowInside haboveInside
      split_ifs at h with hnearer
      · rw [below_nearer_iff] at hnearer
        obtain rfl := Option.some.inj h
        refine ⟨hbelowInside, fun k hk => ?_⟩
        rcases neighbour_reads hx hzero hhigh hk with ⟨-, hle⟩ | ⟨-, hle⟩ <;> linarith
      · rw [below_nearer_iff, not_lt] at hnearer
        obtain rfl := Option.some.inj h
        refine ⟨haboveInside, fun k hk => ?_⟩
        rcases neighbour_reads hx hzero hhigh hk with ⟨-, hle⟩ | ⟨-, hle⟩ <;> linarith
  · next hbelowInside haboveOutside =>
      obtain rfl := Option.some.inj h
      refine ⟨(hinside _).mp hbelowInside, fun k hk => ?_⟩
      rcases neighbour_reads hx hzero hhigh hk with ⟨-, hle⟩ | ⟨hreads, -⟩
      · exact hle
      · rw [← hinside, haboveOutside] at hreads
        cases hreads
  · next hbelowOutside haboveInside =>
      obtain rfl := Option.some.inj h
      refine ⟨(hinside _).mp haboveInside, fun k hk => ?_⟩
      rcases neighbour_reads hx hzero hhigh hk with ⟨hreads, -⟩ | ⟨-, hle⟩
      · rw [← hinside, hbelowOutside] at hreads
        cases hreads
      · exact hle
  · cases h

end

/-! ## Whole numbers -/

/-- Every whole number of at most 53 bits is stored, and the next one. -/
theorem stored_nat {n : ℕ} (h : n ≤ 2 * topBit) : Stored n := by
  have hstored := stored_mul_of_le h (by decide : minExponent ≤ 0) (by decide : 0 < maxExponent)
  rwa [zpow_zero, mul_one] at hstored

/-- The powers of ten up to the 22nd are stored. -/
theorem stored_ten_zpow {k : ℤ} (hpos : 0 ≤ k) (hle : k ≤ 22) : Stored (10 ^ k) := by
  obtain ⟨k, rfl⟩ := Int.eq_ofNat_of_zero_le hpos
  have hmantissa : 5 ^ k < 2 * topBit :=
    (Nat.pow_le_pow_right (by decide) (by omega : k ≤ 22)).trans_lt (by decide)
  have hlow : minExponent ≤ 0 := by decide
  have hhigh : (22 : ℤ) ≤ maxExponent := by decide
  have hstored := stored_mul hmantissa (hlow.trans hpos) (hle.trans hhigh)
  have hvalue : ((5 ^ k : ℕ) : ℚ) * 2 ^ (k : ℤ) = 10 ^ (k : ℤ) := by
    rw [zpow_natCast, zpow_natCast, Nat.cast_pow, ← mul_pow]
    norm_num
  rwa [hvalue] at hstored

/-- Whether the magnitude of a number is a whole number of at most 64 bits, and not zero. -/
structure Whole (x : Binary64) (n : ℕ) : Prop where
  wellFormed : x.WellFormed
  magnitude_eq : x.magnitude = n
  pos : 0 < n
  le : n ≤ 2 ^ 64

section

variable {x : Binary64} {n : ℕ}

theorem Whole.mantissa_ne_zero (h : x.Whole n) : x.mantissa ≠ 0 := by
  intro hzero
  have hvalue := h.magnitude_eq
  rw [magnitude, hzero, Nat.cast_zero, zero_mul] at hvalue
  exact h.pos.ne (by exact_mod_cast hvalue)

/-- The magnitude between two powers of two. -/
theorem Whole.log2_bounds (h : x.Whole n) :
    (2 : ℚ) ^ (x.exponent + x.mantissa.log2) ≤ n
      ∧ (n : ℚ) < 2 ^ (x.exponent + x.mantissa.log2 + 1) := by
  obtain ⟨hlow, hhigh⟩ := two_zpow_log2_le (Nat.pos_of_ne_zero h.mantissa_ne_zero)
  have hunit := two_zpow_pos x.exponent
  rw [← h.magnitude_eq, magnitude, add_assoc, zpow_add₀ two_ne_zero, zpow_add₀ two_ne_zero,
    mul_comm (x.mantissa : ℚ)]
  exact ⟨mul_le_mul_of_nonneg_left hlow hunit.le, mul_lt_mul_of_pos_left hhigh hunit⟩

theorem Whole.log2_nonneg (h : x.Whole n) : 0 ≤ x.exponent + x.mantissa.log2 := by
  have hone : (1 : ℚ) ≤ n := by exact_mod_cast h.pos
  have hless : (2 : ℚ) ^ (0 : ℤ) < 2 ^ (x.exponent + x.mantissa.log2 + 1) := by
    rw [zpow_zero]
    exact hone.trans_lt h.log2_bounds.2
  have := (zpow_lt_zpow_iff_right₀ one_lt_two).mp hless
  omega

theorem Whole.log2_le (h : x.Whole n) : x.exponent + x.mantissa.log2 ≤ 64 := by
  have hle : (n : ℚ) ≤ 2 ^ (64 : ℤ) := by exact_mod_cast h.le
  exact (zpow_le_zpow_iff_right₀ one_lt_two).mp (h.log2_bounds.1.trans hle)

theorem Whole.exponent_lt (h : x.Whole n) : x.exponent < maxExponent := by
  have hle := h.log2_le
  have hmax : (64 : ℤ) < maxExponent := by decide
  omega

theorem Whole.lt_ten_pow (h : x.Whole n) : (n : ℚ) < 10 ^ (21 : ℤ) := by
  have hle : (n : ℚ) ≤ 2 ^ 64 := by exact_mod_cast h.le
  refine hle.trans_lt ?_
  norm_num

theorem Whole.isNearest (h : x.Whole n) : x.IsNearest n := by
  have hself := h.wellFormed.isNearest
  rwa [h.magnitude_eq] at hself

theorem Whole.between {p q r : ℚ} (h : x.Whole n) (hp : x.IsNearest p) (hr : x.IsNearest r)
    (hlow : p ≤ q) (hhigh : q ≤ r) : x.IsNearest q :=
  hp.between hr h.mantissa_ne_zero h.exponent_lt hlow hhigh

/-- What reads back as a whole number is not zero. -/
theorem Whole.digits_pos {k : ℕ} {e : ℚ} (h : x.Whole n) (hk : x.IsNearest (k * e)) : 0 < k := by
  refine Nat.pos_of_ne_zero fun hzero => ?_
  rw [hzero, Nat.cast_zero, zero_mul] at hk
  have hstored : Stored ((0 : ℕ) : ℚ) := stored_nat (Nat.zero_le _)
  rw [Nat.cast_zero] at hstored
  have heq := hk.eq_of_stored hstored
  rw [h.magnitude_eq] at heq
  exact h.pos.ne' (by exact_mod_cast heq)

/-! ## The search -/

/-- Whether a decimal is the nearest among those that read back on its grid, and no coarser grid
has any. -/
structure FirstHit (x : Binary64) (d : Decimal) : Prop where
  scale_nonneg : 0 ≤ d.scale
  reads : x.IsNearest d.value
  nearest : ∀ k : ℕ, x.IsNearest (k * 10 ^ d.scale) →
    |x.magnitude - d.value| ≤ |x.magnitude - k * 10 ^ d.scale|
  first : ∀ s, d.scale < s → ∀ k : ℕ, ¬ x.IsNearest (k * 10 ^ s)

/-- From a grid that is coarse enough the search comes to the first hit: a whole number is a
point of the grid of ones. -/
theorem Whole.firstHit_searchGrids (h : x.Whole n) {tries : ℕ} {scale : ℤ} (hpos : 0 ≤ scale)
    (htries : scale < tries) (hcoarse : ∀ s, scale < s → ∀ k : ℕ, ¬ x.IsNearest (k * 10 ^ s)) :
    x.FirstHit (x.searchGrids tries scale) := by
  induction tries generalizing scale with
  | zero => exact absurd htries (by omega)
  | succ tries ih =>
      rw [searchGrids]
      cases hpoint : x.gridPoint? scale with
      | some g =>
          obtain ⟨hreads, hnearest⟩ :=
            isNearest_of_gridPoint h.wellFormed h.mantissa_ne_zero h.exponent_lt hpoint
          exact ⟨hpos, hreads, hnearest, hcoarse⟩
      | none =>
          have hnone :=
            not_isNearest_of_gridPoint h.wellFormed h.mantissa_ne_zero h.exponent_lt hpoint
          -- The search does not pass the grid of ones, where the number itself reads back.
          have hscale : 0 < scale := by
            refine lt_of_le_of_ne hpos fun hzero => hnone n ?_
            rw [← hzero, zpow_zero, mul_one]
            exact h.isNearest
          refine ih (by omega) (by push_cast at htries; omega) fun s hs k => ?_
          rcases (show scale ≤ s by omega).eq_or_lt with rfl | hlt
          · exact hnone k
          · exact hcoarse s hlt k

/-- The grid on which the search begins is coarse enough, and not too coarse. -/
theorem Whole.coarseScale_bounds (h : x.Whole n) :
    0 ≤ x.coarseScale ∧ x.coarseScale ≤ 21 ∧ (n : ℚ) < 10 ^ (x.coarseScale + 1) := by
  obtain ⟨l, hl⟩ := Int.eq_ofNat_of_zero_le h.log2_nonneg
  have hle := h.log2_le
  have hless := h.log2_bounds.2
  have hcoarse : x.coarseScale = (((l + 1) * 30103 / 100000 + 2 : ℕ) : ℤ) := by
    rw [coarseScale, hl]
    push_cast
    rfl
  rw [hl] at hle hless
  have htable : ∀ l ≤ 64, (l + 1) * 30103 / 100000 + 2 ≤ 21
      ∧ 2 ^ (l + 1) ≤ 10 ^ ((l + 1) * 30103 / 100000 + 2 + 1) := by decide
  obtain ⟨hsmall, hpower⟩ := htable l (by omega)
  rw [hcoarse]
  refine ⟨Int.natCast_nonneg _, by exact_mod_cast hsmall, hless.trans_le ?_⟩
  exact_mod_cast hpower

/-- The search gives the first hit for a whole number. -/
theorem Whole.firstHit_shortest (h : x.Whole n) : x.FirstHit x.shortest := by
  obtain ⟨hpos, hsmall, hless⟩ := h.coarseScale_bounds
  refine h.firstHit_searchGrids hpos (by omega) fun s hs k hk => ?_
  -- A power of ten above the number would be nearer to the point than the number.
  have hpower : (10 : ℚ) ^ (x.coarseScale + 1) ≤ 10 ^ s :=
    zpow_le_zpow_right₀ (by norm_num) (by omega)
  have hpoint : (10 : ℚ) ^ s ≤ k * 10 ^ s :=
    le_mul_of_one_le_left (ten_zpow_pos s).le (by exact_mod_cast h.digits_pos hk)
  have hreads := h.between h.isNearest hk hless.le (hpower.trans hpoint)
  have heq := hreads.eq_of_stored (stored_ten_zpow (by omega) (by omega))
  rw [h.magnitude_eq] at heq
  exact hless.ne heq

/-! ## The first hit -/

/-- What reads back as a whole number is below the power of ten above it, which is stored. -/
theorem Whole.reads_lt (h : x.Whole n) {q : ℚ} (hq : x.IsNearest q) : q < 10 ^ (21 : ℤ) := by
  by_contra hge
  push Not at hge
  have hreads := h.between h.isNearest hq h.lt_ten_pow.le hge
  have heq := hreads.eq_of_stored (stored_ten_zpow (by norm_num) (by norm_num))
  rw [h.magnitude_eq] at heq
  exact h.lt_ten_pow.ne heq

/-- A decimal that reads back and is less than the power of ten of the first digit of the first
hit: the number is that power of ten. -/
theorem FirstHit.eq_of_lt {d : Decimal} (hd : x.FirstHit d) (h : x.Whole n) {q : ℚ}
    (hq : x.IsNearest q) (hlt : q < 10 ^ ((d.length : ℤ) - 1 + d.scale)) :
    d.length = 1 ∧ d.value = x.magnitude := by
  have hlength := d.length_pos
  have hscale := hd.scale_nonneg
  have hlow := (Decimal.value_bounds (h.digits_pos hd.reads)).1
  have hexponent := Decimal.lt_of_ten_zpow_lt (hlow.trans_lt (h.reads_lt hd.reads))
  have hreads := h.between hq hd.reads hlt.le hlow
  have heq := hreads.eq_of_stored (stored_ten_zpow (by omega) (by omega))
  -- The power of ten is on the grid of its exponent, which is not coarser.
  have hone : d.length = 1 := by
    by_contra hne
    refine hd.first ((d.length : ℤ) - 1 + d.scale) (by omega) 1 ?_
    rwa [Nat.cast_one, one_mul]
  refine ⟨hone, ?_⟩
  rw [hone, Nat.cast_one, sub_self, zero_add] at heq hreads
  have hle := hd.nearest 1 (by rwa [Nat.cast_one, one_mul])
  rw [Nat.cast_one, one_mul, heq, sub_self, abs_zero] at hle
  rw [heq]
  exact (sub_eq_zero.mp (abs_nonpos_iff.mp hle)).symm

/-- What reads back is at most half a unit of the last bit away. -/
theorem Whole.abs_sub_le_half {q : ℚ} (h : x.Whole n) (hq : x.IsNearest q) :
    |x.magnitude - q| ≤ 2 ^ (x.exponent - 1) := by
  have hquarter := two_zpow_pos (x.exponent - 2)
  -- The low end is two quarters away, or one below a power of two.
  have hlow : (4 * x.mantissa - 2 : ℚ) ≤ x.interval.low := by
    have hle : 4 * x.mantissa ≤ x.interval.low + 2 := by
      rw [interval]
      simp only
      split_ifs <;> omega
    have hcast : ((4 * x.mantissa : ℕ) : ℚ) ≤ ((x.interval.low + 2 : ℕ) : ℚ) := Nat.cast_le.mpr hle
    push_cast at hcast
    linarith
  have hhigh : (x.interval.high : ℚ) = 4 * x.mantissa + 2 := by
    rw [interval]
    push_cast
    rfl
  have hvalue : x.magnitude = 4 * x.mantissa * 2 ^ (x.exponent - 2) := by
    rw [magnitude, two_zpow_eq_quarters x.exponent]
    ring
  have hinterval := (isNearest_iff h.wellFormed h.mantissa_ne_zero h.exponent_lt).mp hq
  have hlowEnd := hinterval.lowEnd_le
  have hhighEnd := hinterval.le_highEnd
  rw [lowEnd] at hlowEnd
  rw [highEnd, hhigh] at hhighEnd
  have hlowMul := mul_le_mul_of_nonneg_right hlow hquarter.le
  rw [half_eq_quarters, hvalue, abs_le]
  constructor <;> linarith

/-- Different points of a grid are at least its unit apart. -/
theorem ten_zpow_le_abs_sub {k l : ℕ} (hne : k ≠ l) (s : ℤ) :
    (10 : ℚ) ^ s ≤ |(k : ℚ) * 10 ^ s - l * 10 ^ s| := by
  have hone : 1 ≤ |(k : ℤ) - l| := Int.one_le_abs (by omega)
  rw [← sub_mul, abs_mul, abs_of_pos (ten_zpow_pos s)]
  exact le_mul_of_one_le_left (ten_zpow_pos s).le (by exact_mod_cast hone)

/-- A whole number has the factors two of its last bit. -/
theorem Whole.two_pow_dvd (h : x.Whole n) {j : ℕ} (hj : (j : ℤ) ≤ x.exponent) : 2 ^ j ∣ n := by
  obtain ⟨i, hi⟩ : ∃ i : ℕ, x.exponent = (j + i : ℕ) := ⟨(x.exponent - j).toNat, by omega⟩
  have hmagnitude := h.magnitude_eq
  rw [magnitude, hi, zpow_natCast, pow_add, mul_comm, mul_assoc] at hmagnitude
  exact ⟨2 ^ i * x.mantissa, by exact_mod_cast hmagnitude.symm⟩

/-- In the middle of two points of a grid that read back as a whole number, the number is on the
grid: the points are at most a unit of the last bit apart, so that the number has the factors two
of the grid. -/
theorem Whole.even_of_middle (h : x.Whole n) {j k l : ℕ} (hne : k ≠ l)
    (hk : x.IsNearest (k * 10 ^ (j : ℤ))) (hl : x.IsNearest (l * 10 ^ (j : ℤ)))
    (hmiddle : 2 * n = (k + l) * 10 ^ j) : Even (k + l) := by
  have hgap : (10 : ℚ) ^ (j : ℤ) ≤ 2 ^ x.exponent := by
    have hdistance := ten_zpow_le_abs_sub hne j
    have htriangle := abs_sub_le ((k : ℚ) * 10 ^ (j : ℤ)) x.magnitude (l * 10 ^ (j : ℤ))
    have hhalf := h.abs_sub_le_half hk
    have hhalf' := h.abs_sub_le_half hl
    rw [abs_sub_comm] at hhalf
    rw [two_zpow_eq x.exponent]
    linarith
  have hexponent : (j : ℤ) ≤ x.exponent := by
    refine (zpow_le_zpow_iff_right₀ (one_lt_two : (1 : ℚ) < 2)).mp (le_trans ?_ hgap)
    rw [zpow_natCast, zpow_natCast]
    exact pow_le_pow_left₀ (by norm_num) (by norm_num) j
  -- The grid is no coarser than a unit of the number, which therefore has all its factors two.
  obtain ⟨c, rfl⟩ := h.two_pow_dvd hexponent
  have hten : 10 ^ j = 2 ^ j * 5 ^ j := by rw [← Nat.mul_pow]
  have hfactors : 2 * c = (k + l) * 5 ^ j := by
    refine Nat.eq_of_mul_eq_mul_left (Nat.two_pow_pos j) ?_
    rw [← mul_assoc, mul_comm (2 ^ j) 2, mul_assoc, hmiddle, hten]
    ring
  have heven : Even ((k + l) * 5 ^ j) := hfactors ▸ even_two_mul c
  exact (Nat.even_mul.mp heven).resolve_right (Nat.not_even_iff_odd.mpr (Odd.pow (by decide)))

/-- No other point of its grid is as near to a whole number as the first hit. -/
theorem FirstHit.eq_of_abs_sub_eq {d : Decimal} (hd : x.FirstHit d) (h : x.Whole n) {k : ℕ}
    (hk : x.IsNearest (k * 10 ^ d.scale))
    (htie : |x.magnitude - d.value| = |x.magnitude - k * 10 ^ d.scale|) :
    k * 10 ^ d.scale = d.value := by
  obtain ⟨j, hj⟩ := Int.eq_ofNat_of_zero_le hd.scale_nonneg
  have hvalue : d.value = d.digits * 10 ^ (j : ℤ) := by rw [Decimal.value, hj]
  have hreads := hd.reads
  have hnearest := hd.nearest
  rw [hvalue] at hreads hnearest htie ⊢
  rw [hj] at hk hnearest htie ⊢
  by_contra hne
  have hmiddle : 2 * x.magnitude = d.digits * 10 ^ (j : ℤ) + k * 10 ^ (j : ℤ) := by
    rcases abs_eq_abs.mp htie with heq | heq
    · exact absurd (by linarith) hne
    · linarith
  have hsum : 2 * n = (d.digits + k) * 10 ^ j := by
    rw [h.magnitude_eq, zpow_natCast, ← add_mul] at hmiddle
    exact_mod_cast hmiddle
  have hpoints : d.digits ≠ k := fun heq => hne (by rw [heq])
  obtain ⟨c, hc⟩ := h.even_of_middle hpoints hreads hk hsum
  -- The number is nearer to itself than the first hit, which is another point.
  have hn : (n : ℚ) = c * 10 ^ (j : ℤ) := by
    rw [hc, ← two_mul, mul_assoc] at hsum
    rw [zpow_natCast]
    exact_mod_cast Nat.eq_of_mul_eq_mul_left two_pos hsum
  have hle := hnearest c (hn ▸ h.isNearest)
  rw [h.magnitude_eq, ← hn, sub_self, abs_zero] at hle
  have heq := sub_eq_zero.mp (abs_nonpos_iff.mp hle)
  rw [h.magnitude_eq] at hmiddle
  exact hne (by linarith)

/-- No decimal that reads back is shorter than the first hit, and another one that is as short
is farther away. -/
theorem FirstHit.length_le {d d' : Decimal} (hd : x.FirstHit d) (h : x.Whole n)
    (hd' : x.IsNearest d'.value) :
    d.length ≤ d'.length ∧ (d'.length = d.length →
      d'.value = d.value ∨ |x.magnitude - d.value| < |x.magnitude - d'.value|) := by
  have hscale : d'.scale ≤ d.scale := by
    by_contra hlt
    push Not at hlt
    exact hd.first d'.scale hlt d'.digits hd'
  -- A value below all of this length reads back only where the length is one, and then the
  -- first hit is the number itself.
  by_cases hlt : d'.value < 10 ^ ((d.length : ℤ) - 1 + d.scale)
  · obtain ⟨hone, hexact⟩ := hd.eq_of_lt h hd' hlt
    refine ⟨hone ▸ d'.length_pos, fun _ => ?_⟩
    by_cases heq : d'.value = d.value
    · exact .inl heq
    · refine .inr ?_
      rw [hexact, sub_self, abs_zero]
      exact abs_pos.mpr (sub_ne_zero.mpr fun h => heq (h.symm.trans hexact.symm))
  · push Not at hlt
    have hexponent := Decimal.lt_of_ten_zpow_lt
      (hlt.trans_lt (Decimal.value_bounds (h.digits_pos hd')).2)
    refine ⟨by omega, fun hlength => ?_⟩
    have hsame : d'.scale = d.scale := by omega
    have hpoint : d'.value = d'.digits * 10 ^ d.scale := by rw [Decimal.value, hsame]
    rw [hpoint] at hd' ⊢
    rcases (hd.nearest d'.digits hd').eq_or_lt with htie | hless
    · exact .inl (hd.eq_of_abs_sub_eq h hd' htie)
    · exact .inr hless

/-- The search gives the shortest decimal of a whole number. -/
theorem Whole.isShortest (h : x.Whole n) : x.IsShortest x.shortest := by
  have hhit := h.firstHit_shortest
  refine ⟨hhit.reads, fun d' hd' => (hhit.length_le h hd').1, fun d' hd' hlength => ?_,
    fun d' hd' hlength htie => ?_⟩
  · rcases (hhit.length_le h hd').2 hlength with heq | hless
    · rw [heq]
    · exact hless.le
  · rcases (hhit.length_le h hd').2 hlength with heq | hless
    · exact .inl heq
    · exact absurd htie hless.ne

theorem Whole.eq_shortest (h : x.Whole n) {d : Decimal} (hd : x.IsShortest d) :
    d = x.shortest := by
  have hhit := h.firstHit_shortest
  obtain ⟨hle, hsame⟩ := hhit.length_le h hd.reads
  have hlength : d.length = x.shortest.length := le_antisymm (hd.fewest _ hhit.reads) hle
  have hvalue : d.value = x.shortest.value := by
    refine (hsame hlength).resolve_right fun hless => ?_
    have hnearest := hd.nearest _ hhit.reads hlength.symm
    linarith
  have hscale := Decimal.scale_eq_of_value_eq (h.digits_pos hd.reads) (h.digits_pos hhit.reads)
    hvalue hlength
  have hdigits : d.digits = x.shortest.digits := by
    rw [Decimal.value, Decimal.value, hscale] at hvalue
    exact_mod_cast mul_right_cancel₀ (ten_zpow_pos _).ne' hvalue
  exact Decimal.ext hdigits hscale

end

end Binary64

end Mustache
