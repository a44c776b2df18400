import IndexAdvisor.Json.Double
import Mathlib.Algebra.Order.Field.Power
import Mathlib.Algebra.Order.Group.Int
import Mathlib.Algebra.Order.Ring.Rat
import Mathlib.Algebra.Ring.Parity
import Mathlib.Tactic.FieldSimp
import Mathlib.Tactic.GCongr
import Mathlib.Tactic.Linarith
import Mathlib.Tactic.NormNum
import Mathlib.Tactic.Positivity
import Mathlib.Tactic.Ring

/-!
# What numbers in double precision stand for

A number in double precision stands for a rational one. The number nearest to a rational one is
within half of its last place, so within a part in `2 ^ 53`, and it is that number itself where 53
bits are enough for it. This gives sums and quotients their values. Where a quotient of naturals
has an odd divisor it lies so far from every half that its error does not show in the nearest
natural number.
-/

set_option autoImplicit false

namespace IndexAdvisor.Json.Double

/-! ## Values -/

/-- The rational number that a number in double precision stands for. -/
def value (d : Double) : ℚ := d.significand * 2 ^ d.exponent

theorem significand_ne_zero {d : Double} (h : d.value ≠ 0) : d.significand ≠ 0 := by
  intro hzero
  rw [value, hzero, Nat.cast_zero, zero_mul] at h
  exact h rfl

theorem cast_shiftLeft (a n : Nat) : ((a <<< n : Nat) : ℚ) = a * 2 ^ n := by
  rw [Nat.shiftLeft_eq, Nat.cast_mul, Nat.cast_pow, Nat.cast_ofNat]

/-- A quotient is moved by a power of two through its numerator or through its denominator. -/
theorem cast_shiftLeft_div (a b : Nat) (z : ℤ) :
    ((a <<< (-z).toNat : Nat) : ℚ) / ((b <<< z.toNat : Nat) : ℚ) = a / b / 2 ^ z := by
  rw [cast_shiftLeft, cast_shiftLeft]
  rcases le_total 0 z with hz | hz
  · obtain ⟨n, rfl⟩ := Int.eq_ofNat_of_zero_le hz
    have hzero : (-(n : ℤ)).toNat = 0 := by omega
    simp [hzero, div_div]
  · obtain ⟨n, hn⟩ := Int.eq_ofNat_of_zero_le (Int.neg_nonneg_of_nonpos hz)
    obtain rfl : z = -(n : ℤ) := by omega
    have hzero : (-(n : ℤ)).toNat = 0 := by omega
    rw [hzero, neg_neg, Int.toNat_natCast, zpow_neg, zpow_natCast]
    field_simp

/-- Shifts compare a quotient with a power of two. -/
theorem shiftLeft_lt_iff (a : Nat) {b : Nat} (hb : b ≠ 0) (z : ℤ) :
    a <<< (-z).toNat < b <<< z.toNat ↔ (a : ℚ) / b < 2 ^ z := by
  have hpos : (0 : ℚ) < ((b <<< z.toNat : Nat) : ℚ) := by
    rw [cast_shiftLeft]
    positivity
  rw [← div_lt_one (by positivity : (0 : ℚ) < 2 ^ z), ← cast_shiftLeft_div, div_lt_one hpos]
  exact Nat.cast_lt.symm

theorem significand_div (c d : Double) :
    (c.significand : ℚ) / d.significand * 2 ^ (c.exponent - d.exponent) = c.value / d.value := by
  rw [value, value, zpow_sub₀ (by norm_num), mul_div_mul_comm]

/-! ## Rounding -/

/-- A rounded quotient is off by a half at most. -/
theorem abs_divideRounding_sub_le {a b : Nat} (hb : b ≠ 0) :
    |(divideRounding a b : ℚ) - a / b| ≤ 1 / 2 := by
  have hpos : (0 : ℚ) < b := by positivity
  have hdivision : (a : ℚ) = b * (a / b : Nat) + (a % b : Nat) := by
    exact_mod_cast (Nat.div_add_mod a b).symm
  have hquotient : (a : ℚ) / b = (a / b : Nat) + (a % b : Nat) / b := by
    field_simp
    exact hdivision
  have hmod : ((a % b : Nat) : ℚ) / b < 1 := by
    rw [div_lt_one hpos]
    exact_mod_cast Nat.mod_lt a (Nat.pos_of_ne_zero hb)
  have hnonneg : (0 : ℚ) ≤ ((a % b : Nat) : ℚ) / b := by positivity
  -- a quotient is rounded up where the rest is a half or more, and down where it is a half or less
  rw [hquotient, abs_le]
  simp only [divideRounding]
  split
  next hup =>
    have hhalf : 1 / 2 ≤ ((a % b : Nat) : ℚ) / b := by
      rw [div_le_div_iff₀ (by norm_num) hpos]
      exact_mod_cast (by omega : 1 * b ≤ a % b * 2)
    push_cast
    constructor <;> linarith
  next hdown =>
    have hhalf : ((a % b : Nat) : ℚ) / b ≤ 1 / 2 := by
      rw [div_le_div_iff₀ hpos (by norm_num)]
      exact_mod_cast (by omega : a % b * 2 ≤ 1 * b)
    constructor <;> linarith

/-- The power of two at or below `a / b`. -/
def binade (a b : Nat) : Int :=
  let scale : Int := (a.log2 : Int) - b.log2
  if a <<< (-scale).toNat < b <<< scale.toNat then scale - 1 else scale

theorem two_zpow_log2_le {n : Nat} (hn : n ≠ 0) : (2 : ℚ) ^ (n.log2 : ℤ) ≤ n := by
  rw [zpow_natCast]
  exact_mod_cast Nat.log2_self_le hn

theorem lt_two_zpow_log2 (n : Nat) : (n : ℚ) < 2 ^ ((n.log2 : ℤ) + 1) := by
  have h : n < 2 ^ (n.log2 + 1) := Nat.lt_log2_self
  exact_mod_cast h

theorem binade_bounds {a b : Nat} (ha : a ≠ 0) (hb : b ≠ 0) :
    (2 : ℚ) ^ binade a b ≤ a / b ∧ (a : ℚ) / b < 2 ^ (binade a b + 1) := by
  have hpos : (0 : ℚ) < b := by positivity
  -- the logarithms leave two binades, and the comparison of shifts tells which one it is
  have hlow : (2 : ℚ) ^ ((a.log2 : ℤ) - b.log2 - 1) ≤ a / b := by
    rw [le_div_iff₀ hpos]
    calc (2 : ℚ) ^ ((a.log2 : ℤ) - b.log2 - 1) * b
        ≤ 2 ^ ((a.log2 : ℤ) - b.log2 - 1) * 2 ^ ((b.log2 : ℤ) + 1) := by
          gcongr
          exact (lt_two_zpow_log2 b).le
      _ = 2 ^ (a.log2 : ℤ) := by
          rw [← zpow_add₀ (by norm_num)]
          congr 1
          omega
      _ ≤ a := two_zpow_log2_le ha
  have hhigh : (a : ℚ) / b < 2 ^ ((a.log2 : ℤ) - b.log2 + 1) := by
    rw [div_lt_iff₀ hpos]
    calc (a : ℚ) < 2 ^ ((a.log2 : ℤ) + 1) := lt_two_zpow_log2 a
      _ = 2 ^ ((a.log2 : ℤ) - b.log2 + 1) * 2 ^ (b.log2 : ℤ) := by
          rw [← zpow_add₀ (by norm_num)]
          congr 1
          omega
      _ ≤ 2 ^ ((a.log2 : ℤ) - b.log2 + 1) * b := by
          gcongr
          exact two_zpow_log2_le hb
  simp only [binade]
  split
  next hbelow =>
    refine ⟨hlow, ?_⟩
    rw [sub_add_cancel]
    exact (shiftLeft_lt_iff a hb _).mp hbelow
  next habove => exact ⟨not_lt.mp fun h => habove ((shiftLeft_lt_iff a hb _).mpr h), hhigh⟩

/-- The power of two that the last place of a rounded number counts, less `e`. -/
def lastPlace (a b : Nat) (e : Int) : Int := max (binade a b - 52) (leastExponent - e)

theorem value_nearest {a : Nat} (ha : a ≠ 0) (b : Nat) (e : Int) :
    (nearest a b e).value = (divideRounding (a <<< (-lastPlace a b e).toNat)
      (b <<< (lastPlace a b e).toNat) : ℚ) * 2 ^ (lastPlace a b e + e) := by
  have hdrop : max (((a.log2 : Int) - b.log2) -
      (if decide (a <<< (-((a.log2 : Int) - b.log2)).toNat < b <<< ((a.log2 : Int) - b.log2).toNat)
        then 53 else 52)) (leastExponent - e) = lastPlace a b e := by
    simp only [lastPlace, binade, decide_eq_true_eq]
    split <;> omega
  rw [nearest, if_neg ha]
  simp only [hdrop]
  split
  next hs =>
    rw [hs, value]
    push_cast
    rw [zpow_add_one₀ (by norm_num)]
    ring
  next => rfl

/-- The number is `x`, rounded to a multiple of its last place, the power of two that one unit of a
significand of 53 bits counts. -/
structure Rounds (d : Double) (x : ℚ) (place : Int) : Prop where
  low : 2 ^ 52 * 2 ^ place ≤ x
  multiple : ∃ s : Nat, d.value = s * 2 ^ place
  error : |d.value - x| ≤ 2 ^ place / 2

/-- **The nearest number** to a quotient that is not below the least one with 53 bits. -/
theorem exists_rounds_nearest {a b : Nat} {e : Int} (ha : a ≠ 0) (hb : b ≠ 0)
    (h : (2 : ℚ) ^ (-1022 : ℤ) ≤ a / b * 2 ^ e) :
    ∃ place, (nearest a b e).Rounds (a / b * 2 ^ e) place := by
  obtain ⟨hlow, hhigh⟩ := binade_bounds ha hb
  -- the quotient is not too small for 53 bits, so its last place lies 52 places below the first
  have hnormal : -1022 ≤ binade a b + e := by
    have hlt : (2 : ℚ) ^ (-1022 : ℤ) < 2 ^ (binade a b + 1 + e) := by
      rw [zpow_add₀ (by norm_num)]
      exact h.trans_lt (by gcongr)
    have := (zpow_lt_zpow_iff_right₀ (by norm_num : (1 : ℚ) < 2)).mp hlt
    omega
  have hplace : lastPlace a b e = binade a b - 52 := by
    rw [lastPlace, leastExponent]
    omega
  have hscale : (2 : ℚ) ^ binade a b = 2 ^ 52 * 2 ^ lastPlace a b e := by
    rw [hplace, ← zpow_natCast, ← zpow_add₀ (by norm_num)]
    congr 1
    omega
  refine ⟨lastPlace a b e + e, ?_, ⟨_, value_nearest ha b e⟩, ?_⟩
  · rw [zpow_add₀ (by norm_num), ← mul_assoc, ← hscale]
    gcongr
  · have hunit : b <<< (lastPlace a b e).toNat ≠ 0 := by
      rw [Nat.shiftLeft_eq]
      positivity
    have hs := abs_divideRounding_sub_le (a := a <<< (-lastPlace a b e).toNat) hunit
    rw [cast_shiftLeft_div] at hs
    have hpos : (0 : ℚ) < 2 ^ lastPlace a b e * 2 ^ e := by positivity
    rw [value_nearest ha, zpow_add₀ (by norm_num)]
    generalize (divideRounding _ _ : ℚ) = s at hs ⊢
    calc |s * (2 ^ lastPlace a b e * 2 ^ e) - a / b * 2 ^ e|
        = |(s - a / b / 2 ^ lastPlace a b e) * (2 ^ lastPlace a b e * 2 ^ e)| := by
          congr 1
          field_simp
      _ = |s - a / b / 2 ^ lastPlace a b e| * (2 ^ lastPlace a b e * 2 ^ e) := by
          rw [abs_mul, abs_of_pos hpos]
      _ ≤ 1 / 2 * (2 ^ lastPlace a b e * 2 ^ e) := by gcongr
      _ = 2 ^ lastPlace a b e * 2 ^ e / 2 := by ring

/-- The error is at most a part in `2 ^ 53`. -/
theorem Rounds.error_le {d : Double} {x : ℚ} {place : Int} (h : d.Rounds x place) :
    |d.value - x| ≤ x / 2 ^ 53 := by
  calc |d.value - x| ≤ 2 ^ place / 2 := h.error
    _ = 2 ^ 52 * 2 ^ place / 2 ^ 53 := by ring
    _ ≤ x / 2 ^ 53 := by
      gcongr
      exact h.low

/-- A number that 53 bits are enough for is not changed. -/
theorem Rounds.value_eq {d : Double} {n : Nat} {j place : Int}
    (h : d.Rounds (n * 2 ^ j) place) (hn : n < 2 ^ 53) : d.value = n * 2 ^ j := by
  have hplace : place ≤ j := by
    have hlt : (2 : ℚ) ^ (place + 52) < 2 ^ (j + 53) := by
      calc (2 : ℚ) ^ (place + 52) = 2 ^ 52 * 2 ^ place := by
            rw [zpow_add₀ (by norm_num), mul_comm]
            norm_num
        _ ≤ n * 2 ^ j := h.low
        _ < 2 ^ 53 * 2 ^ j := by
          gcongr
          exact_mod_cast hn
        _ = 2 ^ (j + 53) := by
          rw [zpow_add₀ (by norm_num), mul_comm]
          norm_num
    have := (zpow_lt_zpow_iff_right₀ (by norm_num : (1 : ℚ) < 2)).mp hlt
    omega
  obtain ⟨k, rfl⟩ := Int.le.dest hplace
  obtain ⟨s, hs⟩ := h.multiple
  have hx : (n : ℚ) * 2 ^ (place + (k : ℤ)) = ((n * 2 ^ k : Nat) : ℚ) * 2 ^ place := by
    rw [zpow_add₀ (by norm_num), zpow_natCast]
    push_cast
    ring
  have herror := h.error
  have hpos : (0 : ℚ) < 2 ^ place := by positivity
  rw [hx, hs, ← sub_mul, abs_mul, abs_of_pos hpos] at herror
  -- two multiples of the last place that are closer than one of it are the same
  have hclose : |(s : ℚ) - (n * 2 ^ k : Nat)| < 1 := by
    refine lt_of_mul_lt_mul_right ?_ hpos.le
    linarith
  have hint : |(s : ℤ) - (n * 2 ^ k : Nat)| < 1 := by exact_mod_cast hclose
  have heq : (s : ℤ) = (n * 2 ^ k : Nat) := sub_eq_zero.mp (Int.abs_lt_one_iff.mp hint)
  rw [hx, hs, Nat.cast_inj.mp heq]

theorem value_nearest_eq {a b n : Nat} {e j : Int} (hb : b ≠ 0)
    (hx : (a : ℚ) / b * 2 ^ e = n * 2 ^ j) (hn : n < 2 ^ 53) (hj : -1022 ≤ j) :
    (nearest a b e).value = n * 2 ^ j := by
  rcases Nat.eq_zero_or_pos n with rfl | hpos
  · have ha : a = 0 := by
      simpa [hb, zpow_ne_zero] using hx
    simp [ha, nearest, value]
  · have hlarge : (2 : ℚ) ^ (-1022 : ℤ) ≤ a / b * 2 ^ e := by
      have hone : (1 : ℚ) ≤ n := by exact_mod_cast hpos
      calc (2 : ℚ) ^ (-1022 : ℤ) ≤ 2 ^ j := zpow_le_zpow_right₀ (by norm_num) hj
        _ ≤ n * 2 ^ j := le_mul_of_one_le_left (by positivity) hone
        _ = a / b * 2 ^ e := hx.symm
    have ha : a ≠ 0 := by
      rintro rfl
      rw [Nat.cast_zero, zero_div, zero_mul] at hlarge
      exact absurd hlarge (not_le.mpr (by positivity))
    obtain ⟨place, h⟩ := exists_rounds_nearest ha hb hlarge
    rw [hx] at h
    exact h.value_eq hn

/-! ## Operations -/

theorem value_ofNat {n : Nat} (hn : n < 2 ^ 53) : (ofNat n).value = n := by
  have hx : (n : ℚ) / (1 : Nat) * 2 ^ (0 : Int) = n * 2 ^ (0 : Int) := by
    rw [Nat.cast_one, div_one]
  rw [ofNat, value_nearest_eq one_ne_zero hx hn (by norm_num), zpow_zero, mul_one]

/-- A number counts more units of a lower place. -/
theorem shifted_mul_two_zpow (d : Double) {e : Int} (he : e ≤ d.exponent) :
    ((d.significand <<< (d.exponent - e).toNat : Nat) : ℚ) * 2 ^ e = d.value := by
  rw [cast_shiftLeft, value, mul_assoc, ← zpow_natCast, ← zpow_add₀ (by norm_num)]
  congr 2
  omega

/-- A sum is exact if 53 bits are enough for it. -/
theorem value_plus {c d : Double} {n : Nat} {j : Int} (hsum : c.value + d.value = n * 2 ^ j)
    (hn : n < 2 ^ 53) (hj : -1022 ≤ j) : (c.plus d).value = n * 2 ^ j := by
  refine value_nearest_eq one_ne_zero ?_ hn hj
  rw [Nat.cast_one, div_one, Nat.cast_add, add_mul, shifted_mul_two_zpow c (min_le_left _ _),
    shifted_mul_two_zpow d (min_le_right _ _), hsum]

/-- A difference is exact if 53 bits are enough for it. -/
theorem value_minus {c d : Double} {n : Nat} {j : Int} (hdiff : c.value - d.value = n * 2 ^ j)
    (hn : n < 2 ^ 53) (hj : -1022 ≤ j) : (c.minus d).value = n * 2 ^ j := by
  have hc := shifted_mul_two_zpow c (min_le_left c.exponent d.exponent)
  have hd := shifted_mul_two_zpow d (min_le_right c.exponent d.exponent)
  have hle : d.value ≤ c.value := by
    rw [← sub_nonneg, hdiff]
    positivity
  refine value_nearest_eq one_ne_zero ?_ hn hj
  rw [Nat.cast_one, div_one, Nat.cast_sub, sub_mul, hc, hd, hdiff]
  rw [← hc, ← hd] at hle
  exact_mod_cast le_of_mul_le_mul_right hle (by positivity)

/-- A product is exact if 53 bits are enough for it. -/
theorem value_times {c d : Double} {n : Nat} {j : Int} (hproduct : c.value * d.value = n * 2 ^ j)
    (hn : n < 2 ^ 53) (hj : -1022 ≤ j) : (c.times d).value = n * 2 ^ j := by
  refine value_nearest_eq one_ne_zero ?_ hn hj
  rw [Nat.cast_one, div_one, ← hproduct, value, value, Nat.cast_mul, zpow_add₀ (by norm_num)]
  ring

/-- A quotient is exact if 53 bits are enough for it. -/
theorem value_quotient {c d : Double} {n : Nat} {j : Int} (hd : d.value ≠ 0)
    (hx : c.value / d.value = n * 2 ^ j) (hn : n < 2 ^ 53) (hj : -1022 ≤ j) :
    (c.quotient d).value = n * 2 ^ j :=
  value_nearest_eq (significand_ne_zero hd) ((significand_div c d).trans hx) hn hj

/-- Any other quotient is rounded once. -/
theorem exists_rounds_quotient {c d : Double} (hc : c.value ≠ 0) (hd : d.value ≠ 0)
    (h : (2 : ℚ) ^ (-1022 : ℤ) ≤ c.value / d.value) :
    ∃ place, (c.quotient d).Rounds (c.value / d.value) place := by
  rw [← significand_div] at h ⊢
  exact exists_rounds_nearest (significand_ne_zero hc) (significand_ne_zero hd) h

/-! ## Rounding to a natural number -/

theorem round_bounds (d : Double) :
    (d.round : ℚ) - 1 / 2 ≤ d.value ∧ d.value < d.round + 1 / 2 := by
  have hvalue := cast_shiftLeft_div d.significand 1 (-d.exponent)
  rw [neg_neg, Nat.cast_one, div_one, zpow_neg, div_inv_eq_mul] at hvalue
  have hunit : 0 < 1 <<< (-d.exponent).toNat := by
    rw [Nat.shiftLeft_eq]
    positivity
  rw [round, value, ← hvalue]
  generalize d.significand <<< d.exponent.toNat = a at *
  generalize 1 <<< (-d.exponent).toNat = b at *
  have hlow := Nat.div_mul_le_self (2 * a + b) (2 * b)
  have hhigh := Nat.lt_div_mul_add (a := 2 * a + b) (b := 2 * b) (by omega)
  generalize (2 * a + b) / (2 * b) = n at *
  have hb : (0 : ℚ) < b := by exact_mod_cast hunit
  have hlow' : (n : ℚ) * (2 * b) ≤ 2 * a + b := by exact_mod_cast hlow
  have hhigh' : (2 * a + b : ℚ) < n * (2 * b) + 2 * b := by exact_mod_cast hhigh
  rw [le_div_iff₀ hb, div_lt_iff₀ hb]
  constructor <;> linarith

theorem round_eq {d : Double} {n : Nat} (h : d.value = n) : d.round = n := by
  obtain ⟨hlow, hhigh⟩ := d.round_bounds
  rw [h] at hlow hhigh
  have hlow' : ((2 * d.round : Nat) : ℚ) < (2 * n + 2 : Nat) := by
    push_cast
    linarith
  have hhigh' : ((2 * n : Nat) : ℚ) < (2 * d.round + 1 : Nat) := by
    push_cast
    linarith
  rw [Nat.cast_lt] at hlow' hhigh'
  omega

/-- An even number is not an even number and an odd one together. -/
theorem two_mul_lt_of_odd {m u w : Nat} (hw : Odd w) (h : 2 * m < 2 * u + w + 1) :
    2 * m < 2 * u + w := by
  obtain ⟨k, rfl⟩ := hw
  omega

/-- **No tie and no harm**: a quotient by an odd number that has been rounded to double precision
rounds to the natural number that is nearest to the quotient itself. -/
theorem abs_round_sub_lt {d : Double} {u w : Nat} (hw : Odd w) (hu : u < 2 ^ 52)
    (h : |d.value - u / w| ≤ u / w / 2 ^ 53) : |(d.round : ℚ) - u / w| < 1 / 2 := by
  obtain ⟨hlow, hhigh⟩ := d.round_bounds
  have hpos : (0 : ℚ) < w := by exact_mod_cast hw.pos
  have herror : |d.value * w - u| < 1 / 2 := by
    calc |d.value * w - u| = |(d.value - u / w) * w| := by
          rw [sub_mul, div_mul_cancel₀ _ hpos.ne']
      _ = |d.value - u / w| * w := by rw [abs_mul, abs_of_pos hpos]
      _ ≤ u / w / 2 ^ 53 * w := by gcongr
      _ = u / 2 ^ 53 := by field_simp
      _ < 1 / 2 := by
          rw [div_lt_div_iff₀ (by norm_num) (by norm_num)]
          exact_mod_cast (by omega : u * 2 < 1 * 2 ^ 53)
  obtain ⟨hover, hunder⟩ := abs_lt.mp herror
  have hlow' : (d.round - 1 / 2 : ℚ) * w ≤ d.value * w := by gcongr
  have hhigh' : d.value * w < (d.round + 1 / 2 : ℚ) * w := by gcongr
  have habove : ((2 * (d.round * w) : Nat) : ℚ) < (2 * u + w + 1 : Nat) := by
    push_cast
    linarith
  have hbelow : ((2 * u : Nat) : ℚ) < (2 * (d.round * w) + w + 1 : Nat) := by
    push_cast
    linarith
  rw [Nat.cast_lt] at habove hbelow
  -- the bounds are a place too wide for the natural numbers in them, but for their parity
  have habove' : ((2 * (d.round * w) : Nat) : ℚ) < (2 * u + w : Nat) :=
    Nat.cast_lt.mpr (two_mul_lt_of_odd hw habove)
  have hbelow' : ((2 * u : Nat) : ℚ) < (2 * (d.round * w) + w : Nat) :=
    Nat.cast_lt.mpr (two_mul_lt_of_odd hw hbelow)
  push_cast at habove' hbelow'
  have hscaled : ((d.round : ℚ) - u / w) * w = d.round * w - u := by
    rw [sub_mul, div_mul_cancel₀ _ hpos.ne']
  rw [abs_lt]
  constructor
  · refine lt_of_mul_lt_mul_right ?_ hpos.le
    linarith
  · refine lt_of_mul_lt_mul_right ?_ hpos.le
    linarith

end IndexAdvisor.Json.Double
