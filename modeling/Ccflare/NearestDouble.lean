import Ccflare.MachineNumber
import Mathlib.Algebra.Order.Field.Power
import Mathlib.Algebra.Order.Ring.Int
import Mathlib.Tactic.FieldSimp
import Mathlib.Tactic.Positivity
import Mathlib.Tactic.Ring

/-!
How far a double is from the number it stands for. A quotient of integers below 2^53 is on the
same side of every integer as its nearest double, so rounding it up gives the exact ceiling.
-/

namespace Ccflare.NearestDouble

open MachineNumber

theorem power_of_two_eq (exponent : Int) : powerOfTwo exponent = (2 : Rat) ^ exponent := by
  unfold powerOfTwo
  split
  · next natural =>
      lift exponent to Nat using natural
      simp
  · next negative =>
      obtain ⟨n, rfl⟩ := Int.exists_eq_neg_ofNat (by omega : exponent ≤ 0)
      simp

theorem power_of_two_pos (exponent : Int) : 0 < powerOfTwo exponent := by
  rw [power_of_two_eq]
  positivity

theorem round_half_even_error (value : Rat) : |(roundHalfEven value : Rat) - value| ≤ 1 / 2 := by
  have below : (value.floor : Rat) ≤ value := Rat.floor_le value
  have above : value < value.floor + 1 := by exact_mod_cast Rat.lt_floor_add_one value
  have parity : value.floor % 2 = 0 ∨ value.floor % 2 = 1 := by omega
  unfold roundHalfEven
  simp only
  split
  · rw [abs_le]
    constructor <;> linarith
  · split
    · push_cast
      rw [abs_le]
      constructor <;> linarith
    · rcases parity with even | odd
      · rw [even, abs_le]
        push_cast
        constructor <;> linarith
      · rw [odd, abs_le]
        push_cast
        constructor <;> linarith

theorem round_half_even_int (value : Int) : roundHalfEven value = value := by
  simp [roundHalfEven]

theorem nearest_zero : nearestF64 0 = 0 := by
  have none : roundHalfEven 0 = 0 := by simpa using round_half_even_int 0
  simp [nearestF64, none]

theorem leading_exponent_le (value : Rat) (nonzero : value ≠ 0) :
    powerOfTwo (leadingExponent value) ≤ |value| := by
  unfold leadingExponent
  simp only
  split
  · next fits => exact fits
  · have numerator : (2 : Rat) ^ Nat.log2 value.num.natAbs ≤ value.num.natAbs := by
      exact_mod_cast Nat.log2_self_le (by simpa using nonzero)
    have denominator : (value.den : Rat) < 2 ^ (Nat.log2 value.den + 1) := by
      exact_mod_cast Nat.lt_log2_self
    have positive : (0 : Rat) < value.den := by exact_mod_cast value.den_pos
    have split : |value| = value.num.natAbs / value.den := by
      conv_lhs => rw [← Rat.num_div_den value]
      rw [abs_div, Nat.abs_cast, Nat.cast_natAbs, Int.cast_abs]
    rw [power_of_two_eq, split, le_div_iff₀ positive]
    calc (2 : Rat) ^ ((Nat.log2 value.num.natAbs : Int) - Nat.log2 value.den - 1) * value.den
        ≤ 2 ^ ((Nat.log2 value.num.natAbs : Int) - Nat.log2 value.den - 1) *
            2 ^ (Nat.log2 value.den + 1) := by gcongr
      _ = 2 ^ Nat.log2 value.num.natAbs := by
          rw [← zpow_natCast, ← zpow_add₀ two_ne_zero, ← zpow_natCast]
          congr 1
          push_cast
          omega
      _ ≤ value.num.natAbs := numerator

/-- The error of a double is at most a 2^53rd of the number. -/
theorem nearest_error (value : Rat) : |nearestF64 value - value| ≤ |value| / 2 ^ 53 := by
  by_cases zero : value = 0
  · subst value
    simp [nearest_zero]
  · have positive := power_of_two_pos (leadingExponent value - 52)
    have scaled := round_half_even_error (value / powerOfTwo (leadingExponent value - 52))
    have leading := leading_exponent_le value zero
    have unit : powerOfTwo (leadingExponent value - 52) =
        powerOfTwo (leadingExponent value) / 2 ^ 52 := by
      rw [power_of_two_eq, power_of_two_eq, zpow_sub₀ two_ne_zero]
      norm_cast
    have error : |nearestF64 value - value| ≤ powerOfTwo (leadingExponent value - 52) / 2 := by
      have factored : nearestF64 value - value =
          ((roundHalfEven (value / powerOfTwo (leadingExponent value - 52)) : Rat) -
            value / powerOfTwo (leadingExponent value - 52)) *
            powerOfTwo (leadingExponent value - 52) := by
        simp only [nearestF64]
        field_simp
      rw [factored, abs_mul, abs_of_pos positive]
      nlinarith
    rw [unit] at error
    calc |nearestF64 value - value| ≤ powerOfTwo (leadingExponent value) / 2 ^ 52 / 2 := error
      _ ≤ |value| / 2 ^ 52 / 2 := by gcongr
      _ = |value| / 2 ^ 53 := by ring

theorem nearest_pos_iff (value : Rat) : 0 < nearestF64 value ↔ 0 < value := by
  obtain ⟨below, above⟩ := abs_le.mp (nearest_error value)
  rcases le_total value 0 with negative | positive
  · rw [abs_of_nonpos negative] at above
    constructor <;> intro holds <;> linarith
  · rw [abs_of_nonneg positive] at below above
    constructor <;> intro holds <;> linarith

theorem leading_exponent_dyadic (value : Int) (shift : Nat) (nonzero : value ≠ 0)
    (small : value.natAbs < 2 ^ 53) :
    leadingExponent ((value : Rat) / 2 ^ shift) - 52 ≤ -shift := by
  have leading := leading_exponent_le ((value : Rat) / 2 ^ shift) (by positivity)
  have bound : |(value : Rat) / 2 ^ shift| < 2 ^ (53 - shift : Int) := by
    have : |(value : Rat)| = value.natAbs := by rw [Nat.cast_natAbs, Int.cast_abs]
    rw [abs_div, this, abs_of_pos (by positivity : (0 : Rat) < 2 ^ shift), zpow_sub₀ two_ne_zero,
      zpow_natCast]
    gcongr
    exact_mod_cast small
  rw [power_of_two_eq] at leading
  have := (zpow_lt_zpow_iff_right₀ (by norm_num : (1 : Rat) < 2)).mp (leading.trans_lt bound)
  omega

/-- A fraction of at most 53 bits over a power of two is a double itself. -/
theorem nearest_dyadic (value : Int) (shift : Nat) (small : value.natAbs < 2 ^ 53) :
    nearestF64 ((value : Rat) / 2 ^ shift) = (value : Rat) / 2 ^ shift := by
  by_cases zero : value = 0
  · subst value
    simp [nearest_zero]
  · obtain ⟨more, same⟩ := Int.exists_eq_neg_ofNat
      (by have := leading_exponent_dyadic value shift zero small; omega :
        leadingExponent ((value : Rat) / 2 ^ shift) - 52 + shift ≤ 0)
    have inverse : powerOfTwo (leadingExponent ((value : Rat) / 2 ^ shift) - 52) =
        1 / 2 ^ shift / 2 ^ more := by
      rw [power_of_two_eq, show leadingExponent ((value : Rat) / 2 ^ shift) - 52 =
        -(shift : Int) + -(more : Int) by omega, zpow_add₀ two_ne_zero]
      simp [div_eq_mul_inv]
    have whole : (value : Rat) / 2 ^ shift /
        powerOfTwo (leadingExponent ((value : Rat) / 2 ^ shift) - 52) =
        ((value * 2 ^ more : Int) : Rat) := by
      rw [inverse]
      push_cast
      field_simp
    rw [nearestF64, whole, round_half_even_int, inverse]
    push_cast
    field_simp

/-- An integer of at most 53 bits is a double itself. -/
theorem nearest_int (value : Int) (small : value.natAbs < 2 ^ 53) :
    nearestF64 value = value := by
  simpa using nearest_dyadic value 0 small

theorem round_to_f64_small (value : Int) (small : value.natAbs < 2 ^ 53) :
    roundToF64 value = value := by
  have unit : Nat.log2 value.natAbs - 52 = 0 := by
    by_cases zero : value.natAbs = 0
    · simp [zero]
    · have := (Nat.log2_lt zero).mpr small
      omega
  have exact : roundToGrid 1 value.natAbs = value.natAbs := by
    simp [roundToGrid, Nat.mod_one]
  unfold roundToF64
  simp only [unit, pow_zero, exact]
  split <;> omega

section Quotient
variable (dividend divisor : Int)

/-- A quotient that is not an integer is at least a divisor's part away from one. -/
theorem quotient_apart (bound : Int) (positive : 0 < divisor)
    (apart : (dividend : Rat) / divisor ≠ bound) :
    1 / (divisor : Rat) ≤ |(dividend : Rat) / divisor - bound| := by
  have divisorPos : (0 : Rat) < divisor := by exact_mod_cast positive
  have different : dividend - bound * divisor ≠ 0 := by
    intro same
    apply apart
    rw [div_eq_iff divisorPos.ne']
    exact_mod_cast (sub_eq_zero.mp same)
  have whole : (1 : Rat) ≤ |((dividend - bound * divisor : Int) : Rat)| := by
    exact_mod_cast Int.one_le_abs different
  have shared : (dividend : Rat) / divisor - bound =
      ((dividend - bound * divisor : Int) : Rat) / divisor := by
    push_cast
    field_simp
  rw [shared, abs_div, abs_of_pos divisorPos]
  gcongr

theorem quotient_error (positive : 0 < divisor) (small : dividend.natAbs < 2 ^ 53) :
    |nearestF64 ((dividend : Rat) / divisor) - (dividend : Rat) / divisor| < 1 / divisor := by
  have divisorPos : (0 : Rat) < divisor := by exact_mod_cast positive
  have bound : |(dividend : Rat)| < 2 ^ 53 := by
    have : |(dividend : Rat)| = dividend.natAbs := by rw [Nat.cast_natAbs, Int.cast_abs]
    rw [this]
    exact_mod_cast small
  calc |nearestF64 ((dividend : Rat) / divisor) - (dividend : Rat) / divisor|
      ≤ |(dividend : Rat) / divisor| / 2 ^ 53 := nearest_error _
    _ = |(dividend : Rat)| / 2 ^ 53 / divisor := by
        rw [abs_div, abs_of_pos divisorPos]
        ring
    _ < 1 / divisor := by
        gcongr
        rw [div_lt_one (by positivity)]
        exact bound

theorem nearest_quotient_le_iff (bound : Int) (positive : 0 < divisor)
    (small : dividend.natAbs < 2 ^ 53) :
    nearestF64 ((dividend : Rat) / divisor) ≤ bound ↔ (dividend : Rat) / divisor ≤ bound := by
  by_cases same : (dividend : Rat) / divisor = bound
  · have divides : dividend = bound * divisor := by
      have divisorPos : (0 : Rat) < divisor := by exact_mod_cast positive
      rw [div_eq_iff divisorPos.ne'] at same
      exact_mod_cast same
    have smaller : bound.natAbs < 2 ^ 53 := by
      refine lt_of_le_of_lt ?_ small
      rw [divides, Int.natAbs_mul]
      exact Nat.le_mul_of_pos_right _ (by omega)
    rw [same, nearest_int bound smaller]
  · have apart := quotient_apart dividend divisor bound positive same
    have near := quotient_error dividend divisor positive small
    rw [abs_lt] at near
    rcases lt_or_gt_of_ne same with below | above
    · rw [abs_of_neg (by linarith)] at apart
      exact ⟨fun _ => below.le, fun _ => by linarith [near.2]⟩
    · rw [abs_of_pos (by linarith)] at apart
      exact ⟨fun least => by linarith [near.1], fun least => by linarith⟩

theorem ceil_nearest_quotient (positive : 0 < divisor) (small : dividend.natAbs < 2 ^ 53) :
    (nearestF64 ((dividend : Rat) / divisor)).ceil = ((dividend : Rat) / divisor).ceil := by
  apply le_antisymm
  · rw [Rat.ceil_le_iff, nearest_quotient_le_iff dividend divisor _ positive small]
    exact Rat.le_ceil
  · rw [Rat.ceil_le_iff, ← nearest_quotient_le_iff dividend divisor _ positive small]
    exact Rat.le_ceil

end Quotient

end Ccflare.NearestDouble
