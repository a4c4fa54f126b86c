import Mathlib.Data.Rat.Floor
import Mathlib.Data.Int.Log
import Mathlib.Algebra.Order.Field.Rat
import Mathlib.Tactic.Linarith
import Mathlib.Tactic.FieldSimp

/-!
Rounding of exact rationals.

`roundHalfEven` rounds to the nearest integer, a tie to the even one, and
`roundTo unit` to the nearest multiple of a unit. Printing a number with a fixed
count of decimals and storing it with a fixed count of binary digits are both
`roundTo` for a suitable unit. A rounded number is off by at most half a unit
(`abs_roundTo_sub_le`), and multiples of the unit are left alone
(`roundTo_mul_intCast`), so the numbers that survive are exactly the multiples
(`roundTo_eq_self_iff`).
-/

namespace Rounding

/-- The nearest integer; halfway between two, the even one. -/
def roundHalfEven (q : ℚ) : ℤ :=
  if q - ⌊q⌋ < 1 / 2 then ⌊q⌋
  else if 1 / 2 < q - ⌊q⌋ then ⌊q⌋ + 1
  else if ⌊q⌋ % 2 = 0 then ⌊q⌋ else ⌊q⌋ + 1

/-- The nearest multiple of the unit. -/
def roundTo (unit q : ℚ) : ℚ := roundHalfEven (q / unit) * unit

/-- The nearest number with `digits` significant binary digits whose last digit
is worth at least `2 ^ least`. -/
def roundToBinary (digits : Nat) (least : ℤ) (q : ℚ) : ℚ :=
  roundTo (2 ^ max (Int.log 2 |q| - (digits - 1 : ℤ)) least) q

theorem abs_roundHalfEven_sub_le (q : ℚ) : |(roundHalfEven q : ℚ) - q| ≤ 1 / 2 := by
  have hle : (⌊q⌋ : ℚ) ≤ q := Int.floor_le q
  have hlt : q < ⌊q⌋ + 1 := Int.lt_floor_add_one q
  rw [abs_le]
  unfold roundHalfEven
  split
  · constructor <;> linarith
  · split
    · push_cast
      constructor <;> linarith
    · split
      · constructor <;> linarith
      · push_cast
        constructor <;> linarith

theorem roundHalfEven_nonneg {q : ℚ} (hq : 0 ≤ q) : 0 ≤ roundHalfEven q := by
  have hfloor : 0 ≤ ⌊q⌋ := Int.floor_nonneg.mpr hq
  unfold roundHalfEven
  split_ifs <;> omega

@[simp] theorem roundHalfEven_intCast (n : ℤ) : roundHalfEven (n : ℚ) = n := by
  simp [roundHalfEven]

/-- Rounding moves a number by at most half a unit. -/
theorem abs_roundTo_sub_le {unit : ℚ} (hunit : 0 < unit) (q : ℚ) :
    |roundTo unit q - q| ≤ unit / 2 := by
  have hfactor : roundTo unit q - q = (roundHalfEven (q / unit) - q / unit) * unit := by
    rw [roundTo, sub_mul, div_mul_cancel₀ q hunit.ne']
  rw [hfactor, abs_mul, abs_of_pos hunit]
  have := mul_le_mul_of_nonneg_right (abs_roundHalfEven_sub_le (q / unit)) hunit.le
  linarith

theorem roundTo_mul_intCast {unit : ℚ} (hunit : unit ≠ 0) (n : ℤ) :
    roundTo unit (n * unit) = n * unit := by
  rw [roundTo, mul_div_cancel_right₀ _ hunit, roundHalfEven_intCast]

/-- The numbers that rounding keeps are the multiples of the unit. -/
theorem roundTo_eq_self_iff {unit : ℚ} (hunit : unit ≠ 0) {q : ℚ} :
    roundTo unit q = q ↔ ∃ n : ℤ, q = n * unit := by
  constructor
  · intro h
    exact ⟨roundHalfEven (q / unit), h.symm⟩
  · rintro ⟨n, rfl⟩
    exact roundTo_mul_intCast hunit n

/-- An integer of at most `digits` binary digits is stored exactly. -/
theorem roundToBinary_intCast {digits : Nat} (hdigits : 0 < digits) {least : ℤ}
    (hleast : least ≤ 0) {n : ℤ} (hn : |n| < 2 ^ digits) : roundToBinary digits least (n : ℚ) = n := by
  rw [roundToBinary]
  set e := max (Int.log 2 |(n : ℚ)| - (digits - 1 : ℤ)) least with he
  have hne : ((2 : ℚ) ^ e) ≠ 0 := zpow_ne_zero _ two_ne_zero
  have he0 : e ≤ 0 := by
    refine max_le ?_ hleast
    rcases eq_or_ne n 0 with rfl | hn0
    · simp only [Int.cast_zero, abs_zero, Int.log_zero_right]
      omega
    · have hpos : (0 : ℚ) < |(n : ℚ)| := abs_pos.mpr (by exact_mod_cast hn0)
      have hlow : ((2 : ℕ) : ℚ) ^ Int.log 2 |(n : ℚ)| ≤ |(n : ℚ)| :=
        Int.zpow_log_le_self (by norm_num) hpos
      have hup : |(n : ℚ)| < (2 : ℚ) ^ (digits : ℤ) := by
        rw [zpow_natCast]; exact_mod_cast hn
      have hlt : (2 : ℚ) ^ Int.log 2 |(n : ℚ)| < (2 : ℚ) ^ (digits : ℤ) := by
        exact lt_of_le_of_lt (by exact_mod_cast hlow) hup
      have := (zpow_lt_zpow_iff_right₀ (by norm_num : (1 : ℚ) < 2)).mp hlt
      omega
  -- the unit is `2 ^ -k`, so an integer is a whole number of units
  obtain ⟨k, hk⟩ := Int.exists_eq_neg_ofNat he0
  rw [roundTo_eq_self_iff hne]
  refine ⟨n * 2 ^ k, ?_⟩
  rw [hk]
  push_cast
  rw [zpow_neg, zpow_natCast, mul_assoc, mul_inv_cancel₀ (pow_ne_zero _ two_ne_zero), mul_one]

end Rounding
