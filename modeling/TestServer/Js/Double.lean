import Mathlib.Data.Int.Log
import Mathlib.Data.Rat.Floor
import Mathlib.Tactic.Linarith
import Mathlib.Tactic.NormNum

/-!
# Numbers

The numbers of JavaScript that a text can stand for, and the rounding of a
rational number to one of them: to the nearest, and to the even one of two.
-/

namespace TestServer.Js

inductive JsNumber where
  | finite (value : ℚ)
  | infinite (negative : Bool)
deriving DecidableEq

def roundHalfEven (q : ℚ) : ℤ :=
  if q - ⌊q⌋ < 1 / 2 then ⌊q⌋
  else if 1 / 2 < q - ⌊q⌋ then ⌊q⌋ + 1
  else if ⌊q⌋ % 2 = 0 then ⌊q⌋ else ⌊q⌋ + 1

/-- The number of 53 binary digits that is nearest. -/
def toDouble (q : ℚ) : JsNumber :=
  let exponent := max (-1074) (Int.log 2 |q| - 52)
  let value := roundHalfEven (q / 2 ^ exponent) * (2 : ℚ) ^ exponent
  if |value| < 2 ^ 1024 then .finite value else .infinite (decide (q < 0))

theorem roundHalfEven_intCast (n : ℤ) : roundHalfEven n = n := by
  rw [roundHalfEven, Int.floor_intCast, sub_self, if_pos (by norm_num)]

theorem log_abs_lt {n : ℤ} (h : |n| < 2 ^ 53) : Int.log 2 |(n : ℚ)| < 53 := by
  by_cases hn : n = 0
  · subst hn
    simp
  · have hpos : (0 : ℚ) < |(n : ℚ)| := abs_pos.mpr (Int.cast_ne_zero.mpr hn)
    rw [← Int.lt_zpow_iff_log_lt (by norm_num) hpos]
    calc |(n : ℚ)| = ((|n| : ℤ) : ℚ) := Int.cast_abs.symm
      _ < ((2 ^ 53 : ℤ) : ℚ) := Int.cast_lt.mpr h
      _ = ((2 : ℕ) : ℚ) ^ (53 : ℤ) := by norm_num

/-- An integer of 53 binary digits is not rounded. -/
theorem toDouble_intCast {n : ℤ} (h : |n| < 2 ^ 53) : toDouble n = .finite n := by
  have hlog : Int.log 2 |(n : ℚ)| < 53 := log_abs_lt h
  obtain ⟨k, hk⟩ : ∃ k : ℕ, max (-1074) (Int.log 2 |(n : ℚ)| - 52) = -(k : ℤ) := by
    refine ⟨(-(max (-1074) (Int.log 2 |(n : ℚ)| - 52))).toNat, ?_⟩
    omega
  have hscaled : (n : ℚ) / 2 ^ (-(k : ℤ)) = ((n * 2 ^ k : ℤ) : ℚ) := by
    rw [zpow_neg, div_inv_eq_mul, zpow_natCast]
    push_cast
    rfl
  have hvalue : ((n * 2 ^ k : ℤ) : ℚ) * (2 : ℚ) ^ (-(k : ℤ)) = n := by
    rw [zpow_neg, zpow_natCast]
    push_cast
    exact mul_inv_cancel_right₀ (pow_ne_zero k two_ne_zero) (n : ℚ)
  have hbound : |(n : ℚ)| < 2 ^ 1024 := by
    calc |(n : ℚ)| = ((|n| : ℤ) : ℚ) := Int.cast_abs.symm
      _ < ((2 ^ 53 : ℤ) : ℚ) := Int.cast_lt.mpr h
      _ = 2 ^ 53 := by push_cast; rfl
      _ ≤ 2 ^ 1024 := pow_le_pow_right₀ one_le_two (by norm_num)
  simp only [toDouble, hk, hscaled, roundHalfEven_intCast, hvalue, if_pos hbound]

theorem floor_le_roundHalfEven (q : ℚ) : ⌊q⌋ ≤ roundHalfEven q := by
  rw [roundHalfEven]
  split_ifs <;> omega

theorem roundHalfEven_le_floor (q : ℚ) : roundHalfEven q ≤ ⌊q⌋ + 1 := by
  rw [roundHalfEven]
  split_ifs <;> omega

/-- A large integer stays large. -/
theorem le_of_toDouble {n : ℤ} {q : ℚ} (hn : 2 ^ 53 ≤ n) (h : toDouble n = .finite q) :
    2 ^ 53 ≤ q := by
  have hcast : (2 : ℚ) ^ (53 : ℤ) ≤ |(n : ℚ)| := by
    rw [abs_of_nonneg (Int.cast_nonneg (by omega))]
    exact_mod_cast hn
  have hpos : (0 : ℚ) < |(n : ℚ)| := lt_of_lt_of_le (by norm_num) hcast
  have hlog : 53 ≤ Int.log 2 |(n : ℚ)| := (Int.zpow_le_iff_le_log (by norm_num) hpos).mp hcast
  simp only [toDouble] at h
  split_ifs at h with hbound
  rw [max_eq_right (by omega)] at h
  have hexponent : (2 : ℚ) ^ (1 : ℤ) ≤ 2 ^ (Int.log 2 |(n : ℚ)| - 52) :=
    zpow_le_zpow_right₀ one_le_two (by omega)
  have hscaled : ((2 ^ 52 : ℤ) : ℚ) ≤ n / 2 ^ (Int.log 2 |(n : ℚ)| - 52) := by
    rw [le_div_iff₀ (by positivity)]
    calc ((2 ^ 52 : ℤ) : ℚ) * 2 ^ (Int.log 2 |(n : ℚ)| - 52)
        = 2 ^ Int.log 2 |(n : ℚ)| := by
          rw [zpow_sub₀ two_ne_zero]
          norm_num
          ring
      _ ≤ |(n : ℚ)| := Int.zpow_log_le_self (by norm_num) hpos
      _ = n := abs_of_nonneg (Int.cast_nonneg (by omega))
  have hround : ((2 ^ 52 : ℤ) : ℚ) ≤
      roundHalfEven (n / 2 ^ (Int.log 2 |(n : ℚ)| - 52)) :=
    Int.cast_le.mpr (le_trans (Int.le_floor.mpr hscaled) (floor_le_roundHalfEven _))
  rw [← JsNumber.finite.inj h]
  calc (2 : ℚ) ^ 53 = ((2 ^ 52 : ℤ) : ℚ) * 2 ^ (1 : ℤ) := by norm_num
    _ ≤ _ := mul_le_mul hround hexponent (by norm_num) (le_trans (by norm_num) hround)

/-- A negative integer does not become positive. -/
theorem toDouble_nonpos {n : ℤ} {q : ℚ} (hn : n < 0) (h : toDouble n = .finite q) : q ≤ 0 := by
  simp only [toDouble] at h
  split_ifs at h with hbound
  rw [← JsNumber.finite.inj h]
  have hscaled : (n : ℚ) / 2 ^ max (-1074) (Int.log 2 |(n : ℚ)| - 52) < 0 :=
    div_neg_of_neg_of_pos (Int.cast_lt_zero.mpr hn) (zpow_pos two_pos _)
  have hround : roundHalfEven (n / 2 ^ max (-1074) (Int.log 2 |(n : ℚ)| - 52)) ≤ 0 :=
    le_trans (roundHalfEven_le_floor _) (Int.floor_lt.mpr (by simpa using hscaled))
  exact mul_nonpos_of_nonpos_of_nonneg (Int.cast_nonpos.mpr hround) (zpow_pos two_pos _).le

end TestServer.Js
