import Mathlib.Data.Int.Log
import Mathlib.Data.Rat.Floor
import Mathlib.Tactic.Linarith
import Mathlib.Tactic.NormNum
import Mathlib.Tactic.Positivity

/-! Rounding to 53 significant bits: to the nearest number of the format, and from
the middle between two of them to the even one. The exponent has no bounds here,
so the results are those of the format wherever it neither overflows nor becomes
subnormal. -/

namespace Binary64

/-- To the nearest integer, halves to the even one. -/
def nearestEven (value : ℚ) : Int :=
  let below := ⌊value⌋
  if value - below < 1 / 2 ∨ value - below = 1 / 2 ∧ below % 2 = 0 then below else below + 1

def ulp (value : ℚ) : ℚ := 2 ^ (Int.log 2 |value| - 52)

def round (value : ℚ) : ℚ := nearestEven (value / ulp value) * ulp value

theorem nearestEven_error (value : ℚ) : |(nearestEven value : ℚ) - value| ≤ 1 / 2 := by
  have below := Int.floor_le value
  have above := Int.lt_floor_add_one value
  simp only [nearestEven]
  split
  next down =>
    rw [abs_le]
    rcases down with less | ⟨half, _⟩ <;> constructor <;> linarith
  next up =>
    obtain ⟨least, _⟩ := not_or.mp up
    push_cast
    rw [abs_le]
    constructor <;> linarith

@[simp] theorem nearestEven_intCast (value : Int) : nearestEven value = value := by
  simp [nearestEven]

theorem ulp_pos (value : ℚ) : 0 < ulp value := zpow_pos (by norm_num) _

theorem ulp_le {value : ℚ} (nonzero : value ≠ 0) : ulp value * 2 ^ 52 ≤ |value| := by
  have least := Int.zpow_log_le_self (b := 2) (by norm_num) (abs_pos.mpr nonzero)
  have shape : ulp value * 2 ^ 52 = ((2 : Nat) : ℚ) ^ Int.log 2 |value| := by
    rw [ulp, ← zpow_natCast, ← zpow_add₀ (by norm_num)]
    norm_num
  rwa [shape]

theorem round_error (value : ℚ) : |round value - value| ≤ |value| / 2 ^ 53 := by
  by_cases nonzero : value = 0
  · simp [nonzero, round, nearestEven]
  · have positive := ulp_pos value
    have scaled : round value - value =
        (nearestEven (value / ulp value) - value / ulp value) * ulp value := by
      rw [round, sub_mul, div_mul_cancel₀ _ positive.ne']
    have half := mul_le_mul_of_nonneg_right (nearestEven_error (value / ulp value)) positive.le
    have small := ulp_le nonzero
    rw [scaled, abs_mul, abs_of_pos positive]
    linarith

theorem round_nonneg {value : ℚ} (nonneg : 0 ≤ value) : 0 ≤ round value := by
  have error := (abs_le.mp (round_error value)).1
  rw [abs_of_nonneg nonneg] at error
  linarith

theorem round_exact {significand : Int} (bounded : |significand| < 2 ^ 53) (exponent : Int) :
    round (significand * 2 ^ exponent) = significand * 2 ^ exponent := by
  by_cases nonzero : significand = 0
  · simp [nonzero, round, nearestEven]
  · have positive : (0 : ℚ) < 2 ^ exponent := zpow_pos (by norm_num) _
    have magnitude : 0 < |(significand : ℚ) * 2 ^ exponent| :=
      abs_pos.mpr (mul_ne_zero (by exact_mod_cast nonzero) positive.ne')
    have below : |(significand : ℚ) * 2 ^ exponent| < ((2 : Nat) : ℚ) ^ (53 + exponent) := by
      have less : |(significand : ℚ)| < 2 ^ 53 := by exact_mod_cast bounded
      rw [abs_mul, abs_of_pos positive, Nat.cast_ofNat, zpow_add₀ (by norm_num)]
      exact mul_lt_mul_of_pos_right less positive
    have order := (Int.lt_zpow_iff_log_lt (by norm_num) magnitude).mp below
    -- The number is a whole multiple of its own unit in the last place.
    obtain ⟨shift, same⟩ := Int.le.dest (show Int.log 2 |(significand : ℚ) * 2 ^ exponent| - 52 ≤ exponent by omega)
    have whole : (significand : ℚ) * 2 ^ exponent / ulp (significand * 2 ^ exponent) =
        ((significand * 2 ^ shift : Int) : ℚ) := by
      rw [div_eq_iff (ulp_pos _).ne', ulp, Int.cast_mul, Int.cast_pow, mul_assoc, Int.cast_ofNat, ← zpow_natCast,
        ← zpow_add₀ (by norm_num), add_comm, same]
    rw [round, whole, nearestEven_intCast, ← whole, div_mul_cancel₀ _ (ulp_pos _).ne']

theorem round_natCast {value : Nat} (bounded : value < 2 ^ 53) : round value = value := by
  have whole : |(value : Int)| < 2 ^ 53 := by simpa using bounded
  simpa using round_exact whole 0

end Binary64
