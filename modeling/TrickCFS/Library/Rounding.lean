import Mathlib.Data.Rat.Floor
import Mathlib.Tactic.Linarith

/-! The conversion of a rational number to an integer that drops the fraction,
and the rounding that adds a half before it. -/

namespace Rounding

def truncate (value : ℚ) : Int := value.num.tdiv value.den

theorem truncate_eq_floor {value : ℚ} (nonneg : 0 ≤ value) : truncate value = ⌊value⌋ := by
  rw [truncate, Rat.floor_def', Int.tdiv_eq_ediv_of_nonneg (Rat.num_nonneg.mpr nonneg)]

/-- To the nearest integer, halves up. -/
def halfUp (value : ℚ) : Int := truncate (value + 1 / 2)

variable {value : ℚ}

theorem halfUp_eq_floor (nonneg : 0 ≤ value) : halfUp value = ⌊value + 1 / 2⌋ := by
  apply truncate_eq_floor
  linarith

theorem halfUp_nonneg (nonneg : 0 ≤ value) : 0 ≤ halfUp value := by
  rw [halfUp_eq_floor nonneg]
  apply Int.floor_nonneg.mpr
  linarith

theorem halfUp_le (nonneg : 0 ≤ value) : (halfUp value : ℚ) ≤ value + 1 / 2 := by
  rw [halfUp_eq_floor nonneg]
  apply Int.floor_le

theorem lt_halfUp (nonneg : 0 ≤ value) : value - 1 / 2 < halfUp value := by
  rw [halfUp_eq_floor nonneg]
  have below := Int.lt_floor_add_one (value + 1 / 2)
  linarith

theorem halfUp_lt_iff (nonneg : 0 ≤ value) (bound : Int) : halfUp value < bound ↔ value + 1 / 2 < bound := by
  rw [halfUp_eq_floor nonneg]
  apply Int.floor_lt

end Rounding
