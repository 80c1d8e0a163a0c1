import Mathlib.Tactic.Linarith
import TrickCFS.OsTasks

/-! The priorities of the threads keep the order of the OSAL priorities. The two ends
are kept for the two ends, and the levels between them are spread evenly. -/

namespace TrickCFS.Proofs.TaskPriorities

/-- How many levels above the lowest inner one an OSAL priority comes that is so far
above the lowest inner one itself, with so many steps between the inner levels. -/
def level (steps above : Nat) : Nat := (above * steps + 127) / 253

variable {steps above : Nat}

theorem level_mono {higher : Nat} (le : above ≤ higher) : level steps above ≤ level steps higher :=
  Nat.div_le_div_right (Nat.add_le_add_right (Nat.mul_le_mul_right steps le) 127)

theorem level_top : level steps 253 = steps := by
  rw [level, Nat.mul_add_div (by decide), Nat.div_eq_of_lt (by decide), Nat.add_zero]

theorem level_near : 253 * level steps above ≤ above * steps + 127 ∧ above * steps < 253 * level steps above + 126 := by
  have parts := Nat.div_add_mod (above * steps + 127) 253
  have small := Nat.mod_lt (above * steps + 127) (show 0 < 253 by decide)
  rw [level]
  omega

theorem level_succ_le (few : steps ≤ 253) : level steps (above + 1) ≤ level steps above + 1 := by
  have next : (above + 1) * steps + 127 ≤ above * steps + 127 + 253 := by
    rw [Nat.succ_mul]
    omega
  calc
    level steps (above + 1) ≤ (above * steps + 127 + 253) / 253 := Nat.div_le_div_right next
    _ = level steps above + 1 := Nat.add_div_right _ (by decide)

theorem exists_level (few : steps ≤ 253) {inner : Nat} (inside : inner ≤ steps) :
    ∃ above ≤ 253, level steps above = inner := by
  have reached : ∃ above, inner ≤ level steps above := ⟨253, by rw [level_top]; exact inside⟩
  have least := Nat.find_spec reached
  have bound : Nat.find reached ≤ 253 := Nat.find_min' reached (by rw [level_top]; exact inside)
  refine ⟨Nat.find reached, bound, Nat.le_antisymm ?_ least⟩
  cases first : Nat.find reached with
  | zero => simp [level]
  | succ before =>
    have short : ¬ inner ≤ level steps before := Nat.find_min reached (by rw [first]; exact Nat.lt_succ_self before)
    have step := @level_succ_le steps before few
    omega

variable {limits : PriLimits}

theorem priorityRemap_inner (spread : limits.priorityMin + 2 ≤ limits.priorityMax) {inputPri : Nat}
    (positive : 0 < inputPri) (below : inputPri < 255) :
    priorityRemap limits inputPri = limits.priorityMin + 1 +
      level (limits.priorityMax - limits.priorityMin - 2).toNat (254 - inputPri) := by
  obtain ⟨steps, exact⟩ := Int.eq_ofNat_of_zero_le (show 0 ≤ limits.priorityMax - limits.priorityMin - 2 by omega)
  obtain ⟨above, upside⟩ : ∃ above : Nat, ((osMaxTaskPriority : Int) - 1) - inputPri = above :=
    ⟨254 - inputPri, by simp only [osMaxTaskPriority]; omega⟩
  have same : 254 - inputPri = above := by
    simp only [osMaxTaskPriority] at upside
    omega
  simp only [priorityRemap]
  rw [if_neg (by omega), if_neg (by simp only [osMaxTaskPriority]; omega), upside, exact, same, Int.toNat_natCast,
    Int.tdiv_eq_ediv_of_nonneg (by positivity)]
  simp only [osMaxTaskPriority, level]
  push_cast
  omega

theorem priorityRemap_top : priorityRemap limits 0 = limits.priorityMax := if_pos rfl

theorem priorityRemap_bottom {inputPri : Nat} (low : 255 ≤ inputPri) :
    priorityRemap limits inputPri = limits.priorityMin := by
  rw [priorityRemap, if_neg (by omega), if_pos (show inputPri ≥ osMaxTaskPriority from low)]

theorem priorityRemap_between (spread : limits.priorityMin + 2 ≤ limits.priorityMax) {inputPri : Nat}
    (positive : 0 < inputPri) (below : inputPri < 255) :
    limits.priorityMin < priorityRemap limits inputPri ∧ priorityRemap limits inputPri < limits.priorityMax := by
  have most : level (limits.priorityMax - limits.priorityMin - 2).toNat (254 - inputPri) ≤
      (limits.priorityMax - limits.priorityMin - 2).toNat :=
    (level_mono (show 254 - inputPri ≤ 253 by omega)).trans (le_of_eq level_top)
  rw [priorityRemap_inner spread positive below]
  omega

theorem priorityRemap_antitone (spread : limits.priorityMin + 2 ≤ limits.priorityMax) {first second : Nat}
    (le : first ≤ second) : priorityRemap limits second ≤ priorityRemap limits first := by
  rcases Nat.eq_zero_or_pos first with rfl | positive
  · rcases Nat.eq_zero_or_pos second with rfl | secondPositive
    · exact le_refl _
    · rw [priorityRemap_top]
      rcases Nat.lt_or_ge second 255 with below | low
      · exact le_of_lt (priorityRemap_between spread secondPositive below).2
      · rw [priorityRemap_bottom low]
        omega
  · rcases Nat.lt_or_ge second 255 with below | low
    · rw [priorityRemap_inner spread positive (by omega), priorityRemap_inner spread (by omega) below]
      have order : 254 - second ≤ 254 - first := by omega
      have levels := @level_mono (limits.priorityMax - limits.priorityMin - 2).toNat _ _ order
      omega
    · rw [priorityRemap_bottom low]
      rcases Nat.lt_or_ge first 255 with inner | alsoLow
      · exact le_of_lt (priorityRemap_between spread positive inner).1
      · rw [priorityRemap_bottom alsoLow]

theorem priorityRemap_onto (spread : limits.priorityMin + 2 ≤ limits.priorityMax)
    (few : limits.priorityMax - limits.priorityMin ≤ 255) {pri : Int} (low : limits.priorityMin ≤ pri)
    (high : pri ≤ limits.priorityMax) : ∃ inputPri ≤ 255, priorityRemap limits inputPri = pri := by
  rcases lt_or_ge limits.priorityMin pri with above | bottom
  · rcases lt_or_ge pri limits.priorityMax with below | top
    · have inside : (pri - limits.priorityMin - 1).toNat ≤ (limits.priorityMax - limits.priorityMin - 2).toNat := by
        omega
      obtain ⟨up, bound, found⟩ := exists_level (by omega) inside
      refine ⟨254 - up, by omega, ?_⟩
      rw [priorityRemap_inner spread (by omega) (by omega), show 254 - (254 - up) = up by omega, found]
      omega
    · exact ⟨0, by decide, by rw [priorityRemap_top]; omega⟩
  · exact ⟨255, le_refl _, by rw [priorityRemap_bottom (le_refl _)]; omega⟩

/-- The limits are `int`s, and so close that their distance can be multiplied by 253. -/
structure Representable (limits : PriLimits) : Prop where
  low : -2147483648 ≤ limits.priorityMin
  high : limits.priorityMax ≤ 2147483647
  near : limits.priorityMax - limits.priorityMin ≤ 8488079

theorem asInt_of_bounds {value : Int} (low : -2147483648 ≤ value) (high : value ≤ 2147483647) : asInt value = some value :=
  if_pos ⟨low, high⟩

private theorem product_bounds (spread : limits.priorityMin + 2 ≤ limits.priorityMax)
    (representable : Representable limits) {inputPri : Nat} (positive : 0 < inputPri) (below : inputPri < 255) :
    0 ≤ ((osMaxTaskPriority : Int) - 1 - inputPri) * (limits.priorityMax - limits.priorityMin - 2) ∧
      ((osMaxTaskPriority : Int) - 1 - inputPri) * (limits.priorityMax - limits.priorityMin - 2) ≤ 253 * 8488077 := by
  have near := representable.near
  simp only [osMaxTaskPriority]
  constructor
  · exact mul_nonneg (by omega) (by omega)
  · exact mul_le_mul (by omega) (by omega) (by omega) (by omega)

theorem priorityRemapInt_eq (spread : limits.priorityMin + 2 ≤ limits.priorityMax)
    (representable : Representable limits) (inputPri : Nat) :
    priorityRemapInt limits inputPri = some (priorityRemap limits inputPri) := by
  rcases Nat.eq_zero_or_pos inputPri with rfl | positive
  · rfl
  rcases Nat.lt_or_ge inputPri 255 with below | bottom
  · obtain ⟨low, high, near⟩ := representable
    obtain ⟨nonneg, bounded⟩ := product_bounds spread ⟨low, high, near⟩ positive below
    have inner := priorityRemap_between spread positive below
    have short : ¬ inputPri ≥ osMaxTaskPriority := Nat.not_le_of_lt below
    simp only [priorityRemap, if_neg (Nat.ne_of_gt positive), if_neg short] at inner
    simp only [priorityRemapInt, priorityRemap, if_neg (Nat.ne_of_gt positive), if_neg short, Option.bind_eq_bind]
    have upside : asInt ((osMaxTaskPriority : Int) - 1 - inputPri) = some ((osMaxTaskPriority : Int) - 1 - inputPri) := by
      simp only [osMaxTaskPriority]
      exact asInt_of_bounds (by omega) (by omega)
    have apart := asInt_of_bounds (show -2147483648 ≤ limits.priorityMax - limits.priorityMin by omega) (by omega)
    have steps := asInt_of_bounds (show -2147483648 ≤ limits.priorityMax - limits.priorityMin - 2 by omega) (by omega)
    have lowest := asInt_of_bounds (show -2147483648 ≤ limits.priorityMin + 1 by omega) (by omega)
    rw [upside, Option.bind_some, apart, Option.bind_some, steps, Option.bind_some]
    generalize ((osMaxTaskPriority : Int) - 1 - inputPri) * (limits.priorityMax - limits.priorityMin - 2) = product at *
    simp only [osMaxTaskPriority] at inner ⊢
    have product_fits := asInt_of_bounds (show -2147483648 ≤ product by omega) (by omega)
    have rounded := asInt_of_bounds (show -2147483648 ≤ product + ((255 / 2 : Nat) : Int) by omega) (by omega)
    have divided : (product + ((255 / 2 : Nat) : Int)).tdiv (((255 : Nat) : Int) - 2) =
        (product + ((255 / 2 : Nat) : Int)) / (((255 : Nat) : Int) - 2) := Int.tdiv_eq_ediv_of_nonneg (by omega)
    rw [divided] at inner
    rw [product_fits, Option.bind_some, rounded, Option.bind_some, divided, asInt_of_bounds (by omega) (by omega),
      Option.bind_some, lowest, Option.bind_some]
    exact asInt_of_bounds (by omega) (by omega)
  · rw [priorityRemap_bottom bottom, priorityRemapInt, if_neg (by omega),
      if_pos (show inputPri ≥ osMaxTaskPriority from bottom)]

/-- The remapped priorities: higher OSAL priorities never become lower ones, the two
limits are for the two ends alone, the others are spread evenly to within about half a
level, and every level is used where there are few of them. Nothing overflows on the
way to them. -/
theorem priorities_spread (limits : PriLimits) (spread : limits.priorityMin + 2 ≤ limits.priorityMax) :
    (∀ first second, first ≤ second → priorityRemap limits second ≤ priorityRemap limits first) ∧
      (∀ inputPri, (priorityRemap limits inputPri = limits.priorityMax ↔ inputPri = 0) ∧
        (priorityRemap limits inputPri = limits.priorityMin ↔ 255 ≤ inputPri)) ∧
      (∀ inputPri, 0 < inputPri → inputPri < 255 →
        |253 * (priorityRemap limits inputPri - (limits.priorityMin + 1)) -
          (254 - inputPri) * (limits.priorityMax - limits.priorityMin - 2)| ≤ 127) ∧
      (limits.priorityMax - limits.priorityMin ≤ 255 → ∀ pri, limits.priorityMin ≤ pri → pri ≤ limits.priorityMax →
        ∃ inputPri ≤ 255, priorityRemap limits inputPri = pri) ∧
      (Representable limits → ∀ inputPri, priorityRemapInt limits inputPri = some (priorityRemap limits inputPri)) := by
  refine ⟨fun _ _ le => priorityRemap_antitone spread le, fun inputPri => ?_, fun inputPri positive below => ?_,
    fun few _ low high => priorityRemap_onto spread few low high, priorityRemapInt_eq spread⟩
  · rcases Nat.eq_zero_or_pos inputPri with rfl | positive
    · rw [priorityRemap_top]
      refine ⟨iff_of_true rfl rfl, iff_of_false (by omega) (by decide)⟩
    · rcases Nat.lt_or_ge inputPri 255 with below | low
      · obtain ⟨above, under⟩ := priorityRemap_between spread positive below
        refine ⟨iff_of_false (by omega) (by omega), iff_of_false (by omega) (by omega)⟩
      · rw [priorityRemap_bottom low]
        refine ⟨iff_of_false (by omega) (by omega), iff_of_true rfl low⟩
  · obtain ⟨steps, exact⟩ := Int.eq_ofNat_of_zero_le (show 0 ≤ limits.priorityMax - limits.priorityMin - 2 by omega)
    obtain ⟨low, high⟩ := @level_near steps (254 - inputPri)
    rw [priorityRemap_inner spread positive below, exact, Int.toNat_natCast]
    have upside : (254 : Int) - inputPri = (254 - inputPri : Nat) := by omega
    rw [upside, abs_le]
    zify at low high
    constructor <;> linarith

/-- The levels of a real-time scheduler with priorities from 1 to 99. -/
theorem priorities_spread_real_time :
    let limits : PriLimits := { priorityMax := 99, priorityMin := 1 }
    |253 * (priorityRemap limits 100 - 2) - (254 - 100) * 96| ≤ 127 ∧
      (∃ inputPri ≤ 255, priorityRemap limits inputPri = 50) ∧
      priorityRemapInt limits 100 = some (priorityRemap limits 100) := by
  intro limits
  obtain ⟨_, _, near, onto, exactly⟩ := priorities_spread limits (by decide)
  refine ⟨near 100 (by decide) (by decide), onto (by decide) 50 (by decide) (by decide), exactly ?_ 100⟩
  exact ⟨by decide, by decide, by decide⟩

end TrickCFS.Proofs.TaskPriorities
