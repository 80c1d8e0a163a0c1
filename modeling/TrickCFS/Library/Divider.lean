import Mathlib.Data.Nat.Factorization.Basic

/-! A counter that divides a clock: each tick increments it, and a counter that
has reached the rate is reset and fires. From zero it fires at the multiples of
its rate and at no other tick. -/

namespace Divider

def fires (rate count : Nat) : Bool := decide (rate ≤ count + 1)

def tick (rate count : Nat) : Nat := if fires rate count then 0 else count + 1

theorem tick_mod {rate : Nat} (positive : 0 < rate) (ticks : Nat) :
    tick rate (ticks % rate) = (ticks + 1) % rate := by
  have below := Nat.mod_lt ticks positive
  have shape : ticks + 1 = rate * (ticks / rate) + (ticks % rate + 1) := by
    rw [← Nat.add_assoc, Nat.div_add_mod]
  simp only [tick, fires, decide_eq_true_eq]
  split
  next due =>
    have full : ticks % rate + 1 = rate := by omega
    rw [shape, full, Nat.mul_add_mod, Nat.mod_self]
  next early =>
    have less : ticks % rate + 1 < rate := by omega
    rw [shape, Nat.mul_add_mod, Nat.mod_eq_of_lt less]

theorem fires_mod {rate : Nat} (positive : 0 < rate) (ticks : Nat) :
    fires rate (ticks % rate) = true ↔ rate ∣ ticks + 1 := by
  rw [Nat.dvd_iff_mod_eq_zero, ← tick_mod positive, tick]
  split <;> simp_all

theorem countP_multiples (rate ticks : Nat) :
    (List.range ticks).countP (fun tick => rate ∣ tick + 1) = ticks / rate := by
  rw [← Nat.card_multiples ticks rate, List.countP_eq_length_filter]
  rfl

end Divider
