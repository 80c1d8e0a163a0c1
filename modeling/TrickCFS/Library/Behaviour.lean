import Mathlib.Data.Nat.Init
import TrickCFS.Library.Machine

/-! Infinite behaviours of a machine, for what must happen. A rank that never
rises, and that falls whenever a wait ends, bounds how many waits there are; an
event that is scheduled fairly ends the wait for it. -/

universe u v

namespace Machine
variable {σ : Type u} {ε : Type v}

structure Behaviour (machine : Machine σ ε) where
  state : Nat → σ
  event : Nat → ε
  start : state 0 = machine.initial
  taken : ∀ time, machine.step (state time) (event time) = some (state (time + 1))

namespace Behaviour
variable {machine : Machine σ ε} (behaviour : machine.Behaviour)

theorem always (inv : σ → Prop) (start : inv machine.initial)
    (kept : ∀ time, inv (behaviour.state time) → inv (behaviour.state (time + 1))) (time : Nat) :
    inv (behaviour.state time) := by
  induction time with
  | zero => exact behaviour.start ▸ start
  | succ time ih => exact kept time ih

theorem rank_le (rank : σ → Nat)
    (falls : ∀ time, rank (behaviour.state (time + 1)) ≤ rank (behaviour.state time))
    {early late : Nat} (order : early ≤ late) :
    rank (behaviour.state late) ≤ rank (behaviour.state early) := by
  induction late, order using Nat.le_induction with
  | base => exact Nat.le_refl _
  | succ late _ ih => exact Nat.le_trans (falls late) ih

theorem exists_change {α : Type v} (part : σ → α) {early late : Nat} (order : early ≤ late)
    (different : part (behaviour.state late) ≠ part (behaviour.state early)) :
    ∃ time, early ≤ time ∧ part (behaviour.state (time + 1)) ≠ part (behaviour.state time) := by
  induction late, order using Nat.le_induction with
  | base => exact False.elim (different rfl)
  | succ late order ih =>
    by_cases same : part (behaviour.state late) = part (behaviour.state early)
    · exact ⟨late, order, fun unchanged => different (unchanged.trans same)⟩
    · exact ih same

theorem eventually (rank : σ → Nat) (goal : σ → Prop)
    (progress : ∀ time, ¬ goal (behaviour.state time) → ∃ later,
      goal (behaviour.state later) ∨ rank (behaviour.state later) < rank (behaviour.state time)) :
    ∃ time, goal (behaviour.state time) := by
  have reached : ∀ bound time, rank (behaviour.state time) = bound → ∃ time, goal (behaviour.state time) := by
    intro bound
    induction bound using Nat.strongRecOn with
    | ind bound ih =>
      intro time measured
      by_cases done : goal (behaviour.state time)
      · exact ⟨time, done⟩
      · obtain ⟨later, found | lower⟩ := progress time done
        · exact ⟨later, found⟩
        · exact ih _ (measured ▸ lower) later rfl
  exact reached _ 0 rfl

/-- An event that stays enabled is taken in the end. -/
def WeaklyFair (helpful : ε → Prop) : Prop :=
  ∀ time, (∀ later, time ≤ later → ∃ event, helpful event ∧ (machine.step (behaviour.state later) event).isSome) →
    ∃ later, time ≤ later ∧ helpful (behaviour.event later)

theorem fair_of_disabled {helpful : ε → Prop}
    (disabled : ∀ state event, helpful event → machine.step state event = none) : behaviour.WeaklyFair helpful := by
  intro time enabled
  obtain ⟨event, helps, some⟩ := enabled time (Nat.le_refl time)
  rw [disabled _ event helps] at some
  cases some

theorem persists (good : σ → Prop) {time : Nat} (now : good (behaviour.state time))
    (kept : ∀ later, time ≤ later → good (behaviour.state later) → good (behaviour.state (later + 1)))
    {later : Nat} (order : time ≤ later) : good (behaviour.state later) := by
  induction later, order using Nat.le_induction with
  | base => exact now
  | succ later order ih => exact kept later order ih

theorem exists_exit (good : σ → Prop) {early late : Nat} (order : early ≤ late) (now : good (behaviour.state early))
    (gone : ¬ good (behaviour.state late)) :
    ∃ time, early ≤ time ∧ good (behaviour.state time) ∧ ¬ good (behaviour.state (time + 1)) := by
  induction late, order using Nat.le_induction with
  | base => exact absurd now gone
  | succ late order ih =>
    by_cases still : good (behaviour.state late)
    · exact ⟨late, order, still, gone⟩
    · exact ih still

theorem meets (helpful : ε → Prop) (good : σ → Prop) {time : Nat} (now : good (behaviour.state time))
    (kept : ∀ later, time ≤ later → good (behaviour.state later) → ¬ helpful (behaviour.event later) →
      good (behaviour.state (later + 1)))
    (comes : ∃ later, time ≤ later ∧ (helpful (behaviour.event later) ∨ ¬ good (behaviour.state later))) :
    ∃ later, time ≤ later ∧ good (behaviour.state later) ∧ helpful (behaviour.event later) := by
  obtain ⟨late, order, arrived⟩ := comes
  by_cases still : good (behaviour.state late)
  · exact ⟨late, order, still, arrived.resolve_right (not_not_intro still)⟩
  · obtain ⟨later, within, holds, ended⟩ := behaviour.exists_exit good order now still
    exact ⟨later, within, holds, Classical.byContradiction (fun away => ended (kept later within holds away))⟩

theorem ensures {helpful : ε → Prop} (fair : behaviour.WeaklyFair helpful) (good : σ → Prop) {time : Nat}
    (now : good (behaviour.state time))
    (enabled : ∀ later, time ≤ later → good (behaviour.state later) →
      ∃ event, helpful event ∧ (machine.step (behaviour.state later) event).isSome)
    (kept : ∀ later, time ≤ later → good (behaviour.state later) → ¬ helpful (behaviour.event later) →
      good (behaviour.state (later + 1))) :
    ∃ later, time ≤ later ∧ good (behaviour.state later) ∧ helpful (behaviour.event later) := by
  apply behaviour.meets helpful good now kept
  by_cases always : ∀ later, time ≤ later → good (behaviour.state later)
  · obtain ⟨later, order, helps⟩ := fair time (fun later order => enabled later order (always later order))
    exact ⟨later, order, Or.inl helps⟩
  · obtain ⟨later, order, gone⟩ : ∃ later, time ≤ later ∧ ¬ good (behaviour.state later) := by
      simpa only [not_forall, exists_prop] using always
    exact ⟨later, order, Or.inr gone⟩

def LeadsTo (before after : σ → Prop) : Prop :=
  ∀ time, before (behaviour.state time) → ∃ later, time ≤ later ∧ after (behaviour.state later)

namespace LeadsTo
variable {behaviour} {before middle after : σ → Prop}

theorem trans (first : behaviour.LeadsTo before middle) (second : behaviour.LeadsTo middle after) :
    behaviour.LeadsTo before after := by
  intro time now
  obtain ⟨later, order, reached⟩ := first time now
  obtain ⟨last, beyond, final⟩ := second later reached
  exact ⟨last, Nat.le_trans order beyond, final⟩

theorem of_rank (rank : σ → Nat)
    (falls : ∀ bound, behaviour.LeadsTo (fun state => before state ∧ rank state = bound)
      (fun state => after state ∨ before state ∧ rank state < bound)) :
    behaviour.LeadsTo before after := by
  have reached : ∀ bound time, before (behaviour.state time) → rank (behaviour.state time) = bound →
      ∃ later, time ≤ later ∧ after (behaviour.state later) := by
    intro bound
    induction bound using Nat.strongRecOn with
    | ind bound ih =>
      intro time now measured
      obtain ⟨later, order, done | ⟨still, lower⟩⟩ := falls bound time ⟨now, measured⟩
      · exact ⟨later, order, done⟩
      · obtain ⟨last, beyond, done⟩ := ih _ lower later still rfl
        exact ⟨last, Nat.le_trans order beyond, done⟩
  exact fun time now => reached _ time now rfl

end LeadsTo
end Behaviour
end Machine
