import TrickCFS.TrickCFSScheduler

/-! The conversion of a time to its slot. The tic that is added rounds up to the
next slot, and the last slot of a second rolls over to slot zero. -/

namespace TrickCFS.Proofs.SlotTimes
open TrickCFSScheduler

variable {context : ScheduleContext}

private theorem rounded_up {period micros : Nat} (positive : 0 < period) :
    micros / period + (micros - micros / period * period + 1) / period = (micros + 1) / period := by
  have below := Nat.div_mul_le_self micros period
  have shape : micros + 1 = micros - micros / period * period + 1 + micros / period * period := by omega
  conv_rhs => rw [shape]
  rw [Nat.add_mul_div_right _ _ positive, Nat.add_comm]

theorem updateTimeTics_eq (positive : 0 < 1000000 / context.constants.totalSlots) (tics ticsPerSec : Nat)
    (scheduler : TrickCFSScheduler) :
    scheduler.updateTimeTics context tics ticsPerSec =
      (let slot := (tics % ticsPerSec + 1) / (1000000 / context.constants.totalSlots)
       if slot = context.constants.totalSlots then 0 else slot,
        { scheduler with simTimeSecs := tics / ticsPerSec, simTimeMicros := tics % ticsPerSec }) := by
  simp only [updateTimeTics, rounded_up positive]

def slotsOfOne (totalSlots : Nat) : ScheduleContext where
  constants :=
    { totalSlots
      entriesPerSlot := 1
      tableEntries := totalSlots
      tableEntries_eq := (Nat.mul_one totalSlots).symm
      maxMessages := 4
      unused := 0
      enabled := 1
      enabled_ne_unused := Nat.one_ne_zero
      disabled := 2
      activitySendMsg := 1 }
  base := ⟨0, false⟩
  bus := ⟨fun _ => [], fun _ => ⟨false, 0, 0⟩, fun _ => []⟩
  messageTable := id
  transmitMsg := fun _ sim => (0, sim)

def unusedTable : TrickCFSScheduler where
  scheduleTable := fun _ => ⟨0, 0, 0, 0, 0, 0⟩
  sim := ⟨{}, ⟨0, fun _ => 0, fun _ => ⟨true, 0⟩⟩, fun _ => {}⟩

/-- With a million tics per second, the slot and the second name the same slot
period exactly outside the last tic of a second. There the slot rolls over and
the second does not move. -/
theorem slot_and_second_agree_iff (context : ScheduleContext) (scheduler : TrickCFSScheduler) (tics : Nat)
    (divides : context.constants.totalSlots ∣ 1000000)
    (two : 2 ≤ 1000000 / context.constants.totalSlots) :
    let updated := scheduler.updateTimeTics context tics 1000000
    updated.2.simTimeSecs * context.constants.totalSlots + updated.1 =
        (tics + 1) / (1000000 / context.constants.totalSlots) ↔
      ¬ 1000000 ∣ tics + 1 := by
  have positive : 0 < 1000000 / context.constants.totalSlots := by omega
  simp only [updateTimeTics_eq positive]
  generalize context.constants.totalSlots = totalSlots at divides positive ⊢
  have whole : totalSlots * (1000000 / totalSlots) = 1000000 := Nat.mul_div_cancel' divides
  generalize 1000000 / totalSlots = period at positive whole ⊢
  have slots : 0 < totalSlots := Nat.pos_of_ne_zero (by rintro rfl; omega)
  have slot : (tics + 1) / period = tics / 1000000 * totalSlots + (tics % 1000000 + 1) / period := by
    have parts : tics + 1 = tics % 1000000 + 1 + tics / 1000000 * totalSlots * period := by
      rw [Nat.mul_assoc, whole]
      omega
    conv_lhs => rw [parts]
    rw [Nat.add_mul_div_right _ _ positive, Nat.add_comm]
  -- The last tic of a second is the one that rounds up to the number of slots.
  have last : (tics % 1000000 + 1) / period = totalSlots ↔ 1000000 ∣ tics + 1 := by
    constructor
    · intro full
      have reached := Nat.div_mul_le_self (tics % 1000000 + 1) period
      rw [full, whole] at reached
      omega
    · intro boundary
      have full : tics % 1000000 + 1 = totalSlots * period := by omega
      rw [full, Nat.mul_div_cancel _ positive]
  rw [slot, ← last]
  split
  next full => omega
  next early => exact iff_of_true rfl early

theorem slot_and_second_agree_first_slot :
    let updated := unusedTable.updateTimeTics (slotsOfOne 100) 9999 1000000
    updated.2.simTimeSecs * 100 + updated.1 = 1 :=
  (slot_and_second_agree_iff (slotsOfOne 100) unusedTable 9999 (by decide) (by decide)).mpr (by decide)

/-- In the last tic of the first second the slot is zero again, and the second
is not the next one yet. -/
theorem second_left_behind :
    ¬ ∀ (context : ScheduleContext) (scheduler : TrickCFSScheduler) (tics : Nat),
      context.constants.totalSlots ∣ 1000000 → 2 ≤ 1000000 / context.constants.totalSlots →
      (scheduler.updateTimeTics context tics 1000000).2.simTimeSecs * context.constants.totalSlots +
          (scheduler.updateTimeTics context tics 1000000).1 =
        (tics + 1) / (1000000 / context.constants.totalSlots) := by
  intro always
  have same := always (slotsOfOne 100) unusedTable 999999 (by decide) (by decide)
  revert same
  decide

/-- The slot lies in the table, and with it every entry that the slot's pass
reads, exactly while the part of the second is short of one slot period more
than there are slots. The roll-over tests for one slot number only. -/
theorem slot_in_table_iff (context : ScheduleContext) (scheduler : TrickCFSScheduler)
    (tics ticsPerSec : Nat) (slots : 1 ≤ context.constants.totalSlots)
    (fits : context.constants.totalSlots ≤ 1000000) :
    let slot := (scheduler.updateTimeTics context tics ticsPerSec).1
    (slot < context.constants.totalSlots ∧ ∀ entryNumber < context.constants.entriesPerSlot,
        slot * context.constants.entriesPerSlot + entryNumber < context.constants.tableEntries) ↔
      tics % ticsPerSec + 1 < (context.constants.totalSlots + 1) * (1000000 / context.constants.totalSlots) := by
  have positive : 0 < 1000000 / context.constants.totalSlots := Nat.div_pos fits slots
  simp only [updateTimeTics_eq positive]
  have inside : ∀ slot < context.constants.totalSlots, ∀ entryNumber < context.constants.entriesPerSlot,
      slot * context.constants.entriesPerSlot + entryNumber < context.constants.tableEntries :=
    fun _ below _ bound => context.constants.entry_inside below bound
  generalize context.constants.totalSlots = totalSlots at slots positive inside ⊢
  rw [← Nat.div_lt_iff_lt_mul positive]
  split
  next full => exact iff_of_true ⟨slots, inside 0 slots⟩ (by omega)
  next early =>
    constructor
    · intro ⟨below, _⟩
      omega
    · intro short
      have below : (tics % ticsPerSec + 1) / (1000000 / totalSlots) < totalSlots := by omega
      exact ⟨below, inside _ below⟩

theorem slot_in_table_last_tic :
    let slot := (unusedTable.updateTimeTics (slotsOfOne 7) 999999 1000000).1
    slot < 7 ∧ ∀ entryNumber < 1, slot * 1 + entryNumber < 7 :=
  (slot_in_table_iff (slotsOfOne 7) unusedTable 999999 1000000 (by decide) (by decide)).mpr
    (by decide)

/-- Ten million tics per second put the middle of a second in slot 500 of 100. -/
theorem fine_tics_leave_table :
    ¬ ∀ (context : ScheduleContext) (scheduler : TrickCFSScheduler) (tics ticsPerSec : Nat),
      0 < ticsPerSec → 1 ≤ context.constants.totalSlots → context.constants.totalSlots ≤ 1000000 →
      (scheduler.updateTimeTics context tics ticsPerSec).1 < context.constants.totalSlots := by
  intro always
  have below := always (slotsOfOne 100) unusedTable 5000000 10000000 (by decide) (by decide) (by decide)
  revert below
  decide

end TrickCFS.Proofs.SlotTimes
