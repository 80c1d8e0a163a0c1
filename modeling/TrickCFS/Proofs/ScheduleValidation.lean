import TrickCFS.Proofs.SlotSchedule

/-! The check of a loaded schedule table and the check of a pass agree. The load
reports the first entry that fails, and what it accepts no pass finds corrupt. -/

namespace TrickCFS.Proofs.ScheduleValidation
open TrickCFSScheduler SlotSchedule

variable {constants : SchConstants} {entry : ScheduleEntry} {table : Nat → ScheduleEntry}

/-- Every field is `SCH_UNUSED`. -/
structure Unused (constants : SchConstants) (entry : ScheduleEntry) : Prop where
  enableState : entry.enableState = constants.unused
  frequency : entry.frequency = constants.unused
  remainder : entry.remainder = constants.unused
  groupData : entry.groupData = constants.unused
  type : entry.type = constants.unused
  messageIndex : entry.messageIndex = constants.unused

/-- The entry names a message and the seconds in which to send it. -/
structure Runnable (constants : SchConstants) (entry : ScheduleEntry) : Prop where
  enableState : entry.enableState = constants.enabled ∨ entry.enableState = constants.disabled
  frequency : entry.frequency ≠ 0
  remainder : entry.remainder < entry.frequency
  type : entry.type = constants.activitySendMsg
  messageIndex : 1 ≤ entry.messageIndex
  message : entry.messageIndex < constants.maxMessages

section Entries
variable (zero : constants.unused = 0) (distinct : constants.disabled ≠ constants.unused)
include zero distinct

theorem validateEntry_iff :
    constants.validateEntry entry = none ↔ Unused constants entry ∨ Runnable constants entry := by
  constructor
  · intro passed
    simp only [SchConstants.validateEntry] at passed
    split at passed
    next unused =>
      split at passed <;> cases passed
      left
      constructor <;> tauto
    next used =>
      repeat' split at passed
      all_goals cases passed
      right
      constructor <;> first | assumption | omega
  · rintro (unused | runnable)
    · simp [SchConstants.validateEntry, unused.enableState, unused.frequency, unused.remainder,
        unused.groupData, unused.type, unused.messageIndex]
    · have used : entry.enableState ≠ constants.unused := by
        rcases runnable.enableState with enabled | disabled
        · rw [enabled]
          exact constants.enabled_ne_unused
        · rwa [disabled]
      have indexed : entry.messageIndex ≠ 0 := Nat.ne_of_gt runnable.messageIndex
      have often : entry.frequency ≠ constants.unused := zero ▸ runnable.frequency
      rw [SchConstants.validateEntry, if_neg used, if_pos runnable.enableState, if_neg often,
        if_neg (Nat.not_le.mpr runnable.remainder), if_neg (not_not.mpr runnable.type), if_neg indexed,
        if_neg (Nat.not_le.mpr runnable.message)]

end Entries

/-- The loop up to the given table index. -/
private def validated (constants : SchConstants) (table : Nat → ScheduleEntry) (length : Nat) :
    ScheduleDataResult :=
  (List.range length).foldl (fun result index => constants.countEntry (table index) result) {}

private theorem validated_succ (length : Nat) :
    validated constants table (length + 1) =
      constants.countEntry (table length) (validated constants table length) := by
  simp only [validated, List.range_succ, List.foldl_append, List.foldl_cons, List.foldl_nil]

private theorem countEntry_error (result : ScheduleDataResult) :
    (constants.countEntry entry result).tableResult =
      result.tableResult.or (constants.validateEntry entry) := by
  simp only [SchConstants.countEntry]
  split
  next code failed => rw [failed]
  next passed =>
    rw [passed, Option.or_none]
    split <;> rfl

private theorem countEntry_counts (constants : SchConstants) (entry : ScheduleEntry)
    (result : ScheduleDataResult) :
    let counted := constants.countEntry entry result
    counted.goodCount + counted.badCount + counted.unusedCount =
      result.goodCount + result.badCount + result.unusedCount + 1 := by
  simp only [SchConstants.countEntry]
  repeat' split
  all_goals
    simp only
    omega

private theorem counts_add_up (length : Nat) :
    let result := validated constants table length
    result.goodCount + result.badCount + result.unusedCount = length := by
  induction length with
  | zero => rfl
  | succ length ih =>
    have counted := countEntry_counts constants (table length) (validated constants table length)
    rw [← validated_succ] at counted
    simp only at counted ih ⊢
    rw [counted, ih]

private theorem first_error_iff (length : Nat) (code : ScheduleDataError) :
    (validated constants table length).tableResult = some code ↔
      ∃ index < length, constants.validateEntry (table index) = some code ∧
        ∀ earlier < index, constants.validateEntry (table earlier) = none := by
  induction length with
  | zero =>
    constructor
    · intro failed
      cases failed
    · intro ⟨index, inside, _⟩
      exact absurd inside (Nat.not_lt_zero index)
  | succ length ih =>
    have clean : (validated constants table length).tableResult = none ↔
        ∀ index < length, constants.validateEntry (table index) = none := by
      rw [validated, foldl_result]
      simp
    rw [validated_succ, countEntry_error, Option.or_eq_some_iff, ih]
    constructor
    · rintro (⟨index, inside, found⟩ | ⟨none, failed⟩)
      · exact ⟨index, Nat.lt_succ_of_lt inside, found⟩
      · exact ⟨length, Nat.lt_succ_self length, failed, clean.mp none⟩
    · intro ⟨index, inside, failed, before⟩
      rcases Nat.lt_succ_iff_lt_or_eq.mp inside with earlier | rfl
      · exact Or.inl ⟨index, earlier, failed, before⟩
      · exact Or.inr ⟨clean.mpr before, failed⟩

section Passes
variable {context : ScheduleContext} {scheduler : TrickCFSScheduler}

def NotCorrupt (error : Option ActivityError) : Prop :=
  ∀ slot entry data, error ≠ some (.corruptData slot entry data)

theorem processNextEntry_proper (index entryNumber : Nat)
    (proper : ¬ context.constants.isCorrupt (scheduler.scheduleTable index)) :
    let pass := processNextEntry context index entryNumber scheduler
    NotCorrupt pass.error ∧ pass.scheduler.scheduleTable = scheduler.scheduleTable ∧
      pass.scheduler.tableModified = scheduler.tableModified ∧
      pass.scheduler.nextSlotNumber = scheduler.nextSlotNumber := by
  simp only [processNextEntry, proper, ite_false]
  split
  next =>
    refine ⟨?_, rfl, rfl, rfl⟩
    intro slot entry data
    simp only
    split <;> simp
  next => exact ⟨by simp [NotCorrupt], rfl, rfl, rfl⟩

/-- The loop over a slot without corrupt entries, whatever the transmissions
answer, has no such error and leaves the table as it is. -/
theorem processEntries_proper (context : ScheduleContext) (entries : List Nat)
    (proper : ∀ entryNumber ∈ entries,
      let entry := scheduler.scheduleTable
        (scheduler.nextSlotNumber * context.constants.entriesPerSlot + entryNumber)
      entry.enableState = context.constants.enabled → ¬ context.constants.isCorrupt entry) :
    let pass := processEntries context entries scheduler
    NotCorrupt pass.error ∧ pass.scheduler.scheduleTable = scheduler.scheduleTable ∧
      pass.scheduler.tableModified = scheduler.tableModified := by
  induction entries generalizing scheduler with
  | nil => exact ⟨by simp [NotCorrupt, processEntries], rfl, rfl⟩
  | cons entryNumber rest ih =>
    obtain ⟨first, others⟩ := List.forall_mem_cons.mp proper
    simp only [processEntries]
    split
    next enabled =>
      obtain ⟨calm, table, modified, slot⟩ := processNextEntry_proper _ entryNumber (first enabled)
      split
      next => exact ⟨calm, table, modified⟩
      next =>
        obtain ⟨calm', table', modified'⟩ := ih (by rwa [table, slot])
        exact ⟨calm', table'.trans table, modified'.trans modified⟩
    next => exact ih others

end Passes

/-- The load accepts exactly the tables of unused and of runnable entries, it
reports the error of the lowest index and counts every entry once. On a table it
accepts, no pass over a slot finds corrupt data or divides by a zero frequency,
at whatever time, and the table stays as it was. -/
theorem validation_exact (context : ScheduleContext) (zero : context.constants.unused = 0)
    (distinct : context.constants.disabled ≠ context.constants.unused) (table : Nat → ScheduleEntry) :
    let constants := context.constants
    let result := constants.validateScheduleData table
    (result.tableResult = none ↔
      ∀ index < constants.tableEntries, Unused constants (table index) ∨ Runnable constants (table index)) ∧
    (∀ code, result.tableResult = some code ↔ ∃ index < constants.tableEntries,
      constants.validateEntry (table index) = some code ∧
        ∀ earlier < index, Unused constants (table earlier) ∨ Runnable constants (table earlier)) ∧
    result.goodCount + result.badCount + result.unusedCount = constants.tableEntries ∧
    (result.tableResult = none → ∀ scheduler : TrickCFSScheduler, scheduler.scheduleTable = table →
      scheduler.nextSlotNumber < constants.totalSlots →
      (∀ entryNumber < constants.entriesPerSlot,
        let entry := table (scheduler.nextSlotNumber * constants.entriesPerSlot + entryNumber)
        entry.enableState = constants.enabled → ¬ constants.isCorrupt entry ∧ entry.frequency ≠ 0) ∧
      NotCorrupt (scheduler.processNextSlot context).error ∧
      (scheduler.processNextSlot context).scheduler.scheduleTable = table ∧
      (scheduler.processNextSlot context).scheduler.tableModified = scheduler.tableModified) := by
  intro constants result
  have accepted : result.tableResult = none ↔
      ∀ index < constants.tableEntries, constants.validateEntry (table index) = none := accepted_iff
  have valid : ∀ index, constants.validateEntry (table index) = none ↔
      Unused constants (table index) ∨ Runnable constants (table index) :=
    fun _ => validateEntry_iff zero distinct
  refine ⟨?_, ?_, counts_add_up constants.tableEntries, ?_⟩
  · simp only [accepted, valid]
  · intro code
    simp only [← valid]
    exact first_error_iff constants.tableEntries code
  · intro passed scheduler rfl slot
    have proper : ∀ entryNumber < constants.entriesPerSlot,
        let entry := scheduler.scheduleTable (scheduler.nextSlotNumber * constants.entriesPerSlot + entryNumber)
        entry.enableState = constants.enabled → ¬ constants.isCorrupt entry := by
      intro entryNumber bound entry enabled
      have inside := constants.entry_inside slot bound
      exact not_corrupt (accepted.mp passed _ inside) enabled
    refine ⟨?_, ?_⟩
    · intro entryNumber bound entry enabled
      have calm := proper entryNumber bound enabled
      refine ⟨calm, ?_⟩
      intro never
      apply calm
      right; right; right
      exact never ▸ Nat.zero_le _
    · obtain ⟨calm, kept, modified⟩ := processEntries_proper context (List.range constants.entriesPerSlot)
        (fun entryNumber member => proper entryNumber (List.mem_range.mp member))
      simp only [processNextSlot]
      split
      next => exact ⟨calm, kept, modified⟩
      next => exact ⟨calm, kept, modified⟩

def largeRemainder (index : Nat) : ScheduleEntry :=
  if index = 1 then ⟨1, 1, 2, 3, 3, 0⟩ else ⟨0, 0, 0, 0, 0, 0⟩

theorem validation_exact_large_remainder :
    ((SlotTimes.slotsOfOne 3).constants.validateScheduleData largeRemainder).tableResult =
      some .badRemainder := by
  obtain ⟨_, reported, _⟩ := validation_exact (SlotTimes.slotsOfOne 3) rfl (by decide) largeRemainder
  refine (reported .badRemainder).mpr ⟨1, by decide, by decide, ?_⟩
  intro earlier before
  obtain rfl := Nat.lt_one_iff.mp before
  exact Or.inl ⟨rfl, rfl, rfl, rfl, rfl, rfl⟩

end TrickCFS.Proofs.ScheduleValidation
